import Mathlib.Logic.Function.Basic
import L2Switch.BoundedLists

/-!
The rte_ring calls the switch makes, as DPDK documents them: a registry of live
rings by name, one bounded FIFO of object pointers behind each address, and
addresses that are never handed out twice so that a ring keeps its identity after
it is freed. `log` remembers the calls, newest first. Whether a free name can be
created is the environment's choice.
-/
namespace L2Switch.DpdkRings

abbrev RingPtr := Nat

abbrev MbufPtr := Nat

inductive RingCall where
  | create (ring : RingPtr)
  | free (ring : RingPtr)
  | enqueue (ring : RingPtr)
  | dequeue (ring : RingPtr)
  deriving DecidableEq

structure Rings where
  next : RingPtr
  registry : String → Option RingPtr
  name : RingPtr → String
  fifo : RingPtr → BoundedFifo MbufPtr
  log : List RingCall

/-- No ring yet; the address 0 is null and never handed out. -/
def Rings.none : Rings :=
  { next := 1, registry := fun _ => .none, name := fun _ => "", fifo := fun _ => .empty 0
    log := [] }

def rteRingLookup (rings : Rings) (name : String) : Option RingPtr := rings.registry name

/-- A ring made for `count` objects holds one fewer. -/
def rteRingCreate (rings : Rings) (name : String) (count : Nat) (granted : Bool) :
    Option RingPtr × Rings :=
  if (rings.registry name).isSome || !granted then (.none, rings) else
    (some rings.next,
      { next := rings.next + 1
        registry := Function.update rings.registry name (some rings.next)
        name := Function.update rings.name rings.next name
        fifo := Function.update rings.fifo rings.next (.empty (count - 1))
        log := .create rings.next :: rings.log })

def rteRingFree (rings : Rings) (ring : RingPtr) : Rings :=
  { rings with
    registry :=
      if rings.registry (rings.name ring) = some ring then
        Function.update rings.registry (rings.name ring) .none
      else rings.registry
    log := .free ring :: rings.log }

def enobufs : Int := 105

def enoent : Int := 2

def rteRingEnqueue (rings : Rings) (ring : RingPtr) (obj : MbufPtr) : Int × Rings :=
  let logged := { rings with log := .enqueue ring :: rings.log }
  match (rings.fifo ring).push obj with
  | .none => (-enobufs, logged)
  | some fifo => (0, { logged with fifo := Function.update rings.fifo ring fifo })

/-- The removed pointer is stored through the second argument, `obj_p`. -/
def rteRingDequeue (rings : Rings) (ring : RingPtr) (obj_p : MbufPtr) : Int × MbufPtr × Rings :=
  let logged := { rings with log := .dequeue ring :: rings.log }
  match (rings.fifo ring).pop with
  | .none => (-enoent, obj_p, logged)
  | some (obj, fifo) => (0, obj, { logged with fifo := Function.update rings.fifo ring fifo })

/-- Every ring is freed at most once and not used once it is freed. -/
def SafeLog : List RingCall → Prop
  | [] => True
  | .create _ :: earlier => SafeLog earlier
  | .free ring :: earlier => .free ring ∉ earlier ∧ SafeLog earlier
  | .enqueue ring :: earlier => .free ring ∉ earlier ∧ SafeLog earlier
  | .dequeue ring :: earlier => .free ring ∉ earlier ∧ SafeLog earlier

def Rings.Freed (rings : Rings) (ring : RingPtr) : Prop := .free ring ∈ rings.log

@[simp] theorem free_freed (rings : Rings) (ring other : RingPtr) :
    (rteRingFree rings ring).Freed other ↔ other = ring ∨ rings.Freed other := by
  simp [Rings.Freed, rteRingFree]

theorem free_safe_iff (rings : Rings) (ring : RingPtr) :
    SafeLog (rteRingFree rings ring).log ↔ ¬ rings.Freed ring ∧ SafeLog rings.log := Iff.rfl

theorem safe_free_count (log : List RingCall) (safe : SafeLog log) (ring : RingPtr) :
    log.count (.free ring) ≤ 1 := by
  induction log with
  | nil => simp
  | cons call earlier ih =>
      cases call with
      | create other => simpa [List.count_cons] using ih safe
      | enqueue other => simpa [List.count_cons] using ih safe.2
      | dequeue other => simpa [List.count_cons] using ih safe.2
      | free other =>
          have before := ih safe.2
          by_cases same : other = ring
          · subst same
            simp [List.count_eq_zero.mpr safe.1]
          · simpa [List.count_cons, same] using before

def Rings.Created (rings : Rings) (ring : RingPtr) : Prop := .create ring ∈ rings.log

/-- Created and not yet freed. -/
def Rings.Live (rings : Rings) (ring : RingPtr) : Prop :=
  rings.Created ring ∧ ¬ rings.Freed ring

/-- The registry lists exactly the live rings, and addresses are fresh. -/
structure Rings.Tidy (rings : Rings) : Prop where
  registered : ∀ name ring, rings.registry name = some ring → rings.name ring = name
  live_iff : ∀ ring, rings.Live ring ↔ rings.registry (rings.name ring) = some ring
  created_below : ∀ ring, rings.Created ring → ring < rings.next
  freed_created : ∀ ring, rings.Freed ring → rings.Created ring

/-- The rings `rteRingCreate` leaves when it succeeds. -/
abbrev Rings.created (rings : Rings) (name : String) (count : Nat) : Rings :=
  (rteRingCreate rings name count true).2

theorem none_tidy : Rings.none.Tidy :=
  { registered := fun _ _ found => by simp [Rings.none] at found
    live_iff := fun ring => by simp [Rings.none, Rings.Live, Rings.Created]
    created_below := fun ring made => by simp [Rings.none, Rings.Created] at made
    freed_created := fun ring freed => by simp [Rings.none, Rings.Freed] at freed }

theorem registered_live (rings : Rings) (tidy : rings.Tidy) (name : String) (ring : RingPtr)
    (found : rings.registry name = some ring) : rings.Live ring := by
  apply (tidy.live_iff ring).mpr
  rwa [tidy.registered name ring found]

theorem registered_below (rings : Rings) (tidy : rings.Tidy) (name : String) (ring : RingPtr)
    (found : rings.registry name = some ring) : ring < rings.next :=
  tidy.created_below ring (registered_live rings tidy name ring found).1

theorem next_not_freed (rings : Rings) (tidy : rings.Tidy) : ¬ rings.Freed rings.next :=
  fun freed => Nat.lt_irrefl _ (tidy.created_below _ (tidy.freed_created _ freed))

theorem created_eq (rings : Rings) (name : String) (count : Nat)
    (free_name : rings.registry name = .none) :
    rings.created name count =
      { next := rings.next + 1
        registry := Function.update rings.registry name (some rings.next)
        name := Function.update rings.name rings.next name
        fifo := Function.update rings.fifo rings.next (.empty (count - 1))
        log := .create rings.next :: rings.log } := by
  simp [Rings.created, rteRingCreate, free_name]

theorem created_tidy (rings : Rings) (tidy : rings.Tidy) (name : String) (count : Nat)
    (free_name : rings.registry name = .none) : (rings.created name count).Tidy := by
  rw [created_eq rings name count free_name]
  have fresh := next_not_freed rings tidy
  have unmade : ¬ rings.Created rings.next :=
    fun made => Nat.lt_irrefl _ (tidy.created_below _ made)
  constructor
  · intro other ring found
    by_cases same : other = name
    · subst same
      obtain rfl : rings.next = ring := by simpa using found
      simp
    · have before : rings.registry other = some ring := by simpa [same] using found
      have below := registered_below rings tidy other ring before
      simpa [Nat.ne_of_lt below] using tidy.registered other ring before
  · intro ring
    by_cases same : ring = rings.next
    · subst same
      -- nobody has freed an address before it was handed out
      simp [Rings.Live, Rings.Created, Rings.Freed]
      simpa [Rings.Freed] using fresh
    · have before := tidy.live_iff ring
      simp only [Rings.Live, Rings.Created, Rings.Freed] at before
      simp only [Rings.Live, Rings.Created, Rings.Freed, List.mem_cons, RingCall.create.injEq, same,
        reduceCtorEq, false_or, before, ne_eq, not_false_eq_true, Function.update_of_ne]
      by_cases clash : rings.name ring = name
      · simp [clash, free_name, Ne.symm same]
      · simp [clash]
  · intro ring made
    have cases_made : ring = rings.next ∨ rings.Created ring := by
      simpa [Rings.Created] using made
    rcases cases_made with rfl | before
    · exact Nat.lt_succ_self _
    · exact Nat.lt_succ_of_lt (tidy.created_below ring before)
  · intro ring freed
    have before : rings.Freed ring := by simpa [Rings.Freed] using freed
    exact List.mem_cons_of_mem _ (tidy.freed_created ring before)

theorem free_registered (rings : Rings) (tidy : rings.Tidy) (name : String) (ring : RingPtr)
    (found : rings.registry name = some ring) :
    (rteRingFree rings ring).registry = Function.update rings.registry name .none := by
  simp [rteRingFree, tidy.registered name ring found, found]

theorem created_live (rings : Rings) (name : String) (count : Nat)
    (free_name : rings.registry name = .none) (ring : RingPtr) (live : rings.Live ring) :
    (rings.created name count).Live ring := by
  rw [created_eq rings name count free_name]
  exact ⟨List.mem_cons_of_mem _ live.1, by simpa [Rings.Freed] using live.2⟩

theorem created_safe (rings : Rings) (name : String) (count : Nat)
    (free_name : rings.registry name = .none) (safe : SafeLog rings.log) :
    SafeLog (rings.created name count).log := by
  rw [created_eq rings name count free_name]
  exact safe

theorem free_live (rings : Rings) (ring other : RingPtr) :
    (rteRingFree rings ring).Live other ↔ other ≠ ring ∧ rings.Live other := by
  simp only [Rings.Live, Rings.Created, Rings.Freed, rteRingFree, List.mem_cons,
    RingCall.free.injEq, reduceCtorEq, false_or, not_or]
  tauto

theorem free_tidy (rings : Rings) (tidy : rings.Tidy) (ring : RingPtr)
    (made : rings.Created ring) : (rteRingFree rings ring).Tidy := by
  constructor
  · intro name other found
    apply tidy.registered name other
    simp only [rteRingFree] at found
    split at found
    · by_cases same : name = rings.name ring
      · subst same
        simp at found
      · simpa [same] using found
    · exact found
  · intro other
    have before := tidy.live_iff other
    rw [free_live, before]
    simp only [rteRingFree]
    by_cases same : other = ring
    · subst same
      split
      · simp
      · next gone => simpa using gone
    · split
      · next owner =>
          -- two live rings of one name would be the same ring
          by_cases clash : rings.name other = rings.name ring
          · simp [clash, owner, Ne.symm same]
          · simp [clash, same]
      · simp [same]
  · intro other made
    exact tidy.created_below other (by simpa [Rings.Created, rteRingFree] using made)
  · intro other freed
    have cases_freed := (free_freed rings ring other).mp freed
    refine List.mem_cons_of_mem _ ?_
    rcases cases_freed with rfl | before
    · exact made
    · exact tidy.freed_created other before

/-- Nothing is in any registered ring, and all of them are of one capacity. -/
def Rings.Unused (rings : Rings) (capacity : Nat) : Prop :=
  ∀ name ring, rings.registry name = some ring →
    (rings.fifo ring).items = [] ∧ (rings.fifo ring).capacity = capacity

theorem created_unused (rings : Rings) (tidy : rings.Tidy) (name : String) (count : Nat)
    (free_name : rings.registry name = .none) (unused : rings.Unused (count - 1)) :
    (rings.created name count).Unused (count - 1) := by
  rw [created_eq rings name count free_name]
  intro other ring found
  by_cases same : other = name
  · subst same
    obtain rfl : rings.next = ring := by simpa using found
    simp [BoundedFifo.empty]
  · have before : rings.registry other = some ring := by simpa [same] using found
    have below := registered_below rings tidy other ring before
    simpa [Nat.ne_of_lt below] using unused other ring before

theorem free_unused (rings : Rings) (ring : RingPtr) (capacity : Nat)
    (unused : rings.Unused capacity) : (rteRingFree rings ring).Unused capacity := by
  intro name other found
  apply unused name other
  simp only [rteRingFree] at found
  split at found
  · by_cases same : name = rings.name ring
    · subst same
      simp at found
    · simpa [same] using found
  · exact found

/-- An enqueue or a dequeue on `ring` leaves everything but contents and log alone. -/
def Used (rings : Rings) (ring : RingPtr) (after : Rings) : Prop :=
  ∃ fifo call, (call = .enqueue ring ∨ call = .dequeue ring) ∧
    after = { rings with fifo, log := call :: rings.log }

theorem used_live (rings after : Rings) (ring : RingPtr) (used : Used rings ring after)
    (other : RingPtr) : after.Live other ↔ rings.Live other := by
  obtain ⟨fifo, call, rfl | rfl, rfl⟩ := used <;>
    simp [Rings.Live, Rings.Created, Rings.Freed]

theorem used_tidy (rings after : Rings) (ring : RingPtr) (used : Used rings ring after)
    (tidy : rings.Tidy) : after.Tidy := by
  have live := used_live rings after ring used
  obtain ⟨fifo, call, rfl | rfl, rfl⟩ := used <;>
    exact { registered := tidy.registered
            live_iff := fun other => (live other).trans (tidy.live_iff other)
            created_below := fun other made =>
              tidy.created_below other (by simpa [Rings.Created] using made)
            freed_created := fun other freed => List.mem_cons_of_mem _
              (tidy.freed_created other (by simpa [Rings.Freed] using freed)) }

theorem used_safe_iff (rings after : Rings) (ring : RingPtr) (used : Used rings ring after) :
    SafeLog after.log ↔ ¬ rings.Freed ring ∧ SafeLog rings.log := by
  obtain ⟨fifo, call, rfl | rfl, rfl⟩ := used <;> exact Iff.rfl

/-- What is left of creations that were undone again: nothing that was there
before has changed. -/
structure Scratch (before after : Rings) : Prop where
  registry : after.registry = before.registry
  next_le : before.next ≤ after.next
  names : ∀ ring < before.next, after.name ring = before.name ring
  fifos : ∀ ring < before.next, after.fifo ring = before.fifo ring
  freed : ∀ ring < before.next, after.Freed ring → before.Freed ring
  safe : SafeLog before.log → SafeLog after.log

theorem scratch_refl (rings : Rings) : Scratch rings rings :=
  ⟨rfl, Nat.le_refl _, fun _ _ => rfl, fun _ _ => rfl, fun _ _ freed => freed, id⟩

/-- Creating a ring, doing only scratch work and freeing the ring is scratch work. -/
theorem scratch_undo (rings after : Rings) (tidy : rings.Tidy) (name : String) (count : Nat)
    (free_name : rings.registry name = .none) (between : Scratch (rings.created name count) after) :
    Scratch rings (rteRingFree after rings.next) := by
  have made := created_eq rings name count free_name
  have below : rings.next < (rings.created name count).next := by rw [made]; exact Nat.lt_succ_self _
  have unfreed : ¬ (rings.created name count).Freed rings.next := by
    rw [made]
    simpa [Rings.Freed] using next_not_freed rings tidy
  have its_name : after.name rings.next = name := by
    rw [between.names _ below, made]
    simp
  have its_entry : after.registry name = some rings.next := by
    rw [between.registry, made]
    simp
  constructor
  · simp only [rteRingFree, its_name, its_entry, ↓reduceIte]
    rw [between.registry, made]
    simp [← free_name]
  · exact Nat.le_of_lt (Nat.lt_of_lt_of_le below between.next_le)
  · intro ring old
    have earlier := between.names ring (Nat.lt_trans old below)
    simpa [rteRingFree, earlier, made] using Function.update_of_ne (Nat.ne_of_lt old) name rings.name
  · intro ring old
    have earlier := between.fifos ring (Nat.lt_trans old below)
    simpa [rteRingFree, earlier, made] using
      Function.update_of_ne (Nat.ne_of_lt old) (BoundedFifo.empty (count - 1)) rings.fifo
  · intro ring old freed
    rcases (free_freed after rings.next ring).mp freed with rfl | earlier
    · exact absurd old (Nat.lt_irrefl _)
    · have still := between.freed ring (Nat.lt_trans old below) earlier
      rw [made] at still
      simpa [Rings.Freed] using still
  · intro safe
    refine (free_safe_iff after rings.next).mpr ⟨?_, ?_⟩
    · exact fun freed => unfreed (between.freed _ below freed)
    · exact between.safe (by rw [made]; exact safe)

theorem scratch_unused (before after : Rings) (tidy : before.Tidy) (scratch : Scratch before after)
    (capacity : Nat) (unused : before.Unused capacity) : after.Unused capacity := by
  intro name ring found
  rw [scratch.registry] at found
  rw [scratch.fifos ring (registered_below before tidy name ring found)]
  exact unused name ring found

theorem scratch_live (before after : Rings) (tidyBefore : before.Tidy) (tidyAfter : after.Tidy)
    (scratch : Scratch before after) (ring : RingPtr) : after.Live ring ↔ before.Live ring := by
  rw [tidyAfter.live_iff, tidyBefore.live_iff, scratch.registry]
  constructor
  · intro found
    have below := registered_below before tidyBefore _ ring found
    rwa [scratch.names ring below] at found
  · intro found
    have below := registered_below before tidyBefore _ ring found
    rwa [scratch.names ring below]

end L2Switch.DpdkRings
