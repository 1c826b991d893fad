import Mathlib.Algebra.Group.Nat.Defs
import Mathlib.Data.List.Basic

/-!
`PortQueue::transmit` of dpdk/port.rs and the bulk free of dpdk/mod.rs it falls
back on. A packet is the pointer `Mbuf::into_ptr` leaves behind; its pool is the
`pool` field found through that pointer. The driver is any function that accepts
at most what a burst offers, told apart by the number of the call.
-/
namespace L2Switch.PortTransmit

variable {Ptr Pool : Type} [DecidableEq Pool]

inductive Panic where
  | assertion_failed

/-- What one `_rte_mempool_put_bulk` gives back to which pool. -/
structure Put (Ptr Pool : Type) where
  pool : Pool
  objs : List Ptr

/-- The object count is narrowed by `len as u32`. -/
def mempoolPutBulk (pool : Pool) (to_free : List Ptr) : Put Ptr Pool :=
  { pool, objs := to_free.take (UInt32.ofNat to_free.length).toNat }

def freeLoop (poolOf : Ptr → Pool) (pool : Pool) : List Ptr → List Ptr → List (Put Ptr Pool)
  | to_free, [] => [mempoolPutBulk pool to_free]
  | to_free, mbuf :: mbufs =>
      if pool = poolOf mbuf then
        freeLoop poolOf pool (to_free ++ [mbuf]) mbufs
      else
        mempoolPutBulk pool to_free :: freeLoop poolOf pool [mbuf] mbufs

def mbufFreeBulk (poolOf : Ptr → Pool) : List Ptr → Except Panic (List (Put Ptr Pool))
  | [] => .error .assertion_failed
  | first :: mbufs => .ok (freeLoop poolOf (poolOf first) [] (first :: mbufs))

/-- `rte_eth_tx_burst` takes some prefix of the packets a burst offers. -/
structure Driver where
  txBurst : (call : Nat) → (to_send : UInt16) → UInt16
  accepts_prefix : ∀ call to_send, txBurst call to_send ≤ to_send

structure Transmitted (Ptr Pool : Type) where
  handed : List Ptr
  puts : List (Put Ptr Pool)
  panicked : Bool

def Transmitted.freed (out : Transmitted Ptr Pool) : List Ptr := out.puts.flatMap Put.objs

theorem narrowed_le (ptrs : List Ptr) : (UInt16.ofNat ptrs.length).toNat ≤ ptrs.length := by
  rw [UInt16.toNat_ofNat']
  exact Nat.mod_le _ _

theorem sent_le (driver : Driver) (call : Nat) (ptrs : List Ptr) :
    (driver.txBurst call (UInt16.ofNat ptrs.length)).toNat ≤ ptrs.length :=
  Nat.le_trans (UInt16.le_iff_toNat_le.mp (driver.accepts_prefix call _)) (narrowed_le ptrs)

theorem drained_shorter (driver : Driver) (call : Nat) (ptrs : List Ptr)
    (progress : 0 < driver.txBurst call (UInt16.ofNat ptrs.length)) :
    (ptrs.drop (driver.txBurst call (UInt16.ofNat ptrs.length)).toNat).length < ptrs.length := by
  have positive : 0 < (driver.txBurst call (UInt16.ofNat ptrs.length)).toNat :=
    UInt16.lt_iff_toNat_lt.mp progress
  have bounded := sent_le driver call ptrs
  rw [List.length_drop]
  omega

def transmitLoop (driver : Driver) (poolOf : Ptr → Pool) (call : Nat) (ptrs : List Ptr) :
    Transmitted Ptr Pool :=
  let to_send := UInt16.ofNat ptrs.length
  let sent := driver.txBurst call to_send
  if progress : 0 < sent then
    let handed := ptrs.take sent.toNat
    if 0 < to_send - sent then
      -- drain what the driver took and try again on the rest
      let rest := transmitLoop driver poolOf (call + 1) (ptrs.drop sent.toNat)
      { rest with handed := handed ++ rest.handed }
    else
      { handed, puts := [], panicked := false }
  else
    match mbufFreeBulk poolOf ptrs with
    | .ok puts => { handed := [], puts, panicked := false }
    | .error _ => { handed := [], puts := [], panicked := true }
termination_by ptrs.length
decreasing_by exact drained_shorter driver call ptrs progress

def transmit (driver : Driver) (poolOf : Ptr → Pool) (packets : List Ptr) :
    Transmitted Ptr Pool := transmitLoop driver poolOf 0 packets

/-- Nothing lost and nothing doubled: the packets handed over and the packets
freed are together the packets given, the former a prefix of them. -/
def Conserves (driver : Driver) (poolOf : Ptr → Pool) (packets : List Ptr) : Prop :=
  let out := transmit driver poolOf packets
  out.panicked = false ∧ out.handed <+: packets ∧ (out.handed ++ out.freed).Perm packets

theorem offer_shrinks (driver : Driver) (call : Nat) (count : UInt16)
    (progress : 0 < driver.txBurst call count) :
    (count - driver.txBurst call count).toNat < count.toNat := by
  have positive : 0 < (driver.txBurst call count).toNat := UInt16.lt_iff_toNat_lt.mp progress
  have bounded := driver.accepts_prefix call count
  have within := UInt16.le_iff_toNat_le.mp bounded
  rw [UInt16.toNat_sub_of_le _ _ bounded]
  omega

/-- How many packets of an offer of `count` the driver takes before it refuses a
burst; none when it takes the whole offer. -/
def takenBeforeRefusal (driver : Driver) (call : Nat) (count : UInt16) : Option Nat :=
  let sent := driver.txBurst call count
  if _ : 0 < sent then
    if 0 < count - sent then
      (takenBeforeRefusal driver (call + 1) (count - sent)).map (sent.toNat + ·)
    else none
  else some 0
termination_by count.toNat
decreasing_by exact offer_shrinks driver call count ‹_›

/-- A list cut in front of every element of a kind. -/
def cutBefore {Elem : Type} (cut : Elem → Bool) : List Elem → List Elem → List (List Elem)
  | current, [] => [current]
  | current, elem :: rest =>
      if cut elem then current :: cutBefore cut [elem] rest
      else cutBefore cut (current ++ [elem]) rest

/-- The runs the bulk free works in: it starts one at every packet that is not of
the first packet's pool. -/
def freeRuns (poolOf : Ptr → Pool) : List Ptr → List (List Ptr)
  | [] => []
  | first :: mbufs => cutBefore (fun mbuf => poolOf mbuf ≠ poolOf first) [] (first :: mbufs)

/-- What it takes for `transmit` to account for every packet. -/
def Accountable (driver : Driver) (poolOf : Ptr → Pool) (packets : List Ptr) : Prop :=
  packets ≠ [] ∧
    match takenBeforeRefusal driver 0 (UInt16.ofNat packets.length) with
    | none => packets.length < 2 ^ 16
    | some taken => ∀ group ∈ freeRuns poolOf (packets.drop taken), group.length < 2 ^ 32

theorem cutBefore_flatten {Elem : Type} (cut : Elem → Bool) (current elems : List Elem) :
    (cutBefore cut current elems).flatten = current ++ elems := by
  induction elems generalizing current with
  | nil => simp [cutBefore]
  | cons elem rest ih =>
      unfold cutBefore
      split
      · simp [ih]
      · simp [ih]

theorem freeRuns_flatten (poolOf : Ptr → Pool) (mbufs : List Ptr) :
    (freeRuns poolOf mbufs).flatten = mbufs := by
  cases mbufs with
  | nil => rfl
  | cons first rest => rw [freeRuns, cutBefore_flatten, List.nil_append]

theorem freeLoop_eq (poolOf : Ptr → Pool) (pool : Pool) (to_free mbufs : List Ptr) :
    freeLoop poolOf pool to_free mbufs =
      (cutBefore (fun mbuf => poolOf mbuf ≠ pool) to_free mbufs).map (mempoolPutBulk pool) := by
  induction mbufs generalizing to_free with
  | nil => rfl
  | cons mbuf rest ih =>
      by_cases same : pool = poolOf mbuf
      · simp [freeLoop, cutBefore, ← same, ih]
      · simp [freeLoop, cutBefore, same, Ne.symm same, ih]

theorem mbufFreeBulk_freed (poolOf : Ptr → Pool) (mbufs : List Ptr) (some_packet : mbufs ≠ []) :
    ∃ puts, mbufFreeBulk poolOf mbufs = .ok puts ∧
      puts.map Put.objs = (freeRuns poolOf mbufs).map fun group => group.take (group.length % 2 ^ 32) := by
  cases mbufs with
  | nil => exact absurd rfl some_packet
  | cons first rest =>
      refine ⟨_, rfl, ?_⟩
      simp [freeLoop_eq, freeRuns, mempoolPutBulk]

theorem narrowed_drop (ptrs : List Ptr) (sent : UInt16) (bounded : sent.toNat ≤ ptrs.length) :
    UInt16.ofNat (ptrs.drop sent.toNat).length = UInt16.ofNat ptrs.length - sent := by
  rw [List.length_drop, UInt16.ofNat_sub bounded, UInt16.ofNat_toNat]

/-- `taken` packets handed over and the others given to the bulk free. -/
def afterRefusal (poolOf : Ptr → Pool) (ptrs : List Ptr) (taken : Nat) : Transmitted Ptr Pool :=
  match mbufFreeBulk poolOf (ptrs.drop taken) with
  | .ok puts => { handed := ptrs.take taken, puts, panicked := false }
  | .error _ => { handed := ptrs.take taken, puts := [], panicked := true }

theorem afterRefusal_drop (poolOf : Ptr → Pool) (ptrs : List Ptr) (sent taken : Nat) :
    { afterRefusal poolOf (ptrs.drop sent) taken with
        handed := ptrs.take sent ++ (afterRefusal poolOf (ptrs.drop sent) taken).handed } =
      afterRefusal poolOf ptrs (sent + taken) := by
  unfold afterRefusal
  rw [List.drop_drop]
  cases mbufFreeBulk poolOf (ptrs.drop (sent + taken)) <;> simp [List.take_add]

/-- The loop hands over what the driver takes before it refuses and frees the
rest. Where the driver takes the whole narrowed offer, the rest is forgotten. -/
theorem transmitLoop_spec (driver : Driver) (poolOf : Ptr → Pool) (call : Nat) (ptrs : List Ptr) :
    transmitLoop driver poolOf call ptrs =
      match takenBeforeRefusal driver call (UInt16.ofNat ptrs.length) with
      | none =>
          { handed := ptrs.take (UInt16.ofNat ptrs.length).toNat, puts := [], panicked := false }
      | some taken => afterRefusal poolOf ptrs taken := by
  fun_induction transmitLoop driver poolOf call ptrs with
  | case1 call ptrs to_send sent progress handed more rest ih =>
      have bounded : sent.toNat ≤ ptrs.length := sent_le driver call ptrs
      have within : sent ≤ to_send := driver.accepts_prefix call to_send
      rw [narrowed_drop ptrs sent bounded] at ih
      rw [takenBeforeRefusal, dif_pos progress, if_pos more]
      change { rest with handed := handed ++ rest.handed } = _
      rw [show rest = _ from ih]
      cases takenBeforeRefusal driver (call + 1) (to_send - sent) with
      | none =>
          -- two takes in a row are one take of the whole narrowed offer
          have refill : sent.toNat + (to_send - sent).toNat = to_send.toNat := by
            rw [UInt16.toNat_sub_of_le _ _ within]
            exact Nat.add_sub_cancel' (UInt16.le_iff_toNat_le.mp within)
          change Transmitted.mk (handed ++ (ptrs.drop sent.toNat).take (to_send - sent).toNat) [] false = _
          rw [← List.take_add, refill]
          rfl
      | some taken => exact afterRefusal_drop poolOf ptrs sent.toNat taken
  | case2 call ptrs to_send sent progress handed finished =>
      have within : sent ≤ to_send := driver.accepts_prefix call to_send
      have whole : sent = to_send := by
        have narrowed := UInt16.le_iff_toNat_le.mp within
        rw [UInt16.lt_iff_toNat_lt, UInt16.toNat_sub_of_le _ _ within] at finished
        exact UInt16.toNat_inj.mp (by simp only [UInt16.toNat_zero] at finished; omega)
      rw [takenBeforeRefusal, dif_pos progress, if_neg finished]
      change Transmitted.mk (ptrs.take sent.toNat) [] false = _
      rw [whole]
  | case3 call ptrs to_send sent refused puts freed =>
      rw [takenBeforeRefusal, dif_neg refused]
      simp [afterRefusal, freed]
  | case4 call ptrs to_send sent refused panic failed =>
      rw [takenBeforeRefusal, dif_neg refused]
      simp [afterRefusal, failed]

theorem taken_lt (driver : Driver) (call : Nat) (count : UInt16) (taken : Nat)
    (refused : takenBeforeRefusal driver call count = some taken) :
    taken < count.toNat ∨ taken = 0 := by
  fun_induction takenBeforeRefusal driver call count generalizing taken with
  | case1 call count sent progress more ih =>
      obtain ⟨later, refusedLater, rfl⟩ := Option.map_eq_some_iff.mp refused
      have within : sent ≤ count := driver.accepts_prefix call count
      have remaining := UInt16.lt_iff_toNat_lt.mp more
      have step := ih later refusedLater
      rw [UInt16.toNat_sub_of_le _ _ within] at step remaining
      simp only [UInt16.toNat_zero] at remaining
      omega
  | case2 call count sent progress finished => simp at refused
  | case3 call count sent refusal =>
      cases refused
      exact Or.inr rfl

theorem nothing_offered (driver : Driver) (call : Nat) :
    takenBeforeRefusal driver call 0 = some 0 := by
  have bounded := driver.accepts_prefix call 0
  have nothing : ¬ 0 < driver.txBurst call 0 := UInt16.not_lt.mpr bounded
  rw [takenBeforeRefusal, dif_neg nothing]

theorem taken_lt_length (driver : Driver) (packets : List Ptr) (some_packet : packets ≠ [])
    (taken : Nat)
    (refused : takenBeforeRefusal driver 0 (UInt16.ofNat packets.length) = some taken) :
    taken < packets.length := by
  have positive := List.length_pos_iff.mpr some_packet
  have narrowed := narrowed_le packets
  rcases taken_lt driver 0 _ taken refused with less | rfl
  · omega
  · exact positive

/-- What the puts of these runs give back: each count is taken modulo 2^32. -/
def givenBack (groups : List (List Ptr)) : List Ptr :=
  groups.flatMap fun group => group.take (group.length % 2 ^ 32)

theorem givenBack_length_le (groups : List (List Ptr)) :
    (givenBack groups).length ≤ groups.flatten.length := by
  induction groups with
  | nil => exact Nat.le_refl 0
  | cons group rest ih =>
      have shorter := List.length_take_le' (group.length % 2 ^ 32) group
      simp only [givenBack, List.flatMap_cons, List.flatten_cons, List.length_append] at ih ⊢
      omega

theorem givenBack_length_iff (groups : List (List Ptr)) :
    (givenBack groups).length = groups.flatten.length ↔
      ∀ group ∈ groups, group.length < 2 ^ 32 := by
  induction groups with
  | nil => simp [givenBack]
  | cons group rest ih =>
      have tail := givenBack_length_le rest
      have head : (group.take (group.length % 2 ^ 32)).length = group.length % 2 ^ 32 :=
        List.length_take_of_le (Nat.mod_le _ _)
      have unwrapped : group.length % 2 ^ 32 = group.length ↔ group.length < 2 ^ 32 := by omega
      simp only [givenBack, List.flatMap_cons, List.flatten_cons, List.length_append, head,
        List.forall_mem_cons, ← ih, ← unwrapped] at tail ⊢
      omega

theorem givenBack_all (groups : List (List Ptr))
    (short : ∀ group ∈ groups, group.length < 2 ^ 32) : givenBack groups = groups.flatten := by
  have same : (groups.map fun group => group.take (group.length % 2 ^ 32)) = groups := by
    refine (List.map_congr_left fun group member => ?_).trans (List.map_id groups)
    rw [Nat.mod_eq_of_lt (short group member), List.take_length]
    rfl
  rw [givenBack, List.flatMap_def, same]

theorem afterRefusal_freed (poolOf : Ptr → Pool) (packets : List Ptr) (taken : Nat)
    (left : taken < packets.length) :
    (afterRefusal poolOf packets taken).panicked = false ∧
      (afterRefusal poolOf packets taken).handed = packets.take taken ∧
      (afterRefusal poolOf packets taken).freed =
        givenBack (freeRuns poolOf (packets.drop taken)) := by
  have some_packet : packets.drop taken ≠ [] := by
    simpa [List.drop_eq_nil_iff] using left
  obtain ⟨puts, freed, objs⟩ := mbufFreeBulk_freed poolOf (packets.drop taken) some_packet
  simp only [afterRefusal, freed, true_and]
  rw [Transmitted.freed, List.flatMap_def, objs, givenBack, List.flatMap_def]

/-- `transmit` accounts for every packet exactly when there is one, the driver
refuses before it has taken a narrowed offer whole, unless the offer was not
narrowed at all, and no run given back at once is too long for a `u32`. -/
theorem conserves_iff (driver : Driver) (poolOf : Ptr → Pool) (packets : List Ptr) :
    Conserves driver poolOf packets ↔ Accountable driver poolOf packets := by
  unfold Conserves Accountable transmit
  rw [transmitLoop_spec]
  by_cases none_given : packets = []
  · subst none_given
    simp [nothing_offered, afterRefusal, mbufFreeBulk]
  cases refused : takenBeforeRefusal driver 0 (UInt16.ofNat packets.length) with
  | none =>
      have narrowed : (UInt16.ofNat packets.length).toNat = packets.length % 2 ^ 16 := by simp
      simp only [Transmitted.freed, List.flatMap_nil, List.append_nil, none_given, ne_eq,
        not_false_eq_true, true_and, List.take_prefix, narrowed]
      constructor
      · intro permuted
        have counts := permuted.length_eq
        rw [List.length_take_of_le (Nat.mod_le _ _)] at counts
        omega
      · intro short
        rw [Nat.mod_eq_of_lt short, List.take_length]
  | some taken =>
      have left := taken_lt_length driver packets none_given taken refused
      obtain ⟨survives, handed, freed⟩ := afterRefusal_freed poolOf packets taken left
      have runs := freeRuns_flatten poolOf (packets.drop taken)
      simp only [survives, handed, freed, none_given, ne_eq, not_false_eq_true, true_and,
        List.take_prefix]
      constructor
      · intro permuted
        have counts := permuted.length_eq
        refine (givenBack_length_iff _).mp ?_
        rw [List.length_append, List.length_take_of_le (Nat.le_of_lt left)] at counts
        rw [runs, List.length_drop]
        omega
      · intro short
        rw [givenBack_all _ short, runs, List.take_append_drop]

/-- A driver that takes whatever it is offered. -/
def eagerDriver : Driver :=
  { txBurst := fun _ to_send => to_send, accepts_prefix := fun _ _ => UInt16.le_refl _ }

theorem empty_vector_panics :
    ¬ ∀ (driver : Driver) (packets : List Unit),
      Conserves driver (fun _ => ()) packets := by
  intro claimed
  have survives := (claimed eagerDriver []).1
  rw [transmit, transmitLoop] at survives
  simp [eagerDriver, mbufFreeBulk] at survives

end L2Switch.PortTransmit
