import L2Switch.RoutingTable
import L2Switch.RwLocks

/-!
The five operations of net/routing_table.rs as programs over their two sharded
locks, in continuation style: an operation takes what follows it as a function
of its result. `add` asks for `mac_table` a second time, to read, while it still
holds it for writing. Poisoning is left out, as no thread modelled here panics
inside a guard.
-/
namespace L2Switch.RoutingLocks
open Histories RwLocks RoutingTable

inductive TableLock where
  | mac_table
  | ip_table
  deriving DecidableEq

abbrev TableProg := Prog TableLock Tables

/-- One read guard, taken for the length of a single lookup. -/
def readTable {Answer : Type} (lock : TableLock) (lookup : Tables → Answer)
    (next : Answer → TableProg) : TableProg :=
  .readLock lock <| .look fun tables => .readUnlock lock (next (lookup tables))

def containsMac (mac : MacAddr) (next : Bool → TableProg) : TableProg :=
  readTable .mac_table (·.containsMac mac) next

def containsIp (ip : Ipv4Addr) (next : Bool → TableProg) : TableProg :=
  readTable .ip_table (·.containsIp ip) next

def getMac (ip : Ipv4Addr) (next : Option MacAddr → TableProg) : TableProg :=
  readTable .ip_table (·.getMac ip) next

def getIp (mac : MacAddr) (next : Option Ipv4Addr → TableProg) : TableProg :=
  readTable .mac_table (·.getIp mac) next

/-- The body of `add`, inside both of its write guards. -/
def addGuarded (mac : MacAddr) (ip : Ipv4Addr) (next : TableProg) : TableProg :=
  let leave := Prog.writeUnlock .ip_table (.writeUnlock .mac_table next)
  let insert := Prog.update (·.insertBoth mac ip) leave
  -- `||` does not look at the second table when the first test settles it
  containsMac mac fun knownMac =>
    if !knownMac then insert else
      containsIp ip fun knownIp => if !knownIp then insert else leave

def add (mac : MacAddr) (ip : Ipv4Addr) (next : TableProg) : TableProg :=
  .writeLock .mac_table <| .writeLock .ip_table <| addGuarded mac ip next

inductive Op where
  | add (mac : MacAddr) (ip : Ipv4Addr)
  | contains_mac (mac : MacAddr)
  | contains_ip (ip : Ipv4Addr)
  | get_mac (ip : Ipv4Addr)
  | get_ip (mac : MacAddr)

def Op.isAdd : Op → Bool
  | .add _ _ => true
  | _ => false

def Op.prog (op : Op) (next : TableProg) : TableProg :=
  match op with
  | .add mac ip => RoutingLocks.add mac ip next
  | .contains_mac mac => containsMac mac fun _ => next
  | .contains_ip ip => containsIp ip fun _ => next
  | .get_mac ip => getMac ip fun _ => next
  | .get_ip mac => getIp mac fun _ => next

def threadProg : List Op → TableProg
  | [] => .done
  | op :: rest => op.prog (threadProg rest)

/-- Left to itself, `add` makes the update that `Tables.add` states. -/
theorem add_effect (mac : MacAddr) (ip : Ipv4Addr) (next : TableProg) (tables : Tables) :
    (add mac ip next).effect tables = next.effect (tables.add mac ip) := by
  cases knownMac : tables.containsMac mac <;> cases knownIp : tables.containsIp ip <;>
    simp [add, addGuarded, containsMac, containsIp, readTable, Prog.effect, Tables.add, knownMac, knownIp]

/-- A call of `add` on a thread that runs alone, nobody holding a lock: the tables it
leaves or the lock it waits for. -/
def addAlone (mac : MacAddr) (ip : Ipv4Addr) (tables : Tables) : Except TableLock Tables :=
  (add mac ip .done).alone () (initial tables fun _ => add mac ip .done)

/-- Whatever comes after it, `add` waits for the lock that its own thread holds. -/
theorem add_waits {Thread : Type} [DecidableEq Thread] (thread : Thread)
    (state : State Thread TableLock Tables) (mac : MacAddr) (ip : Ipv4Addr) (next : TableProg)
    (unheld : ∀ lock, state.writer lock = none) (unread : ∀ lock, state.readers lock = []) :
    (add mac ip next).alone thread state = .error .mac_table := by
  simp [add, addGuarded, containsMac, readTable, Prog.alone, State.proceed, Function.update, unheld,
    unread]

theorem addAlone_waits (mac : MacAddr) (ip : Ipv4Addr) (tables : Tables) :
    addAlone mac ip tables = .error .mac_table :=
  add_waits () _ mac ip .done (fun _ => rfl) fun _ => rfl

/-- The wait is one of the lock machine: the call's own steps end in front of the lock. -/
theorem addAlone_stuck (mac : MacAddr) (ip : Ipv4Addr) (tables : Tables) :
    ∃ moves reached,
      run step (initial tables fun _ : Unit => add mac ip .done) (List.replicate moves ()) =
        some reached ∧ Stuck reached := by
  obtain ⟨moves, reached, executed, comes⟩ :=
    alone_run () (add mac ip .done) (initial tables fun _ : Unit => add mac ip .done) rfl
  have waits : ComesTo () reached (addAlone mac ip tables) := comes
  rw [addAlone_waits] at waits
  refine ⟨moves, reached, executed, ⟨(), fun finished => ?_⟩, fun _ => waits.2⟩
  have asks := waits.1
  rw [finished] at asks
  exact asks

theorem thread_read_only (ops : List Op) (reads : ∀ op ∈ ops, op.isAdd = false) :
    (threadProg ops).ReadOnly := by
  induction ops with
  | nil => trivial
  | cons op rest ih =>
      have tail := ih fun later member => reads later (List.mem_cons_of_mem op member)
      have head := reads op List.mem_cons_self
      cases op with
      | add mac ip => simp [Op.isAdd] at head
      | contains_mac mac => exact fun _ => tail
      | contains_ip ip => exact fun _ => tail
      | get_mac ip => exact fun _ => tail
      | get_ip mac => exact fun _ => tail

/-- Every operation begins by asking for one of the two locks. -/
theorem op_asks (op : Op) (next : TableProg) : ∃ lock, (op.prog next).Asks lock := by
  cases op with
  | add mac ip => exact ⟨.mac_table, rfl⟩
  | contains_mac mac => exact ⟨.mac_table, rfl⟩
  | contains_ip ip => exact ⟨.ip_table, rfl⟩
  | get_mac ip => exact ⟨.ip_table, rfl⟩
  | get_ip mac => exact ⟨.mac_table, rfl⟩

theorem thread_waits (ops : List Op) :
    threadProg ops = .done ∨ ∃ lock, (threadProg ops).Asks lock := by
  cases ops with
  | nil => exact Or.inl rfl
  | cons op rest => exact Or.inr (op_asks op (threadProg rest))

section Threads
variable {Thread : Type} [DecidableEq Thread]

def start (tables : Tables) (ops : Thread → List Op) : State Thread TableLock Tables :=
  initial tables fun thread => threadProg (ops thread)

theorem solo_read (tables : Tables) (ops : Thread → List Op) (thread : Thread) (op : Op)
    (rest : List Op) (reads : op.isAdd = false) (mine : ops thread = op :: rest) :
    run step (start tables ops) [thread, thread, thread] =
      some (start tables (Function.update ops thread rest)) := by
  have programs : (start tables ops).proceed thread (threadProg rest) =
      start tables (Function.update ops thread rest) := by
    simp only [State.proceed, start, initial]
    congr
    funext other
    by_cases same : other = thread <;> simp [Function.update, same]
  rw [← programs]
  have running : (start tables ops).prog thread = op.prog (threadProg rest) := by
    simp [start, initial, mine, threadProg]
  cases op with
  | add mac ip => simp [Op.isAdd] at reads
  | contains_mac mac =>
      exact solo_read_section (start tables ops) thread _ (fun _ => threadProg rest) rfl running
  | contains_ip ip =>
      exact solo_read_section (start tables ops) thread _ (fun _ => threadProg rest) rfl running
  | get_mac ip =>
      exact solo_read_section (start tables ops) thread _ (fun _ => threadProg rest) rfl running
  | get_ip mac =>
      exact solo_read_section (start tables ops) thread _ (fun _ => threadProg rest) rfl running

/-- The state in which `thread` has taken both write locks of its `add` and goes
on to the membership test of `contains_mac`. -/
def holdingBoth (tables : Tables) (ops : Thread → List Op) (thread : Thread)
    (next : TableProg) : State Thread TableLock Tables :=
  { (start tables ops).proceed thread next with writer := fun _ => some thread }

theorem add_takes_both (tables : Tables) (ops : Thread → List Op) (thread : Thread)
    (mac : MacAddr) (ip : Ipv4Addr) (rest : List Op) (mine : ops thread = .add mac ip :: rest) :
    run step (start tables ops) [thread, thread] =
      some (holdingBoth tables ops thread (addGuarded mac ip (threadProg rest))) := by
  have running : (start tables ops).prog thread = add mac ip (threadProg rest) := by
    simp [start, initial, mine, threadProg, Op.prog]
  have taken : Function.update (Function.update (start tables ops).writer .mac_table (some thread))
      .ip_table (some thread) = fun _ => some thread := by
    funext lock
    cases lock <;> simp [Function.update]
  let between : State Thread TableLock Tables :=
    { (start tables ops).proceed thread (.writeLock .ip_table (addGuarded mac ip (threadProg rest)))
        with writer := Function.update (start tables ops).writer .mac_table (some thread) }
  have first : run step (start tables ops) [thread] = some between :=
    solo_write_lock (start tables ops) thread .mac_table _ rfl rfl running
  have second := solo_write_lock between thread .ip_table (addGuarded mac ip (threadProg rest))
    (by simp [between, start, initial]) rfl (by simp [between, State.proceed])
  rw [show [thread, thread] = [thread] ++ [thread] from rfl, run_append, first, Option.bind_some,
    second]
  simp only [between, State.proceed, Function.update_idem, taken, holdingBoth]

theorem holding_both_stuck (tables : Tables) (ops : Thread → List Op) (thread : Thread)
    (next : TableProg) (asks : next.Asks .mac_table) :
    Stuck (holdingBoth tables ops thread next) := by
  have mine : (holdingBoth tables ops thread next).prog thread = next := by
    simp [holdingBoth, State.proceed]
  apply stuck_of_asking
  · refine ⟨thread, ?_⟩
    rw [mine]
    rintro rfl
    exact asks
  · intro other
    by_cases same : other = thread
    · subst same
      -- the writer and the one who asks to read are the same thread
      exact Or.inr ⟨.mac_table, other, by rwa [mine], rfl⟩
    · have theirs : (holdingBoth tables ops thread next).prog other = threadProg (ops other) := by
        simp [holdingBoth, State.proceed, start, initial, same]
      rw [theirs]
      rcases thread_waits (ops other) with finished | ⟨lock, wants⟩
      · exact Or.inl finished
      · exact Or.inr ⟨lock, thread, wants, rfl⟩

/-- A thread scheduled alone up to its first `add` blocks on the lock it holds,
and with both write locks taken nobody else can begin an operation. -/
theorem add_gets_stuck (tables : Tables) (thread : Thread) (mine : List Op)
    (adds : ∃ op ∈ mine, op.isAdd = true) (ops : Thread → List Op) (same : ops thread = mine) :
    ∃ schedule reached,
      run step (start tables ops) schedule = some reached ∧ Stuck reached := by
  induction mine generalizing ops with
  | nil => simp at adds
  | cons op rest ih =>
      cases kind : op.isAdd with
      | true =>
          cases op with
          | add mac ip =>
              exact ⟨_, _, add_takes_both tables ops thread mac ip rest same,
                holding_both_stuck tables ops thread _ rfl⟩
          | _ => simp [Op.isAdd] at kind
      | false =>
          have later : ∃ op ∈ rest, op.isAdd = true := by simpa [kind] using adds
          obtain ⟨schedule, reached, executed, stuck⟩ :=
            ih later (Function.update ops thread rest) (by simp)
          refine ⟨[thread, thread, thread] ++ schedule, reached, ?_, stuck⟩
          rw [run_append, solo_read tables ops thread op rest kind same]
          exact executed

/-- However many threads there are, their lookups never lock up, and one `add`
among their operations is enough for a schedule that does. -/
theorem never_stuck_iff (tables : Tables) (ops : Thread → List Op) :
    NeverStuck (start tables ops) ↔ ∀ thread, ∀ op ∈ ops thread, op.isAdd = false := by
  constructor
  · intro progress thread op member
    by_contra adds
    obtain ⟨schedule, reached, executed, stuck⟩ := add_gets_stuck tables thread (ops thread)
      ⟨op, member, by simpa using adds⟩ ops rfl
    exact progress schedule reached executed stuck
  · intro reads
    exact readers_never_stuck _
      ⟨fun _ => rfl, fun thread => thread_read_only (ops thread) (reads thread)⟩

end Threads

/-- One thread and one `add` on empty tables already lock up. -/
theorem lone_add_locks_up :
    ¬ ∀ ops : Unit → List Op, NeverStuck (start Tables.empty ops) := by
  intro claimed
  obtain ⟨schedule, reached, executed, stuck⟩ :=
    add_gets_stuck Tables.empty () [.add firstHost (.new 10 0 0 1)]
      ⟨_, List.mem_cons_self, rfl⟩ (fun _ => [.add firstHost (.new 10 0 0 1)]) rfl
  exact claimed _ schedule reached executed stuck

end L2Switch.RoutingLocks
