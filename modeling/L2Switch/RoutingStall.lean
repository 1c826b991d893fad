import L2Switch.RoutingLocks

/-!
What becomes of the forwarding table when threads call its operations with the locks as
they are. The thread that is the first into an `add` asks to read `mac_table` while it
holds it for writing, and nothing on its way there gives a write lock back.
-/
namespace L2Switch.RoutingStall
open Histories RwLocks RoutingTable RoutingLocks

section Threads
variable {Thread : Type}

/-- What a thread has left of its operations, the ones behind it being lookups. -/
def Left (ops rest : List Op) : Prop :=
  ∃ before, ops = before ++ rest ∧ ∀ op ∈ before, op.isAdd = false

/-- Where a thread can stand: between two operations, in a lookup, or in its first `add`,
before or after it has both write locks. -/
inductive Stands (ops : List Op) (holding : Prop) : TableProg → Prop where
  | between (rest : List Op) (left : Left ops rest) : Stands ops holding (threadProg rest)
  | looking (rest : List Op) (left : Left ops rest) (lock : TableLock) :
      Stands ops holding (.look fun _ => .readUnlock lock (threadProg rest))
  | leaving (rest : List Op) (left : Left ops rest) (lock : TableLock) :
      Stands ops holding (.readUnlock lock (threadProg rest))
  | halfway (mac : MacAddr) (ip : Ipv4Addr) (rest : List Op) (left : Left ops (.add mac ip :: rest))
      (holds : holding) :
      Stands ops holding (.writeLock .ip_table (addGuarded mac ip (threadProg rest)))
  | inside (mac : MacAddr) (ip : Ipv4Addr) (rest : List Op) (left : Left ops (.add mac ip :: rest))
      (holds : holding) : Stands ops holding (addGuarded mac ip (threadProg rest))

/-- Every thread stands somewhere before the end of its first `add`. -/
structure Standing (tables : Tables) (ops : Thread → List Op)
    (state : State Thread TableLock Tables) : Prop where
  unchanged : state.store = tables
  stands : ∀ thread,
    Stands (ops thread) (state.writer .mac_table = some thread) (state.prog thread)

theorem start_standing (tables : Tables) (ops : Thread → List Op) :
    Standing tables ops (start tables ops) :=
  { unchanged := rfl
    stands := fun thread => .between (ops thread) ⟨[], rfl, nofun⟩ }

theorem left_tail (ops rest : List Op) (op : Op) (left : Left ops (op :: rest))
    (reads : op.isAdd = false) : Left ops rest := by
  obtain ⟨before, rfl, lookups⟩ := left
  refine ⟨before ++ [op], by simp, fun other member => ?_⟩
  rcases List.mem_append.mp member with earlier | last
  · exact lookups other earlier
  · rw [List.mem_singleton.mp last]
    exact reads

theorem stands_mono (ops : List Op) (holding later : Prop) (prog : TableProg)
    (keeps : holding → later) (stands : Stands ops holding prog) : Stands ops later prog := by
  cases stands with
  | between rest left => exact .between rest left
  | looking rest left lock => exact .looking rest left lock
  | leaving rest left lock => exact .leaving rest left lock
  | halfway mac ip rest left holds => exact .halfway mac ip rest left (keeps holds)
  | inside mac ip rest left holds => exact .inside mac ip rest left (keeps holds)

/-- A lookup takes one read guard; here its answer is not used. -/
theorem lookup_prog (op : Op) (next : TableProg) (reads : op.isAdd = false) :
    ∃ lock, op.prog next = .readLock lock (.look fun _ => .readUnlock lock next) := by
  cases op with
  | add mac ip => cases reads
  | contains_mac mac => exact ⟨.mac_table, rfl⟩
  | contains_ip ip => exact ⟨.ip_table, rfl⟩
  | get_mac ip => exact ⟨.ip_table, rfl⟩
  | get_ip mac => exact ⟨.mac_table, rfl⟩

variable [DecidableEq Thread]

/-- No `add` has written anything, nobody with an `add` to make is done, and a write lock on
`mac_table` stays with the thread that took it. -/
structure Stalled (tables : Tables) (ops : Thread → List Op)
    (state : State Thread TableLock Tables) : Prop where
  unchanged : state.store = tables
  unfinished : ∀ thread, (∃ op ∈ ops thread, op.isAdd = true) → state.prog thread ≠ .done
  kept : ∀ schedule reached holder, state.writer .mac_table = some holder →
    run step state schedule = some reached → reached.writer .mac_table = some holder

/-- What a step does to the tables, to the lock on `mac_table` and to the threads. -/
structure Stays (state next : State Thread TableLock Tables) (thread : Thread) (ops : List Op) :
    Prop where
  store : next.store = state.store
  kept : ∀ holder, state.writer .mac_table = some holder → next.writer .mac_table = some holder
  others : ∀ other, other ≠ thread → next.prog other = state.prog other
  stands : Stands ops (next.writer .mac_table = some thread) (next.prog thread)

theorem step_stays (state next : State Thread TableLock Tables) (thread : Thread) (ops : List Op)
    (stands : Stands ops (state.writer .mac_table = some thread) (state.prog thread))
    (stepped : step state thread = some next) : Stays state next thread ops := by
  generalize running : state.prog thread = prog at stands
  have elsewhere : ∀ later other, other ≠ thread →
      (state.proceed thread later).prog other = state.prog other :=
    fun later other different => by simp [State.proceed, different]
  have here : ∀ later, (state.proceed thread later).prog thread = later :=
    fun later => by simp [State.proceed]
  cases stands with
  | between rest left =>
      cases rest with
      | nil => simp [step, running, threadProg] at stepped
      | cons op rest =>
          cases reads : op.isAdd with
          | true =>
              cases op with
              | add mac ip =>
                  simp only [step, running, threadProg, Op.prog, RoutingLocks.add,
                    Option.ite_none_left_eq_some, Option.some.injEq] at stepped
                  obtain ⟨free, rfl⟩ := stepped
                  refine { store := rfl, kept := fun holder held => ?_, others := elsewhere _,
                           stands := ?_ }
                  · simp [held] at free
                  · rw [here]
                    exact .halfway mac ip rest left (by simp)
              | _ => cases reads
          | false =>
              obtain ⟨lock, looks⟩ := lookup_prog op (threadProg rest) reads
              simp only [step, running, threadProg, looks, Option.ite_none_left_eq_some,
                Option.some.injEq] at stepped
              obtain ⟨_, rfl⟩ := stepped
              refine { store := rfl, kept := fun _ held => held, others := elsewhere _, stands := ?_ }
              rw [here]
              exact .looking rest (left_tail ops rest op left reads) lock
  | looking rest left lock =>
      simp only [step, running, Option.some.injEq] at stepped
      subst stepped
      refine { store := rfl, kept := fun _ held => held, others := elsewhere _, stands := ?_ }
      rw [here]
      exact .leaving rest left lock
  | leaving rest left lock =>
      simp only [step, running, Option.some.injEq] at stepped
      subst stepped
      refine { store := rfl, kept := fun _ held => held, others := elsewhere _, stands := ?_ }
      rw [here]
      exact .between rest left
  | halfway mac ip rest left holds =>
      simp only [step, running, Option.ite_none_left_eq_some, Option.some.injEq] at stepped
      obtain ⟨_, rfl⟩ := stepped
      refine { store := rfl, kept := fun holder held => ?_, others := elsewhere _, stands := ?_ }
      · simpa using held
      · rw [here]
        -- `mac_table` is still its own while it has `ip_table` as well
        exact .inside mac ip rest left (by simpa using holds)
  | inside mac ip rest left holds =>
      -- it asks to read the table it holds for writing: there is no such step
      simp [step, running, addGuarded, containsMac, readTable, holds] at stepped

theorem step_standing (tables : Tables) (ops : Thread → List Op)
    (state : State Thread TableLock Tables) (thread : Thread) (next : State Thread TableLock Tables)
    (before : Standing tables ops state) (stepped : step state thread = some next) :
    Standing tables ops next := by
  have stays := step_stays state next thread (ops thread) (before.stands thread) stepped
  refine { unchanged := stays.store.trans before.unchanged, stands := fun other => ?_ }
  by_cases same : other = thread
  · subst same
    exact stays.stands
  · rw [stays.others other same]
    exact stands_mono _ _ _ _ (stays.kept other) (before.stands other)

theorem run_kept (tables : Tables) (ops : Thread → List Op)
    (state reached : State Thread TableLock Tables) (schedule : List Thread) (holder : Thread)
    (before : Standing tables ops state) (held : state.writer .mac_table = some holder)
    (executed : run step state schedule = some reached) :
    reached.writer .mac_table = some holder := by
  have both := run_invariant step
    (fun state => Standing tables ops state ∧ state.writer .mac_table = some holder)
    (fun state thread next inv stepped =>
      ⟨step_standing tables ops state thread next inv.1 stepped,
        (step_stays state next thread (ops thread) (inv.1.stands thread) stepped).kept holder inv.2⟩)
    state reached schedule ⟨before, held⟩ executed
  exact both.2

/-- Whoever is done had no `add` to make. -/
theorem stands_done (ops : List Op) (holding : Prop) (stands : Stands ops holding .done) :
    ∀ op ∈ ops, op.isAdd = false := by
  generalize finished : (Prog.done : TableProg) = prog at stands
  cases stands with
  | between rest left =>
      obtain ⟨before, rfl, lookups⟩ := left
      cases rest with
      | nil => simpa using lookups
      | cons op rest =>
          obtain ⟨lock, asks⟩ := op_asks op (threadProg rest)
          rw [threadProg] at finished
          rw [← finished] at asks
          exact asks.elim
  | looking | leaving | halfway | inside => cases finished

theorem standing_stalled (tables : Tables) (ops : Thread → List Op)
    (state : State Thread TableLock Tables) (standing : Standing tables ops state) :
    Stalled tables ops state := by
  refine { unchanged := standing.unchanged, unfinished := ?_, kept := ?_ }
  · rintro thread ⟨op, member, adds⟩ finished
    have stands := standing.stands thread
    rw [finished] at stands
    rw [stands_done _ _ stands op member] at adds
    cases adds
  · intro schedule reached holder held executed
    exact run_kept tables ops state reached schedule holder standing held executed

/-- Under every schedule of any number of threads, the forwarding table stays as it was, no
`add` is ever completed, and once one has `mac_table` for writing it keeps it. -/
theorem stalled_along (tables : Tables) (ops : Thread → List Op) (schedule : List Thread) :
    Always step (Stalled tables ops) (start tables ops) schedule :=
  always_of_invariant step (Standing tables ops) (Stalled tables ops)
    (step_standing tables ops) (standing_stalled tables ops) _ schedule (start_standing tables ops)

end Threads

end L2Switch.RoutingStall
