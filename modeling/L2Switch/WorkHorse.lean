import L2Switch.EngineMessages
import L2Switch.ReceiveLoop

/-!
`Engine::work_horse` of runtime/engine.rs: three tasks on one thread. The executor
polls one task at a time, in any order, and a task holds the thread until it
suspends or ends; the controller's sender lives on another thread and may act at
any moment. `process_packets` works a batch off before it looks at the queue again, and a
batch that it cannot work off is the last thing the thread does. PORTMAP and
FORWARDING_TABLE are empty at first and nobody else uses them.
-/
namespace L2Switch.WorkHorse
open Histories PacketHeaders ProcessPackets ReceiveLoop EngineRegistry EngineMessages

inductive TaskName where
  | rxMain
  | processPackets
  | checkNSet
  deriving DecidableEq

/-- `checkNSet` suspends once, in its sleep. -/
inductive TimedPoint where
  | created
  | sleeping
  | completed
  deriving DecidableEq

/-- `processed` lists the batches whose packets have all been worked off, and `stopped`
holds the one in which the thread was stopped. -/
structure Horse where
  running : Option TaskName
  rx : Receiving
  process_completed : Bool
  check : TimedPoint
  processed : List PortIdMbuf
  stopped : Option (PortIdMbuf × Ending)
  statics : Statics
  engine : Engine

def Horse.start (sender : Sender) (mbufs : BoundedFifo PortIdMbuf) (engine : Engine) : Horse :=
  { running := none, rx := .start sender mbufs, process_completed := false, check := .created
    processed := [], stopped := none, statics := freshStatics, engine }

/-- `rx` carries what the port at hand receives; `wake` whether the timer has fired and
how handling a message turns out. -/
inductive HorseAct where
  | poll (task : TaskName)
  | rx (recvd : List RteMbuf)
  | process
  | check (fired : Bool) (outcome : Outcome)
  | controllerSends
  | controllerDrops

def Horse.Pollable (horse : Horse) : TaskName → Bool
  | .rxMain => horse.rx.point ≠ .returned
  | .processPackets => !horse.process_completed
  | .checkNSet => horse.check ≠ .completed

def Horse.rxReturned (horse : Horse) : Prop := horse.rx.point = .returned

/-- A null pointer that was followed is the end of the process, not of one thread. -/
def Horse.crashed (horse : Horse) : Bool :=
  match horse.stopped with
  | some (_, .fault _) => true
  | _ => false

/-- Working off the batch that was popped, `mbufs` being the rest of the queue. -/
def Horse.work (callees : Callees) (horse : Horse) (elem : PortIdMbuf)
    (mbufs : BoundedFifo PortIdMbuf) : Horse :=
  let pass := processElem callees elem horse.statics
  let rx := { horse.rx with mbufs }
  match pass.ending with
  | none => { horse with rx, processed := horse.processed ++ [elem], statics := pass.statics }
  -- the task keeps the thread: it neither suspends nor returns
  | some ending => { horse with rx, stopped := some (elem, ending), statics := pass.statics }

def Horse.control (horse : Horse) (sender : Sender) : Option Horse :=
  if horse.rx.sender = .silent ∧ !horse.crashed then
    some { horse with rx := { horse.rx with sender } }
  else none

def horseStep (callees : Callees) (ports : List UInt16) (horse : Horse) :
    HorseAct → Option Horse
  | .poll task =>
      if horse.running = none ∧ horse.Pollable task then some { horse with running := some task }
      else none
  | .rx recvd =>
      if horse.running = some .rxMain then
        (rxStep ports horse.rx recvd).map fun rx =>
          { horse with rx, running := if rx.point = .returned then none else some .rxMain }
      else none
  | .process =>
      if horse.running = some .processPackets ∧ horse.stopped = none then
        -- `is_empty` and `pop` agree, as nobody else pops in between
        match horse.rx.mbufs.pop with
        | some (elem, mbufs) => some (horse.work callees elem mbufs)
        | none => some { horse with running := none, process_completed := true }
      else none
  | .check fired outcome =>
      if horse.running = some .checkNSet then
        match horse.check, fired with
        | .sleeping, true =>
            some { horse with
              running := none, check := .completed
              engine := (checkNSetClientStatus horse.engine outcome).engine }
        -- the first poll only starts the timer
        | _, _ => some { horse with running := none, check := .sleeping }
      else none
  | .controllerSends => horse.control .sent
  | .controllerDrops => horse.control .gone

/-- All an enabled action can do. -/
inductive Moved (callees : Callees) (ports : List UInt16) (horse : Horse) :
    HorseAct → Horse → Prop where
  | polled (task : TaskName) (idle : horse.running = none) (pollable : horse.Pollable task) :
      Moved callees ports horse (.poll task) { horse with running := some task }
  | rx (recvd : List RteMbuf) (rx : Receiving) (mine : horse.running = some .rxMain)
      (moved : rxStep ports horse.rx recvd = some rx) :
      Moved callees ports horse (.rx recvd)
        { horse with rx, running := if rx.point = .returned then none else some .rxMain }
  | emptied (mine : horse.running = some .processPackets) (goes : horse.stopped = none)
      (empty : horse.rx.mbufs.items = []) :
      Moved callees ports horse .process
        { horse with running := none, process_completed := true }
  | worked (elem : PortIdMbuf) (mbufs : BoundedFifo PortIdMbuf)
      (mine : horse.running = some .processPackets) (goes : horse.stopped = none)
      (items : horse.rx.mbufs.items = elem :: mbufs.items) :
      Moved callees ports horse .process (horse.work callees elem mbufs)
  | checked (outcome : Outcome) (mine : horse.running = some .checkNSet)
      (sleeping : horse.check = .sleeping) :
      Moved callees ports horse (.check true outcome)
        { horse with
          running := none, check := .completed
          engine := (checkNSetClientStatus horse.engine outcome).engine }
  | slept (fired : Bool) (outcome : Outcome) (mine : horse.running = some .checkNSet)
      (early : ¬ (horse.check = .sleeping ∧ fired = true)) :
      Moved callees ports horse (.check fired outcome)
        { horse with running := none, check := .sleeping }
  | controlled (act : HorseAct) (sender : Sender) (outside : act = .controllerSends ∨
      act = .controllerDrops) (silent : horse.rx.sender = .silent) :
      Moved callees ports horse act { horse with rx := { horse.rx with sender } }

section Steps
variable (callees : Callees) (ports : List UInt16)

theorem control_moved (horse next : Horse) (act : HorseAct) (sender : Sender)
    (outside : act = .controllerSends ∨ act = .controllerDrops)
    (stepped : horse.control sender = some next) : Moved callees ports horse act next := by
  simp only [Horse.control, Option.ite_none_right_eq_some, Option.some.injEq] at stepped
  obtain ⟨⟨silent, _⟩, rfl⟩ := stepped
  exact .controlled act sender outside silent

theorem process_moved (horse next : Horse)
    (stepped : horseStep callees ports horse .process = some next) :
    Moved callees ports horse .process next := by
  simp only [horseStep, Option.ite_none_right_eq_some] at stepped
  obtain ⟨⟨mine, goes⟩, stepped⟩ := stepped
  cases taken : horse.rx.mbufs.pop with
  | none =>
      simp only [taken, Option.some.injEq] at stepped
      subst stepped
      exact .emptied mine goes ((BoundedFifo.pop_none_iff _).mp taken)
  | some head =>
      obtain ⟨elem, mbufs⟩ := head
      simp only [taken, Option.some.injEq] at stepped
      subst stepped
      exact .worked elem mbufs mine goes (BoundedFifo.pop_items _ mbufs elem taken).1

theorem horseStep_moved (horse next : Horse) (act : HorseAct)
    (stepped : horseStep callees ports horse act = some next) :
    Moved callees ports horse act next := by
  cases act with
  | poll task =>
      simp only [horseStep, Option.ite_none_right_eq_some, Option.some.injEq] at stepped
      obtain ⟨⟨idle, pollable⟩, rfl⟩ := stepped
      exact .polled task idle pollable
  | rx recvd =>
      simp only [horseStep, Option.ite_none_right_eq_some] at stepped
      obtain ⟨rx, moved, rfl⟩ := Option.map_eq_some_iff.mp stepped.2
      exact .rx recvd rx stepped.1 moved
  | process => exact process_moved callees ports horse next stepped
  | check fired outcome =>
      simp only [horseStep, Option.ite_none_right_eq_some] at stepped
      obtain ⟨mine, stepped⟩ := stepped
      split at stepped
      · next sleeping =>
          cases stepped
          exact .checked outcome mine sleeping
      · next early =>
          cases stepped
          exact .slept _ outcome mine fun both => early both.1 both.2
  | controllerSends => exact control_moved callees ports horse next _ .sent (Or.inl rfl) stepped
  | controllerDrops => exact control_moved callees ports horse next _ .gone (Or.inr rfl) stepped

variable (horse : Horse) (elem : PortIdMbuf) (mbufs : BoundedFifo PortIdMbuf)

/-- Working a batch off touches no other task. -/
theorem work_frame :
    (horse.work callees elem mbufs).running = horse.running ∧
      (horse.work callees elem mbufs).rx = { horse.rx with mbufs } ∧
      (horse.work callees elem mbufs).check = horse.check ∧
      (horse.work callees elem mbufs).engine = horse.engine := by
  unfold Horse.work
  dsimp only
  split <;> exact ⟨rfl, rfl, rfl, rfl⟩

theorem work_done (done : (processElem callees elem horse.statics).ending = none) :
    horse.work callees elem mbufs =
      { horse with
        rx := { horse.rx with mbufs }, processed := horse.processed ++ [elem]
        statics := (processElem callees elem horse.statics).statics } := by
  simp only [Horse.work, done]

theorem work_stopped (ending : Ending)
    (ended : (processElem callees elem horse.statics).ending = some ending) :
    horse.work callees elem mbufs =
      { horse with
        rx := { horse.rx with mbufs }, stopped := some (elem, ending)
        statics := (processElem callees elem horse.statics).statics } := by
  simp only [Horse.work, ended]

end Steps

/-- While `rx_main` runs on, the other two tasks live, and what it pushed has been
processed or is still queued. -/
def Attended (horse : Horse) : Prop :=
  ¬ horse.rxReturned →
    (horse.process_completed = false ∧ horse.stopped = none) ∧ horse.check ≠ .completed ∧
      horse.rx.pushed = horse.processed ++ horse.rx.mbufs.items

/-- While `rx_main` has not returned, `process_packets` finds the queue not empty and no packet
in the batch it pops, and the timer of the other task has not fired when it is polled. -/
def StaysBehind (horse : Horse) : HorseAct → Prop
  | .process => horse.rxReturned ∨ ∃ elem ∈ horse.rx.mbufs.items.head?, elem.buf = []
  | .check fired _ => horse.check = .sleeping → fired = true → horse.rxReturned
  | _ => True

theorem start_attended (sender : Sender) (mbufs : BoundedFifo PortIdMbuf) (engine : Engine) :
    Attended (Horse.start sender mbufs engine) :=
  fun _ => ⟨⟨rfl, rfl⟩, nofun, rfl⟩

/-- As `add` is written, a batch is worked off exactly when it holds no packet. -/
theorem elem_done_iff (sends : RteMbuf → Bool) (elem : PortIdMbuf) (statics : Statics) :
    (processElem (.asWritten sends) elem statics).ending = none ↔ elem.buf = [] := by
  rw [processElem_eq, asWritten_ending_iff, frames_nil_iff, List.forall_mem_singleton]

section Attending
variable (sends : RteMbuf → Bool) (ports : List UInt16)

theorem horseStep_attended (horse : Horse) (act : HorseAct) (next : Horse)
    (attended : Attended horse) (behind : StaysBehind horse act)
    (stepped : horseStep (.asWritten sends) ports horse act = some next) : Attended next := by
  cases horseStep_moved _ ports horse next act stepped with
  | polled task => exact attended
  | rx recvd rx mine moved =>
      have unreturned : ¬ horse.rxReturned := by
        intro returned
        simp only [rxStep, show horse.rx.point = .returned from returned] at moved
        cases moved
      obtain ⟨live, checking, account⟩ := attended unreturned
      obtain ⟨batches, items, pushed⟩ := rxStep_account ports horse.rx rx recvd moved
      exact fun _ => ⟨live, checking, by simp only [items, pushed, account, List.append_assoc]⟩
  | emptied mine goes empty =>
      rcases behind with returned | ⟨elem, head, _⟩
      · exact fun unreturned => absurd returned unreturned
      · simp [empty] at head
  | worked elem mbufs mine goes items =>
      rcases behind with returned | ⟨head, found, no_packet⟩
      · intro unreturned
        rw [Horse.rxReturned, (work_frame _ horse elem mbufs).2.1] at unreturned
        exact absurd returned unreturned
      · obtain rfl : elem = head := by simpa [items] using found
        have done := (elem_done_iff sends elem horse.statics).mpr no_packet
        rw [work_done _ horse elem mbufs done]
        intro unreturned
        obtain ⟨live, checking, account⟩ := attended unreturned
        exact ⟨live, checking, by simp [account, items]⟩
  | checked outcome mine sleeping =>
      exact fun unreturned => absurd (behind sleeping rfl) unreturned
  | slept fired outcome => exact fun unreturned =>
      ⟨(attended unreturned).1, nofun, (attended unreturned).2.2⟩
  | controlled => exact attended

/-- A task that reaches its end, or its last packet, while `rx_main` runs on does no more. -/
theorem horseStep_spoils (horse : Horse) (act : HorseAct) (next : Horse)
    (ahead : ¬ StaysBehind horse act)
    (stepped : horseStep (.asWritten sends) ports horse act = some next) : ¬ Attended next := by
  intro attended
  cases horseStep_moved _ ports horse next act stepped with
  | emptied mine goes empty =>
      rw [StaysBehind, not_or] at ahead
      exact nomatch (attended ahead.1).1.1
  | worked elem mbufs mine goes items =>
      simp only [StaysBehind, items, List.head?_cons, Option.mem_some_iff, exists_eq_left', not_or]
        at ahead
      obtain ⟨unreturned, packets⟩ := ahead
      obtain ⟨ending, ended⟩ := Option.ne_none_iff_exists'.mp
        (mt (elem_done_iff sends elem horse.statics).mp packets)
      rw [work_stopped _ horse elem mbufs ending ended] at attended
      exact nomatch (attended unreturned).1.2
  | checked outcome mine sleeping =>
      simp only [StaysBehind, Classical.not_imp] at ahead
      exact (attended ahead.2.2).2.1 rfl
  | slept fired outcome mine early =>
      simp only [StaysBehind, Classical.not_imp] at ahead
      exact early ⟨ahead.1, ahead.2.1⟩
  | polled | rx => exact ahead trivial
  | controlled act sender outside =>
      rcases outside with rfl | rfl <;> exact ahead trivial

/-- No queued work is abandoned exactly along the runs in which, until `rx_main` has returned,
neither of the two tasks comes to its end and no packet is ever worked off. -/
theorem attended_iff (sender : Sender) (mbufs : BoundedFifo PortIdMbuf)
    (engine : Engine) (acts : List HorseAct)
    (executed : (run (horseStep (.asWritten sends) ports) (.start sender mbufs engine) acts).isSome) :
    Always (horseStep (.asWritten sends) ports) Attended (.start sender mbufs engine) acts ↔
      Admits (horseStep (.asWritten sends) ports) StaysBehind (.start sender mbufs engine) acts :=
  always_iff_admits (horseStep (.asWritten sends) ports) Attended Attended StaysBehind
    (horseStep_attended sends ports) (fun _ => id)
    (fun horse act next _ ahead stepped => horseStep_spoils sends ports horse act next ahead stepped)
    _ acts (start_attended sender mbufs engine) executed

end Attending

/-- Once polled, `process_packets` does not suspend: it goes on until the queue is empty and it
has returned, or until a packet stops the thread. -/
theorem process_poll_ends (callees : Callees) (ports : List UInt16) (horse : Horse)
    (running : horse.running = some .processPackets) (goes : horse.stopped = none) :
    ∃ moves last,
      run (horseStep callees ports) horse (List.replicate moves .process) = some last ∧
        ((last.process_completed = true ∧ last.rx.mbufs.items = [] ∧
            last.processed = horse.processed ++ horse.rx.mbufs.items) ∨
          ∃ elem ending, elem ∈ horse.rx.mbufs.items ∧ last.stopped = some (elem, ending)) := by
  generalize held : horse.rx.mbufs.items = items
  induction items generalizing horse with
  | nil =>
      have taken := (BoundedFifo.pop_none_iff _).mpr held
      have stepped : horseStep callees ports horse .process =
          some { horse with running := none, process_completed := true } := by
        simp [horseStep, running, goes, taken]
      refine ⟨1, { horse with running := none, process_completed := true }, ?_,
        Or.inl ⟨rfl, held, by simp⟩⟩
      simp [run_cons, stepped]
  | cons elem rest ih =>
      obtain ⟨mbufs, taken, later⟩ := BoundedFifo.pop_cons _ elem rest held
      have stepped : horseStep callees ports horse .process =
          some (horse.work callees elem mbufs) := by
        simp [horseStep, running, goes, taken]
      cases ended : (processElem callees elem horse.statics).ending with
      | some ending =>
          rw [work_stopped callees horse elem mbufs ending ended] at stepped
          exact ⟨1, _, by rw [List.replicate_one, run_cons, stepped]; rfl,
            Or.inr ⟨elem, ending, List.mem_cons_self, rfl⟩⟩
      | none =>
          have after := work_done callees horse elem mbufs ended
          obtain ⟨moves, last, executed, outcome⟩ := ih (horse.work callees elem mbufs)
            (by rw [after]; exact running) (by rw [after]; exact goes) (by rw [after]; exact later)
          refine ⟨moves + 1, last, ?_, ?_⟩
          · rw [List.replicate_succ, run_cons, stepped]
            exact executed
          · rcases outcome with ⟨completed, empty, processed⟩ | ⟨other, ending, queued, stopped⟩
            · rw [after] at processed
              exact Or.inl ⟨completed, empty, by simpa using processed⟩
            · exact Or.inr ⟨other, ending, List.mem_cons_of_mem elem queued, stopped⟩

/-- Two batches without packets, as idle ports deliver them. -/
def twoIdle : BoundedFifo PortIdMbuf :=
  { capacity := 4, items := [{ portid := 0, buf := [] }, { portid := 1, buf := [] }]
    fits := by decide }

/-- The controller goes and the port is received from, while the timer runs. -/
def receivingDay : List HorseAct :=
  [.poll .checkNSet, .check false .granted, .controllerDrops, .poll .rxMain, .rx [], .rx [],
    .rx [ipv6Mbuf], .rx []]

/-- `rx_main` is told to stop, and the other two tasks come to their ends after it. -/
def stoppedDay : List HorseAct :=
  [.poll .checkNSet, .check false .granted, .controllerSends, .poll .rxMain, .rx [],
    .poll .processPackets, .process, .process, .process, .poll .checkNSet, .check true .granted]

theorem two_days_attended_iff :
    (Always (horseStep (.asWritten consumes) [0]) Attended (.start .silent twoIdle .new)
        receivingDay ↔
      Admits (horseStep (.asWritten consumes) [0]) StaysBehind (.start .silent twoIdle .new)
        receivingDay) ∧
    (Always (horseStep (.asWritten consumes) [0]) Attended (.start .silent twoIdle .new)
        stoppedDay ↔
      Admits (horseStep (.asWritten consumes) [0]) StaysBehind (.start .silent twoIdle .new)
        stoppedDay) :=
  ⟨attended_iff consumes [0] .silent twoIdle .new receivingDay rfl,
    attended_iff consumes [0] .silent twoIdle .new stoppedDay rfl⟩

/-- Polled first, `process_packets` finds nothing to do and is gone for good. -/
theorem idle_consumer_leaves :
    ¬ ∀ (ports : List UInt16) (sender : Sender) (acts : List HorseAct) (reached : Horse),
      run (horseStep (.asWritten consumes) ports) (.start sender (.empty 4) .new) acts =
          some reached → Attended reached := by
  intro claimed
  have attended := claimed [0] .gone [.poll .processPackets, .process] _ rfl
  exact nomatch (attended nofun).1.1

/-- The engine is the one it began with, or a single message has been handled: the one
that was pending then. -/
def ServedOnce (engine : Engine) (horse : Horse) : Prop :=
  horse.engine = engine ∨
    ∃ id m outcome, engine.new_msg = some (id, m) ∧ horse.check = .completed ∧
      horse.engine = (checkNSetClientStatus engine outcome).engine

/-- Until its end `check_n_set_client_status` has not touched the engine, and it is not
polled after it. -/
structure Waiting (engine : Engine) (horse : Horse) : Prop where
  served : ServedOnce engine horse
  untouched : horse.check ≠ .completed → horse.engine = engine
  polled : horse.running = some .checkNSet → horse.check ≠ .completed

theorem waiting_kept (engine : Engine) (horse next : Horse) (before : Waiting engine horse)
    (same : next.engine = horse.engine) (still : next.check = horse.check)
    (polled : next.running = some .checkNSet → horse.check ≠ .completed) : Waiting engine next := by
  refine { served := ?_, untouched := fun unfinished => ?_, polled := still ▸ polled }
  · rw [ServedOnce, same, still]
    exact before.served
  · exact same.trans (before.untouched (still ▸ unfinished))

theorem checked_waiting (engine : Engine) (horse next : Horse) (outcome : Outcome)
    (sleeping : horse.check = .sleeping) (waiting : Waiting engine horse)
    (check : next.check = .completed) (idle : next.running = none)
    (handled : next.engine = (checkNSetClientStatus horse.engine outcome).engine) :
    Waiting engine next := by
  rw [waiting.untouched (by simp [sleeping])] at handled
  refine { served := ?_, untouched := fun unfinished => absurd check unfinished
           polled := fun polls => by simp [idle] at polls }
  cases pending : engine.new_msg with
  | none => exact Or.inl (by rw [handled, checkNSet_idle engine outcome pending])
  | some msg => exact Or.inr ⟨msg.1, msg.2, outcome, pending, check, handled⟩

theorem step_waiting (callees : Callees) (ports : List UInt16) (engine : Engine) (horse : Horse)
    (act : HorseAct) (next : Horse) (before : Waiting engine horse)
    (stepped : horseStep callees ports horse act = some next) : Waiting engine next := by
  cases horseStep_moved callees ports horse next act stepped with
  | polled task idle pollable =>
      refine waiting_kept engine horse _ before rfl rfl fun polls => ?_
      cases polls
      exact of_decide_eq_true pollable
  | rx recvd rx mine moved =>
      refine waiting_kept engine horse _ before rfl rfl fun polls => ?_
      split at polls <;> cases polls
  | emptied => exact waiting_kept engine horse _ before rfl rfl nofun
  | worked elem mbufs =>
      obtain ⟨running, _, check, same⟩ := work_frame callees horse elem mbufs
      exact waiting_kept engine horse _ before same check (running ▸ before.polled)
  | checked outcome mine sleeping =>
      exact checked_waiting engine horse _ outcome sleeping before rfl rfl rfl
  | slept fired outcome mine =>
      have untouched := before.untouched (before.polled mine)
      exact { served := Or.inl untouched, untouched := fun _ => untouched, polled := fun _ => nofun }
  | controlled => exact waiting_kept engine horse _ before rfl rfl before.polled

/-- However long the tasks run and in whatever order they are polled, whatever becomes of the
packets, `work_horse` handles at most one message, the one that was pending when it began: none
of the tasks calls `get_msg`, and the one that looks for a message does so once. -/
theorem served_once_along (callees : Callees) (ports : List UInt16) (sender : Sender)
    (mbufs : BoundedFifo PortIdMbuf) (engine : Engine) (acts : List HorseAct) :
    Always (horseStep callees ports) (ServedOnce engine) (.start sender mbufs engine) acts := by
  refine always_of_invariant (horseStep callees ports) (Waiting engine) (ServedOnce engine)
    (step_waiting callees ports engine) (fun _ waiting => waiting.served) _ acts ?_
  exact { served := Or.inl rfl, untouched := fun _ => rfl, polled := fun polls => by cases polls }

end L2Switch.WorkHorse
