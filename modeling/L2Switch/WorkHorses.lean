import L2Switch.WorkHorse

/-!
Several threads in `Engine::work_horse`, one queue between them. That they may share it is
taken for granted here: its `'static` arguments suggest it, but an `Mbuf` holds a raw pointer
and is not `Send`. Each thread polls its own `rx_main` and `process_packets`, one at a time; the
tests, pushes and pops of the queue are single steps and interleave. What becomes of a batch
once popped and the third task, which does not touch the queue, are left out.
-/
namespace L2Switch.WorkHorses
open Histories PacketHeaders ProcessPackets ReceiveLoop WorkHorse

/-- Where `process_packets` stands: before `is_empty`, between it and `pop`, or past its end. -/
inductive ProcessPoint where
  | testing
  | popping
  | completed
  deriving DecidableEq

/-- The lists tell which thread received, pushed and popped what, oldest first, and which
ones found nothing to pop after all. -/
structure Horses (Thread : Type) where
  mbufs : BoundedFifo PortIdMbuf
  running : Thread → Option TaskName
  point : Thread → RxPoint
  sender : Thread → Sender
  process : Thread → ProcessPoint
  received : List (Thread × PortIdMbuf)
  pushed : List (Thread × PortIdMbuf)
  popped : List (Thread × PortIdMbuf)
  surprised : List Thread

inductive HorsesAct (Thread : Type) where
  | pollRx (thread : Thread)
  | pollProcess (thread : Thread)
  | rx (thread : Thread) (recvd : List RteMbuf)
  | process (thread : Thread)
  | controllerSends (thread : Thread)
  | controllerDrops (thread : Thread)

variable {Thread : Type}

def Horses.start (mbufs : BoundedFifo PortIdMbuf) : Horses Thread :=
  { mbufs, running := fun _ => none, point := fun _ => .outer, sender := fun _ => .silent
    process := fun _ => .testing, received := [], pushed := [], popped := [], surprised := [] }

/-- The queue as the `rx_main` of one thread sees it. -/
def Horses.receiving (horses : Horses Thread) (thread : Thread) : Receiving :=
  { point := horses.point thread, sender := horses.sender thread, mbufs := horses.mbufs
    received := [], pushed := [] }

variable [DecidableEq Thread]

def Horses.poll (horses : Horses Thread) (thread : Thread) (task : TaskName) (pollable : Bool) :
    Option (Horses Thread) :=
  if horses.running thread = none ∧ pollable then
    some { horses with running := Function.update horses.running thread (some task) }
  else none

/-- What a step of one thread's `rx_main` leaves. -/
def Horses.moved (horses : Horses Thread) (thread : Thread) (rx : Receiving) : Horses Thread :=
  { horses with
    mbufs := rx.mbufs
    running :=
      if rx.point = .returned then Function.update horses.running thread none else horses.running
    point := Function.update horses.point thread rx.point
    sender := Function.update horses.sender thread rx.sender
    received := horses.received ++ rx.received.map (Prod.mk thread)
    pushed := horses.pushed ++ rx.pushed.map (Prod.mk thread) }

def processStep (horses : Horses Thread) (thread : Thread) : Option (Horses Thread) :=
  match horses.process thread with
  | .testing =>
      if horses.mbufs.items.isEmpty then
        some { horses with
          running := Function.update horses.running thread none
          process := Function.update horses.process thread .completed }
      else some { horses with process := Function.update horses.process thread .popping }
  | .popping =>
      match horses.mbufs.pop with
      | some (elem, mbufs) =>
          some { horses with
            mbufs, popped := horses.popped ++ [(thread, elem)]
            process := Function.update horses.process thread .testing }
      -- the branch that, by its message, should not have run
      | none =>
          some { horses with
            surprised := horses.surprised ++ [thread]
            process := Function.update horses.process thread .testing }
  | .completed => none

def horsesStep (ports : List UInt16) (horses : Horses Thread) :
    HorsesAct Thread → Option (Horses Thread)
  | .pollRx thread => horses.poll thread .rxMain (horses.point thread ≠ .returned)
  | .pollProcess thread => horses.poll thread .processPackets (horses.process thread ≠ .completed)
  | .rx thread recvd =>
      if horses.running thread = some .rxMain then
        (rxStep ports (horses.receiving thread) recvd).map (horses.moved thread)
      else none
  | .process thread =>
      if horses.running thread = some .processPackets then processStep horses thread else none
  | .controllerSends thread =>
      match horses.sender thread with
      | .silent => some { horses with sender := Function.update horses.sender thread .sent }
      | _ => none
  | .controllerDrops thread =>
      match horses.sender thread with
      | .silent => some { horses with sender := Function.update horses.sender thread .gone }
      | _ => none

/-- Every batch any thread pushed was popped by one thread or is still queued, in the order
of the pushes, and what was pushed was received. -/
structure Shared (mbufs : BoundedFifo PortIdMbuf) (horses : Horses Thread) : Prop where
  in_order : mbufs.items ++ horses.pushed.map Prod.snd =
    horses.popped.map Prod.snd ++ horses.mbufs.items
  pushed : horses.pushed.Sublist horses.received

omit [DecidableEq Thread] in
/-- All a step of one thread's `rx_main` can do to the queue. -/
theorem rx_outcome (ports : List UInt16) (horses : Horses Thread) (thread : Thread)
    (recvd : List RteMbuf) (rx : Receiving)
    (stepped : rxStep ports (horses.receiving thread) recvd = some rx) :
    (rx.mbufs = horses.mbufs ∧ rx.received = [] ∧ rx.pushed = []) ∨
      ∃ port rest, horses.point thread = .round (port :: rest) ∧ rx.point = .round rest ∧
        rx.sender = horses.sender thread ∧ rx.received = [{ portid := port, buf := recvd }] ∧
        ((horses.mbufs.items.length < horses.mbufs.capacity ∧
            rx.mbufs.items = horses.mbufs.items ++ [{ portid := port, buf := recvd }] ∧
            rx.mbufs.capacity = horses.mbufs.capacity ∧ rx.pushed = rx.received) ∨
          (horses.mbufs.items.length = horses.mbufs.capacity ∧ rx.mbufs = horses.mbufs ∧
            rx.pushed = [])) := by
  rcases rxStep_queue ports _ rx recvd stepped with ⟨mbufs, received, pushed⟩ | ⟨port, rest, turn, rfl⟩
  · exact Or.inl ⟨mbufs, received, pushed⟩
  · refine Or.inr ⟨port, rest, turn, rfl, push_sender _ _, ?_⟩
    by_cases room : horses.mbufs.items.length < horses.mbufs.capacity
    · obtain ⟨mbufs, items, capacity, pushed⟩ :=
        push_room (horses.receiving thread) { portid := port, buf := recvd } room
      simp only [pushed]
      exact ⟨rfl, Or.inl ⟨room, items, capacity, rfl⟩⟩
    · have fits := horses.mbufs.fits
      rw [push_full (horses.receiving thread) _ room]
      exact ⟨rfl, Or.inr ⟨by omega, rfl, rfl⟩⟩

/-- All an enabled action can do. -/
inductive Stepped (ports : List UInt16) (horses : Horses Thread) : Horses Thread → Prop where
  | polled (thread : Thread) (task : TaskName) (idle : horses.running thread = none) :
      Stepped ports horses
        { horses with running := Function.update horses.running thread (some task) }
  | rx (thread : Thread) (recvd : List RteMbuf) (rx : Receiving)
      (mine : horses.running thread = some .rxMain)
      (moved : rxStep ports (horses.receiving thread) recvd = some rx) :
      Stepped ports horses (horses.moved thread rx)
  | emptied (thread : Thread) (mine : horses.running thread = some .processPackets)
      (tests : horses.process thread = .testing) :
      Stepped ports horses
        { horses with
          running := Function.update horses.running thread none
          process := Function.update horses.process thread .completed }
  | looked (thread : Thread) (mine : horses.running thread = some .processPackets)
      (tests : horses.process thread = .testing) (some_batch : horses.mbufs.items ≠ []) :
      Stepped ports horses
        { horses with process := Function.update horses.process thread .popping }
  | popped (thread : Thread) (elem : PortIdMbuf) (mbufs : BoundedFifo PortIdMbuf)
      (mine : horses.running thread = some .processPackets)
      (pops : horses.process thread = .popping) (items : horses.mbufs.items = elem :: mbufs.items)
      (capacity : mbufs.capacity = horses.mbufs.capacity) :
      Stepped ports horses
        { horses with
          mbufs, popped := horses.popped ++ [(thread, elem)]
          process := Function.update horses.process thread .testing }
  | surprised (thread : Thread) (mine : horses.running thread = some .processPackets)
      (pops : horses.process thread = .popping) (empty : horses.mbufs.items = []) :
      Stepped ports horses
        { horses with
          surprised := horses.surprised ++ [thread]
          process := Function.update horses.process thread .testing }
  | controlled (thread : Thread) (sender : Sender) (silent : horses.sender thread = .silent) :
      Stepped ports horses
        { horses with sender := Function.update horses.sender thread sender }

theorem poll_stepped (ports : List UInt16) (horses next : Horses Thread) (thread : Thread)
    (task : TaskName) (pollable : Bool) (polled : horses.poll thread task pollable = some next) :
    Stepped ports horses next := by
  simp only [Horses.poll, Option.ite_none_right_eq_some, Option.some.injEq] at polled
  obtain ⟨⟨idle, _⟩, rfl⟩ := polled
  exact .polled thread task idle

theorem process_stepped (ports : List UInt16) (horses next : Horses Thread) (thread : Thread)
    (mine : horses.running thread = some .processPackets)
    (stepped : processStep horses thread = some next) : Stepped ports horses next := by
  unfold processStep at stepped
  cases stands : horses.process thread with
  | testing =>
      cases items : horses.mbufs.items with
      | nil =>
          simp only [stands, items, List.isEmpty_nil, ↓reduceIte, Option.some.injEq] at stepped
          subst stepped
          exact .emptied thread mine stands
      | cons elem rest =>
          simp only [stands, items, List.isEmpty_cons, Bool.false_eq_true, ↓reduceIte,
            Option.some.injEq] at stepped
          subst stepped
          exact .looked thread mine stands (by simp [items])
  | popping =>
      cases taken : horses.mbufs.pop with
      | none =>
          simp only [stands, taken, Option.some.injEq] at stepped
          subst stepped
          exact .surprised thread mine stands ((BoundedFifo.pop_none_iff _).mp taken)
      | some head =>
          obtain ⟨elem, mbufs⟩ := head
          simp only [stands, taken, Option.some.injEq] at stepped
          subst stepped
          obtain ⟨items, capacity⟩ := BoundedFifo.pop_items _ mbufs elem taken
          exact .popped thread elem mbufs mine stands items capacity
  | completed => simp [stands] at stepped

theorem step_stepped (ports : List UInt16) (horses next : Horses Thread) (act : HorsesAct Thread)
    (stepped : horsesStep ports horses act = some next) : Stepped ports horses next := by
  cases act with
  | pollRx thread => exact poll_stepped ports horses next thread _ _ stepped
  | pollProcess thread => exact poll_stepped ports horses next thread _ _ stepped
  | rx thread recvd =>
      simp only [horsesStep, Option.ite_none_right_eq_some] at stepped
      obtain ⟨rx, moved, rfl⟩ := Option.map_eq_some_iff.mp stepped.2
      exact .rx thread recvd rx stepped.1 moved
  | process thread =>
      simp only [horsesStep, Option.ite_none_right_eq_some] at stepped
      exact process_stepped ports horses next thread stepped.1 stepped.2
  | controllerSends thread | controllerDrops thread =>
      simp only [horsesStep] at stepped
      split at stepped
      · next silent =>
          cases stepped
          exact .controlled thread _ silent
      · cases stepped

omit [DecidableEq Thread] in
theorem start_shared (mbufs : BoundedFifo PortIdMbuf) :
    Shared mbufs (Horses.start mbufs : Horses Thread) :=
  { in_order := by simp [Horses.start], pushed := List.Sublist.refl _ }

theorem step_shared (ports : List UInt16) (start : BoundedFifo PortIdMbuf) (horses : Horses Thread)
    (act : HorsesAct Thread) (next : Horses Thread) (before : Shared start horses)
    (stepped : horsesStep ports horses act = some next) : Shared start next := by
  obtain ⟨in_order, pushed⟩ := before
  cases step_stepped ports horses next act stepped with
  | rx thread recvd rx mine moved =>
      rcases rx_outcome ports horses thread recvd rx moved with
        ⟨mbufs, received, none⟩ |
          ⟨port, rest, _, _, _, received, ⟨_, items, _, same⟩ | ⟨_, mbufs, none⟩⟩
      · simpa [Shared, Horses.moved, mbufs, received, none] using ⟨in_order, pushed⟩
      · refine { in_order := ?_, pushed := ?_ }
        · simp only [Horses.moved, same, received, items, List.map_append, ← List.append_assoc,
            in_order]
          simp
        · simpa [Horses.moved, same] using pushed
      · refine { in_order := ?_, pushed := ?_ }
        · simpa [Horses.moved, mbufs, none] using in_order
        · simpa [Horses.moved, none] using pushed.trans (List.sublist_append_left _ _)
  | popped thread elem mbufs mine pops items capacity =>
      refine { in_order := ?_, pushed := pushed }
      simpa [items] using in_order
  | polled | emptied | looked | surprised | controlled => exact ⟨in_order, pushed⟩

/-- However many threads share the queue, each pushed batch is popped by exactly one of them
or still queued, and the batches leave in the order in which they came. -/
theorem shared_along (ports : List UInt16) (mbufs : BoundedFifo PortIdMbuf)
    (acts : List (HorsesAct Thread)) :
    Always (horsesStep ports) (Shared mbufs) (.start mbufs) acts :=
  always_of_invariant (horsesStep ports) (Shared mbufs) (Shared mbufs) (step_shared ports mbufs)
    (fun _ shared => shared) _ acts (start_shared mbufs)

/-- The log line that should not be reached was not reached. -/
def NeverSurprised (horses : Horses Thread) : Prop := horses.surprised = []

/-- A thread whose `rx_main` goes round for good. -/
def Producing (horses : Horses Thread) (thread : Thread) : Prop :=
  horses.running thread = some .rxMain ∧ horses.sender thread = .gone

def Looping : RxPoint → Prop
  | .inner | .round _ => True
  | .outer | .returned => False

/-- Whoever is about to pop has a batch to pop, and a thread that goes round put it there. -/
structure Watched (horses : Horses Thread) : Prop where
  never : NeverSurprised horses
  popping : ∀ thread, horses.process thread = .popping →
    horses.running thread = some .processPackets ∧ horses.mbufs.items ≠ []
  produced : horses.mbufs.items ≠ [] → ∃ thread, Producing horses thread
  looping : ∀ thread, Looping (horses.point thread) → Producing horses thread

def ThreeThreads (Thread : Type) : Prop :=
  ∃ first second third : Thread, first ≠ second ∧ first ≠ third ∧ second ≠ third

omit [DecidableEq Thread] in
theorem start_watched (capacity : Nat) : Watched (Horses.start (.empty capacity) : Horses Thread) :=
  { never := rfl
    popping := fun _ pops => by cases pops
    produced := fun some_batch => absurd rfl some_batch
    looping := fun _ loops => loops.elim }

/-- Who goes round is not the thread that is idle or processes. -/
theorem producing_kept (horses : Horses Thread) (thread other : Thread) (task : Option TaskName)
    (produces : Producing horses other) (busy : horses.running thread ≠ some .rxMain) :
    Function.update horses.running thread task other = some .rxMain ∧ horses.sender other = .gone := by
  have different : other ≠ thread := fun same => busy (same ▸ produces.1)
  rw [Function.update_of_ne different]
  exact produces

omit [DecidableEq Thread] in
/-- A thread leaves its rounds only by returning, which takes a sender that is not gone. -/
theorem rx_loops (ports : List UInt16) (horses : Horses Thread) (thread : Thread)
    (recvd : List RteMbuf) (rx : Receiving)
    (stepped : rxStep ports (horses.receiving thread) recvd = some rx) :
    (rx.point = .returned ∧ rx.mbufs = horses.mbufs ∧ horses.sender thread ≠ .gone) ∨
      (rx.point ≠ .returned ∧ rx.sender = horses.sender thread ∧
        (Looping (horses.point thread) ∨ horses.sender thread = .gone)) := by
  rcases rxStep_cases ports _ rx recvd stepped with
    ⟨_, alive, rfl⟩ | ⟨_, gone, rfl⟩ | ⟨inner, rfl⟩ | ⟨ended, rfl⟩ | ⟨port, rest, turn, rfl⟩
  · exact Or.inl ⟨rfl, rfl, alive⟩
  · exact Or.inr ⟨by simp, rfl, Or.inr gone⟩
  · have point : horses.point thread = .inner := inner
    refine Or.inr ⟨?_, rfl, Or.inl (by simp [point, Looping])⟩
    cases full : (horses.receiving thread).mbufs.isFull <;> simp
  · have point : horses.point thread = .round [] := ended
    exact Or.inr ⟨by simp, rfl, Or.inl (by simp [point, Looping])⟩
  · have point : horses.point thread = .round (port :: rest) := turn
    exact Or.inr ⟨by simp, push_sender _ _, Or.inl (by simp [point, Looping])⟩

omit [DecidableEq Thread] in
theorem rx_items (ports : List UInt16) (horses : Horses Thread) (thread : Thread)
    (recvd : List RteMbuf) (rx : Receiving)
    (stepped : rxStep ports (horses.receiving thread) recvd = some rx)
    (some_batch : horses.mbufs.items ≠ []) : rx.mbufs.items ≠ [] := by
  rcases rx_outcome ports horses thread recvd rx stepped with
    ⟨same, _⟩ | ⟨_, _, _, _, _, _, ⟨_, items, _⟩ | ⟨_, same, _⟩⟩
  · rwa [same]
  · simp [items]
  · rwa [same]

theorem rx_watched (ports : List UInt16) (horses : Horses Thread) (thread : Thread)
    (recvd : List RteMbuf) (rx : Receiving) (before : Watched horses)
    (mine : horses.running thread = some .rxMain)
    (moved : rxStep ports (horses.receiving thread) recvd = some rx) :
    Watched (horses.moved thread rx) := by
  obtain ⟨never, popping, produced, looping⟩ := before
  have others : ∀ other, horses.process other = .popping → other ≠ thread := by
    rintro other pops rfl
    rw [(popping other pops).1] at mine
    cases mine
  rcases rx_loops ports horses thread recvd rx moved with
    ⟨returned, same, alive⟩ | ⟨goes_on, sender, loops⟩
  · have kept : ∀ other, Producing horses other → Producing (horses.moved thread rx) other := by
      rintro other ⟨runs, gone⟩
      have different : other ≠ thread := fun same => alive (same ▸ gone)
      simp [Producing, Horses.moved, returned, different, runs, gone]
    refine { never := never
             popping := fun other pops => ?_
             produced := fun some_batch => ?_
             looping := fun other loops => ?_ }
    · simpa [Horses.moved, returned, same, others other pops] using popping other pops
    · obtain ⟨other, produces⟩ := produced (by simpa [Horses.moved, same] using some_batch)
      exact ⟨other, kept other produces⟩
    · by_cases here : other = thread
      · subst here
        simp [Horses.moved, returned, Looping] at loops
      · exact kept other (looping other (by simpa [Horses.moved, here] using loops))
  · have same : ∀ other, Producing (horses.moved thread rx) other ↔ Producing horses other := by
      intro other
      simp [Producing, Horses.moved, goes_on, sender]
    have produces : Producing horses thread := loops.elim (looping thread) fun gone => ⟨mine, gone⟩
    refine { never := never
             popping := fun other pops => ?_
             produced := fun _ => ⟨thread, (same thread).mpr produces⟩
             looping := fun other loops => ?_ }
    · obtain ⟨runs, some_batch⟩ := popping other pops
      refine ⟨by simpa [Horses.moved, goes_on] using runs, ?_⟩
      exact rx_items ports horses thread recvd rx moved some_batch
    · rw [same]
      by_cases here : other = thread
      · exact here ▸ produces
      · exact looping other (by simpa [Horses.moved, here] using loops)

theorem step_watched (ports : List UInt16) (few : ¬ ThreeThreads Thread) (horses : Horses Thread)
    (act : HorsesAct Thread) (next : Horses Thread) (before : Watched horses)
    (stepped : horsesStep ports horses act = some next) : Watched next := by
  have watched := before
  obtain ⟨never, popping, produced, looping⟩ := before
  cases step_stepped ports horses next act stepped with
  | polled thread task idle =>
      have busy : horses.running thread ≠ some .rxMain := by simp [idle]
      refine { never := never
               popping := fun other pops => ?_
               produced := fun some_batch => ?_
               looping := fun other loops => ?_ }
      · have mine := popping other pops
        have different : other ≠ thread := fun same => by simp [same ▸ mine.1] at idle
        simpa [Function.update_of_ne different] using mine
      · obtain ⟨other, produces⟩ := produced some_batch
        exact ⟨other, producing_kept horses thread other _ produces busy⟩
      · exact producing_kept horses thread other _ (looping other loops) busy
  | rx thread recvd rx mine moved => exact rx_watched ports horses thread recvd rx watched mine moved
  | emptied thread mine tests =>
      have busy : horses.running thread ≠ some .rxMain := by simp [mine]
      refine { never := never
               popping := fun other pops => ?_
               produced := fun some_batch => ?_
               looping := fun other loops => ?_ }
      · have different : other ≠ thread := by
          rintro rfl
          simp at pops
        simp only [Function.update_of_ne different] at pops ⊢
        exact popping other pops
      · obtain ⟨other, produces⟩ := produced some_batch
        exact ⟨other, producing_kept horses thread other _ produces busy⟩
      · exact producing_kept horses thread other _ (looping other loops) busy
  | looked thread mine tests some_batch =>
      refine { never := never
               popping := fun other pops => ?_
               produced := produced
               looping := looping }
      by_cases same : other = thread
      · subst same
        exact ⟨mine, some_batch⟩
      · simp only [Function.update_of_ne same] at pops
        exact popping other pops
  | popped thread elem mbufs mine pops items capacity =>
      obtain ⟨producer, produces⟩ := produced (by simp [items])
      refine { never := never
               popping := fun other again => ?_
               produced := fun _ => ⟨producer, produces⟩
               looping := looping }
      have different : other ≠ thread := by
        rintro rfl
        simp at again
      simp only [Function.update_of_ne different] at again
      -- two threads pop and a third one goes round
      have others := (popping other again).1
      refine absurd ⟨thread, other, producer, different.symm, ?_, ?_⟩ few
      · rintro rfl
        simp [produces.1] at mine
      · rintro rfl
        simp [produces.1] at others
  | surprised thread mine pops empty => exact absurd empty (popping thread pops).2
  | controlled thread sender silent =>
      have kept : ∀ other, Producing horses other →
          horses.running other = some .rxMain ∧
            Function.update horses.sender thread sender other = .gone := by
        rintro other ⟨runs, gone⟩
        have different : other ≠ thread := fun same => by simp [same ▸ gone] at silent
        exact ⟨runs, by rwa [Function.update_of_ne different]⟩
      refine { never := never
               popping := popping
               produced := fun some_batch => ?_
               looping := fun other loops => kept other (looping other loops) }
      obtain ⟨other, produces⟩ := produced some_batch
      exact ⟨other, kept other produces⟩

/-- Abandoned by its controller, a thread goes into a round and serves the first port. -/
def filling (producer : Thread) : List (HorsesAct Thread) :=
  [.controllerDrops producer, .pollRx producer, .rx producer [], .rx producer [], .rx producer []]

/-- Two threads find the queue filled before either of them pops. -/
def emptying (first second : Thread) : List (HorsesAct Thread) :=
  [.pollProcess first, .process first, .pollProcess second, .process second, .process first,
    .process second]

/-- One thread has pushed a batch, the others have not begun. -/
structure OneBatch (horses : Horses Thread) (producer : Thread) : Prop where
  item : ∃ elem, horses.mbufs.items = [elem]
  idle : ∀ thread, thread ≠ producer → horses.running thread = none
  tests : ∀ thread, horses.process thread = .testing

theorem first_batch (port : UInt16) (rest : List UInt16) (capacity : Nat) (room : 0 < capacity)
    (producer : Thread) :
    ∃ horses, run (horsesStep (port :: rest)) (.start (.empty capacity)) (filling producer) =
      some horses ∧ OneBatch horses producer := by
  obtain ⟨mbufs, items, _, pushed⟩ := push_room
    { point := .round (port :: rest), sender := .gone, mbufs := .empty capacity, received := [],
      pushed := [] }
    { portid := port, buf := [] } room
  have unfilled : (BoundedFifo.empty capacity : BoundedFifo PortIdMbuf).isFull = false := by
    exact decide_eq_false (Nat.ne_of_lt room)
  have one : ∃ elem, mbufs.items = [elem] := ⟨_, items⟩
  simp [filling, run_cons, horsesStep, Horses.start, Horses.poll, Horses.moved, Horses.receiving,
    rxStep, Sender.tryRecv, unfilled, pushed]
  exact { item := one, idle := fun thread different => by simp [different], tests := fun _ => rfl }

theorem second_popper_surprised (ports : List UInt16) (horses : Horses Thread)
    (first second producer : Thread) (ready : OneBatch horses producer)
    (apart : first ≠ second) (firstApart : first ≠ producer) (secondApart : second ≠ producer) :
    ∃ reached, run (horsesStep ports) horses (emptying first second) = some reached ∧
      ¬ NeverSurprised reached := by
  obtain ⟨⟨elem, item⟩, idle, tests⟩ := ready
  obtain ⟨mbufs, popped, rest⟩ := BoundedFifo.pop_cons horses.mbufs elem [] item
  have empty := (BoundedFifo.pop_none_iff mbufs).mpr rest
  simp [emptying, run_cons, horsesStep, Horses.poll, processStep, item, popped, empty, tests,
    idle first firstApart, idle second secondApart, apart, apart.symm, NeverSurprised]

/-- The branch of `process_packets` that should not run is not reached in any run exactly
when there are at most two threads: one has to fill the queue and two to empty it. -/
theorem never_surprised_iff (ports : List UInt16) (some_port : ports ≠ []) (capacity : Nat)
    (room : 0 < capacity) :
    (∀ acts : List (HorsesAct Thread),
        Always (horsesStep ports) NeverSurprised (.start (.empty capacity)) acts) ↔
      ¬ ThreeThreads Thread := by
  constructor
  · rintro never ⟨first, second, producer, apart, firstApart, secondApart⟩
    obtain ⟨port, rest, rfl⟩ := List.exists_cons_of_ne_nil some_port
    obtain ⟨horses, filled, ready⟩ := first_batch port rest capacity room producer
    obtain ⟨reached, emptied, surprised⟩ := second_popper_surprised (port :: rest) horses first second
      producer ready apart firstApart secondApart
    have executed : run (horsesStep (port :: rest)) (.start (.empty capacity))
        (filling producer ++ emptying first second) = some reached := by
      rw [run_append, filled]
      exact emptied
    exact surprised (always_reached _ NeverSurprised _ reached _ (never _) executed)
  · intro few acts
    exact always_of_invariant (horsesStep ports) Watched NeverSurprised (step_watched ports few)
      (fun _ watched => watched.never) _ acts (start_watched capacity)

theorem one_thread_never_surprised :
    (∀ acts : List (HorsesAct Unit),
        Always (horsesStep [0]) NeverSurprised (.start (.empty 4)) acts) ↔ ¬ ThreeThreads Unit :=
  never_surprised_iff [0] (by decide) 4 (by decide)

/-- Every batch a port delivered was pushed. -/
def LosesNothing (horses : Horses Thread) : Prop := horses.pushed = horses.received

/-- With one port a thread begins its round only where there is room for its batch. -/
structure Roomy (port : UInt16) (horses : Horses Thread) : Prop where
  whole : LosesNothing horses
  turns : ∀ thread rest, horses.point thread = .round rest →
    rest = [] ∨ (rest = [port] ∧ horses.mbufs.items.length < horses.mbufs.capacity)

omit [DecidableEq Thread] in
theorem start_roomy (port : UInt16) (mbufs : BoundedFifo PortIdMbuf) :
    Roomy port (Horses.start mbufs : Horses Thread) :=
  { whole := rfl, turns := fun _ _ point => by cases point }

omit [DecidableEq Thread] in
/-- A round is begun, without a turn, only with a slot left. -/
theorem rx_begins (ports : List UInt16) (horses : Horses Thread) (thread : Thread)
    (recvd : List RteMbuf) (rx : Receiving) (rest : List UInt16)
    (stepped : rxStep ports (horses.receiving thread) recvd = some rx) (untouched : rx.received = [])
    (point : rx.point = .round rest) :
    rest = ports ∧ rx.mbufs.items.length < rx.mbufs.capacity := by
  rcases rxStep_cases ports _ rx recvd stepped with
    ⟨_, _, rfl⟩ | ⟨_, _, rfl⟩ | ⟨_, rfl⟩ | ⟨_, rfl⟩ | ⟨port, later, turn, rfl⟩
  · cases point
  · cases point
  · cases full : (horses.receiving thread).mbufs.isFull with
    | true => simp [full] at point
    | false =>
        have fits := horses.mbufs.fits
        have unfilled : horses.mbufs.items.length ≠ horses.mbufs.capacity := of_decide_eq_false full
        simp only [full, Bool.false_eq_true, ↓reduceIte, RxPoint.round.injEq] at point
        exact ⟨point.symm, Nat.lt_of_le_of_ne fits unfilled⟩
  · cases point
  · simp [push_received] at untouched

theorem rx_roomy (port : UInt16) (alone : Subsingleton Thread) (horses : Horses Thread)
    (thread : Thread) (recvd : List RteMbuf) (rx : Receiving) (before : Roomy port horses)
    (moved : rxStep [port] (horses.receiving thread) recvd = some rx) :
    Roomy port (horses.moved thread rx) := by
  obtain ⟨whole, turns⟩ := before
  have mine : ∀ other, (horses.moved thread rx).point other = rx.point := by
    intro other
    rw [Subsingleton.elim other thread]
    exact Function.update_self ..
  rcases rx_outcome [port] horses thread recvd rx moved with
    ⟨same, received, pushed⟩ | ⟨served, rest, turn, point, _, _, ⟨_, _, _, pushed⟩ | ⟨full, _⟩⟩
  · refine { whole := by simpa [LosesNothing, Horses.moved, received, pushed] using whole
             turns := fun other rest point => ?_ }
    rw [mine] at point
    exact Or.inr (rx_begins [port] horses thread recvd rx rest moved received point)
  · refine { whole := by simpa [LosesNothing, Horses.moved, pushed] using whole
             turns := fun other left point' => ?_ }
    rw [mine, point] at point'
    rcases turns thread _ turn with none | ⟨listed, _⟩
    · cases none
    · obtain ⟨_, rfl⟩ := List.cons_eq_cons.mp listed
      exact Or.inl (RxPoint.round.inj point').symm
  · rcases turns thread _ turn with none | ⟨_, room⟩
    · cases none
    · omega

theorem step_roomy (port : UInt16) (alone : Subsingleton Thread) (horses : Horses Thread)
    (act : HorsesAct Thread) (next : Horses Thread) (before : Roomy port horses)
    (stepped : horsesStep [port] horses act = some next) : Roomy port next := by
  cases step_stepped [port] horses next act stepped with
  | rx thread recvd rx mine moved => exact rx_roomy port alone horses thread recvd rx before moved
  | popped thread elem mbufs mine pops items capacity =>
      refine { whole := before.whole
               turns := fun other rest point => ?_ }
      refine (before.turns other rest point).imp_right fun listed => ⟨listed.1, ?_⟩
      have room := listed.2
      rw [items, List.length_cons] at room
      simp only [capacity]
      omega
  | polled | emptied | looked | surprised | controlled => exact ⟨before.whole, before.turns⟩

/-- Two threads look at one free slot before either of them fills it. -/
def overfilling (first second : Thread) : List (HorsesAct Thread) :=
  [.controllerDrops first, .controllerDrops second, .pollRx first, .pollRx second,
    .rx first [], .rx second [], .rx first [], .rx second [], .rx first [], .rx second []]

theorem overfilled_loses (port : UInt16) (first second : Thread) (apart : first ≠ second) :
    ∃ reached, run (horsesStep [port]) (.start (.empty 1)) (overfilling first second) =
      some reached ∧ ¬ LosesNothing reached := by
  have unfilled : (BoundedFifo.empty 1 : BoundedFifo PortIdMbuf).isFull = false := rfl
  obtain ⟨mbufs, items, capacity, pushed⟩ := push_room
    { point := .round [port], sender := .gone, mbufs := .empty 1, received := [], pushed := [] }
    { portid := port, buf := [] } Nat.zero_lt_one
  have refused := push_full
    { point := .round [port], sender := .gone, mbufs, received := [], pushed := [] }
    { portid := port, buf := [] } (by simp [items, capacity, BoundedFifo.empty])
  simp [overfilling, run_cons, horsesStep, Horses.start, Horses.poll, Horses.moved, Horses.receiving,
    rxStep, Sender.tryRecv, unfilled, apart, apart.symm, LosesNothing, pushed, refused]

/-- With one port a batch is never lost in any run exactly when at most one thread goes
round: the test for fullness and the push are two steps. -/
theorem one_port_loses_nothing_iff (port : UInt16) :
    (∀ (mbufs : BoundedFifo PortIdMbuf) (acts : List (HorsesAct Thread)),
        Always (horsesStep [port]) LosesNothing (.start mbufs) acts) ↔ Subsingleton Thread := by
  constructor
  · intro whole
    refine ⟨fun first second => ?_⟩
    by_contra apart
    obtain ⟨reached, executed, loses⟩ := overfilled_loses port first second apart
    exact loses (always_reached _ LosesNothing _ reached _ (whole _ _) executed)
  · intro alone mbufs acts
    exact always_of_invariant (horsesStep [port]) (Roomy port) LosesNothing (step_roomy port alone)
      (fun _ roomy => roomy.whole) _ acts (start_roomy port mbufs)

end L2Switch.WorkHorses
