import L2Switch.Histories
import L2Switch.ReceiveLoop

/-!
Whole runs of `Engine::rx_main`: what it loses, when it stops and whether a poll of it
ends. In a run consumers may pop and the controller may act between any two of its
steps; a poll is on one thread, so nothing comes between its steps.
-/
namespace L2Switch.ReceiveRuns
open Histories PacketHeaders ProcessPackets ReceiveLoop

/-- `rx` carries what the port at hand receives. -/
inductive LoopAct where
  | rx (recvd : List RteMbuf)
  | pop
  | controllerSends
  | controllerDrops

/-- `popped` has what consumers took from the queue, oldest first. -/
structure Loop where
  rx : Receiving
  popped : List PortIdMbuf
  stop_sent : Bool

def Loop.start (mbufs : BoundedFifo PortIdMbuf) : Loop :=
  { rx := .start .silent mbufs, popped := [], stop_sent := false }

def loopStep (ports : List UInt16) (loop : Loop) : LoopAct → Option Loop
  | .rx recvd => (rxStep ports loop.rx recvd).map fun rx => { loop with rx }
  | .pop =>
      match loop.rx.mbufs.pop with
      | some (elem, mbufs) =>
          some { loop with rx := { loop.rx with mbufs }, popped := loop.popped ++ [elem] }
      | none => some loop
  | .controllerSends =>
      match loop.rx.sender with
      | .silent => some { loop with rx := { loop.rx with sender := .sent }, stop_sent := true }
      | _ => none
  | .controllerDrops =>
      match loop.rx.sender with
      | .silent => some { loop with rx := { loop.rx with sender := .gone } }
      | _ => none

theorem rx_step (ports : List UInt16) (loop next : Loop) (recvd : List RteMbuf)
    (stepped : loopStep ports loop (.rx recvd) = some next) :
    ∃ rx, rxStep ports loop.rx recvd = some rx ∧ next = { loop with rx } := by
  obtain ⟨rx, moved, rfl⟩ := Option.map_eq_some_iff.mp stepped
  exact ⟨rx, moved, rfl⟩

theorem pop_step (ports : List UInt16) (loop next : Loop)
    (stepped : loopStep ports loop .pop = some next) :
    ∃ mbufs taken, loop.rx.mbufs.items = taken ++ mbufs.items ∧
      mbufs.capacity = loop.rx.mbufs.capacity ∧
      next = { loop with rx := { loop.rx with mbufs }, popped := loop.popped ++ taken } := by
  simp only [loopStep] at stepped
  cases popped : loop.rx.mbufs.pop with
  | none =>
      simp only [popped] at stepped
      cases stepped
      exact ⟨loop.rx.mbufs, [], rfl, rfl, by simp⟩
  | some head =>
      obtain ⟨elem, mbufs⟩ := head
      simp only [popped] at stepped
      cases stepped
      obtain ⟨items, capacity⟩ := BoundedFifo.pop_items _ mbufs elem popped
      exact ⟨mbufs, [elem], items, capacity, rfl⟩

theorem controllerSends_step (ports : List UInt16) (loop next : Loop)
    (stepped : loopStep ports loop .controllerSends = some next) :
    next = { loop with rx := { loop.rx with sender := .sent }, stop_sent := true } := by
  simp only [loopStep] at stepped
  split at stepped
  · cases stepped
    rfl
  · cases stepped

theorem controllerDrops_step (ports : List UInt16) (loop next : Loop)
    (stepped : loopStep ports loop .controllerDrops = some next) :
    next = { loop with rx := { loop.rx with sender := .gone } } := by
  simp only [loopStep] at stepped
  split at stepped
  · cases stepped
    rfl
  · cases stepped

/-- Every batch received was pushed, once and in order, and is popped or still queued. -/
structure LosesNothing (loop : Loop) : Prop where
  kept : loop.rx.received = loop.rx.pushed
  in_order : loop.rx.pushed = loop.popped ++ loop.rx.mbufs.items

/-- When a port has its turn there is room for its batch. -/
def FindsRoom (loop : Loop) : LoopAct → Prop
  | .rx _ => ∀ port rest, loop.rx.point = .round (port :: rest) →
      loop.rx.mbufs.items.length < loop.rx.mbufs.capacity
  | _ => True

theorem start_losesNothing (mbufs : BoundedFifo PortIdMbuf) : LosesNothing (.start mbufs) :=
  { kept := rfl, in_order := rfl }

theorem step_losesNothing (ports : List UInt16) (loop : Loop) (act : LoopAct) (next : Loop)
    (before : LosesNothing loop) (room : FindsRoom loop act)
    (stepped : loopStep ports loop act = some next) : LosesNothing next := by
  cases act with
  | rx recvd =>
      obtain ⟨rx, moved, rfl⟩ := rx_step ports loop next recvd stepped
      rcases rxStep_queue ports loop.rx rx recvd moved with
        ⟨mbufs, received, pushed⟩ | ⟨port, rest, turn, rfl⟩
      · constructor
        · simp only [received, pushed, before.kept]
        · simp only [mbufs, pushed, before.in_order]
      · obtain ⟨mbufs, items, _, pushed⟩ :=
          push_room loop.rx { portid := port, buf := recvd } (room port rest turn)
        rw [pushed]
        constructor
        · simp only [before.kept]
        · simp only [before.in_order, items, List.append_assoc]
  | pop =>
      obtain ⟨mbufs, taken, items, _, rfl⟩ := pop_step ports loop next stepped
      refine ⟨before.kept, ?_⟩
      simp only [before.in_order, items, List.append_assoc]
  | controllerSends =>
      obtain rfl := controllerSends_step ports loop next stepped
      exact ⟨before.kept, before.in_order⟩
  | controllerDrops =>
      obtain rfl := controllerDrops_step ports loop next stepped
      exact ⟨before.kept, before.in_order⟩

/-- A batch received while the queue is full is gone. -/
theorem full_queue_loses (ports : List UInt16) (loop : Loop) (act : LoopAct) (next : Loop)
    (before : LosesNothing loop) (full : ¬ FindsRoom loop act)
    (stepped : loopStep ports loop act = some next) : ¬ LosesNothing next := by
  intro after
  cases act with
  | rx recvd =>
      simp only [FindsRoom, not_forall] at full
      obtain ⟨port, rest, turn, full⟩ := full
      obtain ⟨rx, moved, rfl⟩ := rx_step ports loop next recvd stepped
      have kept := after.kept
      simp only [rxStep, turn, Option.some.injEq] at moved
      subst moved
      rw [push_full loop.rx _ full] at kept
      simp [before.kept] at kept
  | pop | controllerSends | controllerDrops => exact full trivial

/-- `rx_main` loses no batch, at any point of a run, exactly when every port that has its
turn finds room in the queue. -/
theorem loses_nothing_iff (ports : List UInt16) (mbufs : BoundedFifo PortIdMbuf)
    (acts : List LoopAct) (executed : (run (loopStep ports) (.start mbufs) acts).isSome) :
    Always (loopStep ports) LosesNothing (.start mbufs) acts ↔
      Admits (loopStep ports) FindsRoom (.start mbufs) acts := by
  apply always_iff_admits (loopStep ports) LosesNothing LosesNothing FindsRoom
  · exact step_losesNothing ports
  · exact fun _ nothing => nothing
  · exact full_queue_loses ports
  · exact start_losesNothing mbufs
  · exact executed

theorem queue_of_two_loses_nothing_iff :
    Always (loopStep [0, 1]) LosesNothing (.start (.empty 2))
        [.controllerDrops, .rx [], .rx [], .rx [], .rx []] ↔
      Admits (loopStep [0, 1]) FindsRoom (.start (.empty 2))
        [.controllerDrops, .rx [], .rx [], .rx [], .rx []] :=
  loses_nothing_iff [0, 1] (.empty 2) _ rfl

/-- Two ports and one free slot: the second port's batch is received and discarded. -/
theorem second_port_discarded :
    ¬ ∀ (ports : List UInt16) (mbufs : BoundedFifo PortIdMbuf) (acts : List LoopAct) (reached : Loop),
      run (loopStep ports) (.start mbufs) acts = some reached → LosesNothing reached := by
  intro claimed
  have nothing := claimed [0, 1] (.empty 1) [.controllerDrops, .rx [], .rx [], .rx [], .rx []] _ rfl
  exact absurd (congrArg List.length nothing.kept) (by decide)

/-- A round is begun only with a free slot for every port. -/
def RoundFits (ports : List UInt16) (loop : Loop) : LoopAct → Prop
  | .rx _ => loop.rx.point = .inner → loop.rx.mbufs.isFull = false →
      loop.rx.mbufs.items.length + ports.length ≤ loop.rx.mbufs.capacity
  | _ => True

def RoundHasRoom (loop : Loop) : Prop :=
  ∀ rest, loop.rx.point = .round rest →
    loop.rx.mbufs.items.length + rest.length ≤ loop.rx.mbufs.capacity

theorem step_roundHasRoom (ports : List UInt16) (loop : Loop) (act : LoopAct) (next : Loop)
    (before : RoundHasRoom loop) (round : RoundFits ports loop act)
    (stepped : loopStep ports loop act = some next) : RoundHasRoom next := by
  intro rest point
  cases act with
  | rx recvd =>
      obtain ⟨rx, moved, rfl⟩ := rx_step ports loop next recvd stepped
      rcases rxStep_cases ports loop.rx rx recvd moved with
        ⟨_, _, rfl⟩ | ⟨_, _, rfl⟩ | ⟨inner, rfl⟩ | ⟨_, rfl⟩ | ⟨port, left, turn, rfl⟩
      · cases point
      · cases point
      · cases full : loop.rx.mbufs.isFull with
        | true => simp [full] at point
        | false =>
            simp only [full, Bool.false_eq_true, ↓reduceIte, RxPoint.round.injEq] at point
            subst point
            exact round inner full
      · cases point
      · have slots := before _ turn
        simp only [List.length_cons] at slots
        obtain ⟨mbufs, items, capacity, pushed⟩ :=
          push_room loop.rx { portid := port, buf := recvd } (by omega)
        obtain rfl : left = rest := by simpa using point
        simp only [pushed, items, capacity, List.length_append, List.length_singleton]
        omega
  | pop =>
      obtain ⟨mbufs, taken, items, capacity, rfl⟩ := pop_step ports loop next stepped
      have slots := before rest point
      simp only [items, List.length_append] at slots
      simp only [capacity]
      omega
  | controllerSends =>
      obtain rfl := controllerSends_step ports loop next stepped
      exact before rest point
  | controllerDrops =>
      obtain rfl := controllerDrops_step ports loop next stepped
      exact before rest point

/-- A slot for every port at the beginning of each round is enough. -/
theorem fitting_rounds_lose_nothing (ports : List UInt16) (mbufs : BoundedFifo PortIdMbuf)
    (acts : List LoopAct) (fit : Admits (loopStep ports) (RoundFits ports) (.start mbufs) acts) :
    Always (loopStep ports) LosesNothing (.start mbufs) acts := by
  apply always_of_admits (loopStep ports) (fun loop => LosesNothing loop ∧ RoundHasRoom loop)
    LosesNothing (RoundFits ports)
  · rintro loop act next ⟨nothing, slots⟩ round stepped
    have room : FindsRoom loop act := by
      cases act with
      | rx recvd =>
          intro port rest turn
          have left := slots _ turn
          simp only [List.length_cons] at left
          omega
      | pop | controllerSends | controllerDrops => trivial
    exact ⟨step_losesNothing ports loop act next nothing room stepped,
      step_roundHasRoom ports loop act next slots round stepped⟩
  · exact fun _ both => both.1
  · exact ⟨start_losesNothing mbufs, fun rest point => by cases point⟩
  · exact fit

/-- With one port the test for fullness is made before every push. -/
theorem one_port_loses_nothing (port : UInt16) (mbufs : BoundedFifo PortIdMbuf) (acts : List LoopAct) :
    Always (loopStep [port]) LosesNothing (.start mbufs) acts := by
  apply fitting_rounds_lose_nothing
  apply admits_of_forall
  intro loop act
  cases act with
  | rx recvd =>
      intro _ unfilled
      have fits := loop.rx.mbufs.fits
      simp only [BoundedFifo.isFull, decide_eq_false_iff_not] at unfilled
      simp only [List.length_singleton]
      omega
  | pop | controllerSends | controllerDrops => trivial

/-- The receive loop is left only after a stop message was sent. -/
def StopsOnMessage (loop : Loop) : Prop := loop.rx.point = .returned → loop.stop_sent = true

/-- The channel is looked at only when the controller has sent or is gone. -/
def LooksAfterController (loop : Loop) : LoopAct → Prop
  | .rx _ => loop.rx.point = .outer → loop.rx.sender ≠ .silent
  | _ => True

/-- The channel's state tells whether the message was sent, until it is taken. -/
structure Announced (loop : Loop) : Prop where
  stops : StopsOnMessage loop
  silent : loop.rx.sender = .silent → loop.stop_sent = false
  sent : loop.rx.sender = .sent → loop.stop_sent = true

theorem stops_elsewhere (loop : Loop) (running : loop.rx.point ≠ .returned) : StopsOnMessage loop :=
  fun returned => absurd returned running

theorem start_announced (mbufs : BoundedFifo PortIdMbuf) : Announced (.start mbufs) :=
  { stops := stops_elsewhere _ (by simp [Loop.start, Receiving.start]), silent := fun _ => rfl
    sent := fun waiting => by cases waiting }

theorem step_announced (ports : List UInt16) (loop : Loop) (act : LoopAct) (next : Loop)
    (before : Announced loop) (decided : LooksAfterController loop act)
    (stepped : loopStep ports loop act = some next) : Announced next := by
  cases act with
  | rx recvd =>
      obtain ⟨rx, moved, rfl⟩ := rx_step ports loop next recvd stepped
      rcases rxStep_cases ports loop.rx rx recvd moved with
        ⟨outer, alive, rfl⟩ | ⟨_, _, rfl⟩ | ⟨_, rfl⟩ | ⟨_, rfl⟩ | ⟨port, rest, turn, rfl⟩
      · have spoken := decided outer
        cases sender : loop.rx.sender with
        | silent => exact absurd sender spoken
        | gone => exact absurd sender alive
        | sent =>
            exact { stops := fun _ => before.sent sender
                    silent := by simp [Sender.tryRecv]
                    sent := by simp [Sender.tryRecv] }
      · exact { stops := stops_elsewhere _ (by simp), silent := before.silent, sent := before.sent }
      · refine { stops := fun point => ?_, silent := before.silent, sent := before.sent }
        cases full : loop.rx.mbufs.isFull <;> simp [full] at point
      · exact { stops := stops_elsewhere _ (by simp), silent := before.silent, sent := before.sent }
      · have sender := push_sender loop.rx { portid := port, buf := recvd }
        exact { stops := stops_elsewhere _ (by simp)
                silent := fun quiet => before.silent (sender ▸ quiet)
                sent := fun waiting => before.sent (sender ▸ waiting) }
  | pop =>
      obtain ⟨mbufs, taken, _, _, rfl⟩ := pop_step ports loop next stepped
      exact { stops := before.stops, silent := before.silent, sent := before.sent }
  | controllerSends =>
      obtain rfl := controllerSends_step ports loop next stepped
      exact { stops := fun _ => rfl, silent := by simp, sent := fun _ => rfl }
  | controllerDrops =>
      obtain rfl := controllerDrops_step ports loop next stepped
      exact { stops := before.stops, silent := by simp, sent := by simp }

/-- With nothing sent, `try_recv` returns `Ok(None)` and the loop is left. -/
theorem early_look_stops (ports : List UInt16) (loop : Loop) (act : LoopAct) (next : Loop)
    (before : Announced loop) (early : ¬ LooksAfterController loop act)
    (stepped : loopStep ports loop act = some next) : ¬ StopsOnMessage next := by
  intro stops
  cases act with
  | rx recvd =>
      simp only [LooksAfterController, Classical.not_imp, not_not] at early
      obtain ⟨outer, silent⟩ := early
      obtain ⟨rx, moved, rfl⟩ := rx_step ports loop next recvd stepped
      simp only [rxStep, outer, silent, Sender.tryRecv, Option.some.injEq] at moved
      subst moved
      have sent := stops rfl
      rw [before.silent silent] at sent
      cases sent
  | pop | controllerSends | controllerDrops => exact early trivial

/-- `rx_main` stops only on a stop message, at any point of a run, exactly when it looks
at the channel only after the controller has sent or is gone. -/
theorem stops_on_message_iff (ports : List UInt16) (mbufs : BoundedFifo PortIdMbuf)
    (acts : List LoopAct) (executed : (run (loopStep ports) (.start mbufs) acts).isSome) :
    Always (loopStep ports) StopsOnMessage (.start mbufs) acts ↔
      Admits (loopStep ports) LooksAfterController (.start mbufs) acts := by
  apply always_iff_admits (loopStep ports) Announced StopsOnMessage LooksAfterController
  · exact step_announced ports
  · exact fun _ announced => announced.stops
  · exact early_look_stops ports
  · exact start_announced mbufs
  · exact executed

theorem message_first_stops_iff :
    Always (loopStep [0]) StopsOnMessage (.start (.empty 4)) [.controllerSends, .rx []] ↔
      Admits (loopStep [0]) LooksAfterController (.start (.empty 4)) [.controllerSends, .rx []] :=
  stops_on_message_iff [0] (.empty 4) _ rfl

/-- The controller does nothing and the first iteration is the last. -/
theorem silent_controller_stops :
    ¬ ∀ (ports : List UInt16) (mbufs : BoundedFifo PortIdMbuf) (acts : List LoopAct) (reached : Loop),
      run (loopStep ports) (.start mbufs) acts = some reached → StopsOnMessage reached := by
  intro claimed
  have stops := claimed [0] (.empty 4) [.rx []] _ rfl
  cases stops rfl

/-- The state after so many steps of one poll, or after its last one; `recvd` has what
the port at hand receives at each. -/
def pollFor (ports : List UInt16) (recvd : Nat → List RteMbuf) (rx : Receiving) : Nat → Receiving
  | 0 => rx
  | steps + 1 =>
      let reached := pollFor ports recvd rx steps
      (rxStep ports reached (recvd steps)).getD reached

/-- Only its end stops a poll: the body of `rx_main` has no await. -/
def PollEnds (ports : List UInt16) (recvd : Nat → List RteMbuf) (rx : Receiving) : Prop :=
  ∃ steps, (pollFor ports recvd rx steps).point = .returned

/-- `rx_main` runs and nobody is left to stop it. -/
def Unstoppable (rx : Receiving) : Prop := rx.sender = .gone ∧ rx.point ≠ .returned

/-- With the sender gone every look at the channel sends `rx_main` round again. -/
theorem rxStep_unstoppable (ports : List UInt16) (rx next : Receiving) (recvd : List RteMbuf)
    (before : Unstoppable rx) (stepped : rxStep ports rx recvd = some next) : Unstoppable next := by
  obtain ⟨gone, running⟩ := before
  rcases rxStep_cases ports rx next recvd stepped with
    ⟨_, alive, _⟩ | ⟨_, _, rfl⟩ | ⟨_, rfl⟩ | ⟨_, rfl⟩ | ⟨port, rest, _, rfl⟩
  · exact absurd gone alive
  · exact ⟨gone, fun returned => by cases returned⟩
  · refine ⟨gone, ?_⟩
    cases full : rx.mbufs.isFull <;> simp
  · exact ⟨gone, fun returned => by cases returned⟩
  · exact ⟨(push_sender rx _).trans gone, fun returned => by cases returned⟩

theorem pollFor_unstoppable (ports : List UInt16) (recvd : Nat → List RteMbuf) (rx : Receiving)
    (start : Unstoppable rx) (steps : Nat) : Unstoppable (pollFor ports recvd rx steps) := by
  induction steps with
  | zero => exact start
  | succ steps ih =>
      simp only [pollFor]
      cases moved : rxStep ports (pollFor ports recvd rx steps) (recvd steps) with
      | none => exact ih
      | some next => exact rxStep_unstoppable ports _ next (recvd steps) ih moved

theorem start_unstoppable (mbufs : BoundedFifo PortIdMbuf) : Unstoppable (.start .gone mbufs) :=
  ⟨rfl, fun returned => by cases returned⟩

/-- A poll of `rx_main` gives control back exactly when the sender is not gone, whatever
the ports, the queue and the bursts. -/
theorem poll_ends_iff (ports : List UInt16) (recvd : Nat → List RteMbuf) (sender : Sender)
    (mbufs : BoundedFifo PortIdMbuf) :
    PollEnds ports recvd (.start sender mbufs) ↔ sender ≠ .gone := by
  constructor
  · rintro ⟨steps, returned⟩ gone
    subst gone
    exact (pollFor_unstoppable ports recvd _ (start_unstoppable mbufs) steps).2 returned
  · intro present
    refine ⟨1, ?_⟩
    cases sender with
    | silent => rfl
    | sent => rfl
    | gone => exact absurd rfl present

/-- The sender dropped: the poll of `rx_main` never ends. -/
theorem dropped_sender_spins :
    ¬ ∀ (ports : List UInt16) (recvd : Nat → List RteMbuf) (sender : Sender)
        (mbufs : BoundedFifo PortIdMbuf), 0 < mbufs.capacity →
      PollEnds ports recvd (.start sender mbufs) := by
  intro claimed
  obtain ⟨steps, returned⟩ := claimed [0] (fun _ => []) .gone (.empty 4) (by decide)
  exact (pollFor_unstoppable [0] (fun _ => []) _ (start_unstoppable _) steps).2 returned

end L2Switch.ReceiveRuns
