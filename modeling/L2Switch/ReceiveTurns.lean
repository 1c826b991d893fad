import L2Switch.ReceiveRuns

/-!
In what order `Engine::rx_main` serves the ports and whom a full queue costs a batch. The
queue is looked at once a round, before the first port has its turn.
-/
namespace L2Switch.ReceiveTurns
open Histories PacketHeaders ProcessPackets ReceiveLoop ReceiveRuns

section Rounds
variable {Elem : Type} [DecidableEq Elem]

/-- So many whole rounds over `order` and a part of the next. -/
def Rounds (order served : List Elem) (rounds : Nat) (part : List Elem) : Prop :=
  served = (List.replicate rounds order).flatten ++ part ∧ part <+: order

theorem rounds_count (order served part : List Elem) (rounds : Nat) (elem : Elem)
    (turns : Rounds order served rounds part) :
    served.count elem = rounds * order.count elem + part.count elem := by
  obtain ⟨rfl, _⟩ := turns
  simp [List.count_append, List.count_flatten, List.map_replicate]

/-- Of two that are listed once, neither is served twice more often than the other. -/
theorem rounds_even (order served part : List Elem) (rounds : Nat)
    (turns : Rounds order served rounds part) (elem other : Elem) (mine : order.count elem = 1)
    (theirs : order.count other = 1) : served.count elem ≤ served.count other + 1 := by
  have short := turns.2.sublist.count_le elem
  rw [rounds_count order served part rounds elem turns,
    rounds_count order served part rounds other turns, mine, theirs]
  omega

end Rounds

/-- The batches received since the start. -/
def received (mbufs : BoundedFifo PortIdMbuf) (loop : Loop) : List PortIdMbuf :=
  loop.rx.received.drop mbufs.items.length

def batchesOf (port : UInt16) (batches : List PortIdMbuf) : List PortIdMbuf :=
  batches.filter fun batch => batch.portid = port

/-- The ports have been served in rounds, any two that are listed once evenly, and the first
port has lost nothing if it is listed once. -/
structure TakesTurns (ports : List UInt16) (mbufs : BoundedFifo PortIdMbuf) (loop : Loop) : Prop where
  rounds : ∃ rounds part, Rounds ports ((received mbufs loop).map PortIdMbuf.portid) rounds part
  even : ∀ port other, ports.count port = 1 → ports.count other = 1 →
    (batchesOf port (received mbufs loop)).length ≤ (batchesOf other (received mbufs loop)).length + 1
  first : ∀ port rest, ports = port :: rest → port ∉ rest →
    batchesOf port loop.rx.pushed = batchesOf port loop.rx.received

/-- What a round has served so far, where one is under way. -/
def Serving (ports part : List UInt16) : RxPoint → Prop
  | .round rest => part ++ rest = ports
  | _ => part = []

/-- At the beginning of a round there is room for a batch. -/
structure InTurn (ports : List UInt16) (mbufs : BoundedFifo PortIdMbuf) (loop : Loop) : Prop where
  turns : ∃ since rounds part, loop.rx.received = mbufs.items ++ since ∧
    since.map PortIdMbuf.portid = (List.replicate rounds ports).flatten ++ part ∧
    Serving ports part loop.rx.point
  room : ports ≠ [] → loop.rx.point = .round ports →
    loop.rx.mbufs.items.length < loop.rx.mbufs.capacity
  first : ∀ port rest, ports = port :: rest → port ∉ rest →
    batchesOf port loop.rx.pushed = batchesOf port loop.rx.received

theorem start_inTurn (ports : List UInt16) (mbufs : BoundedFifo PortIdMbuf) :
    InTurn ports mbufs (.start mbufs) :=
  { turns := ⟨[], 0, [], by simp [Loop.start, Receiving.start], rfl, rfl⟩
    room := fun _ point => by cases point
    first := fun _ _ _ _ => rfl }

theorem serving_prefix (ports part : List UInt16) (point : RxPoint)
    (serving : Serving ports part point) :
    part <+: ports := by
  cases point with
  | round rest => exact ⟨rest, serving⟩
  | outer | inner | returned =>
      obtain rfl : part = [] := serving
      exact List.nil_prefix

theorem inTurn_takesTurns (ports : List UInt16) (mbufs : BoundedFifo PortIdMbuf) (loop : Loop)
    (inTurn : InTurn ports mbufs loop) : TakesTurns ports mbufs loop := by
  obtain ⟨since, rounds, part, accounted, served, serving⟩ := inTurn.turns
  have recent : received mbufs loop = since := by simp [received, accounted]
  have turns : Rounds ports (since.map PortIdMbuf.portid) rounds part :=
    ⟨served, serving_prefix ports part _ serving⟩
  have counted : ∀ port, (batchesOf port since).length = (since.map PortIdMbuf.portid).count port := by
    intro port
    rw [List.count, List.countP_map, List.countP_eq_length_filter, batchesOf]
    rfl
  refine { rounds := ⟨rounds, part, recent ▸ turns⟩, even := ?_, first := inTurn.first }
  intro port other mine theirs
  rw [recent, counted, counted]
  exact rounds_even ports _ part rounds turns port other mine theirs

/-- A turn comes to the end of its round or leaves the ports after it. -/
theorem serving_turn (ports part rest : List UInt16) (port : UInt16)
    (serving : Serving ports part (.round (port :: rest))) :
    Serving ports (part ++ [port]) (.round rest) := by
  simpa [Serving] using serving

theorem serving_other_round (ports part rest : List UInt16) (port : UInt16)
    (serving : Serving ports part (.round (port :: rest))) : rest ≠ ports := by
  intro same
  have counts := congrArg List.length serving
  rw [← same, List.length_append, List.length_cons] at counts
  omega

/-- The first port is served when nobody has been yet. -/
theorem serving_first (part rest later : List UInt16) (port : UInt16) (once : port ∉ later)
    (serving : Serving (port :: later) part (.round (port :: rest))) : part = [] := by
  cases part with
  | nil => rfl
  | cons head part =>
      obtain ⟨_, rfl⟩ := List.cons_eq_cons.mp serving
      simp at once

theorem batchesOf_append (port : UInt16) (batches : List PortIdMbuf) (batch : PortIdMbuf) :
    batchesOf port (batches ++ [batch]) =
      batchesOf port batches ++ if batch.portid = port then [batch] else [] := by
  rw [batchesOf, List.filter_append, batchesOf, List.filter_singleton]
  simp

/-- A turn keeps the first port's account whole where it finds room, if it is its own. -/
theorem first_turn (rx : Receiving) (port front : UInt16) (recvd : List RteMbuf)
    (whole : batchesOf front rx.pushed = batchesOf front rx.received)
    (room : port = front → rx.mbufs.items.length < rx.mbufs.capacity) :
    batchesOf front (rx.push { portid := port, buf := recvd }).pushed =
      batchesOf front (rx.push { portid := port, buf := recvd }).received := by
  by_cases slot : rx.mbufs.items.length < rx.mbufs.capacity
  · obtain ⟨mbufs, _, _, pushed⟩ := push_room rx { portid := port, buf := recvd } slot
    simp only [pushed, batchesOf_append, whole]
  · have other : port ≠ front := fun same => slot (room same)
    simp only [push_full rx _ slot, batchesOf_append, whole, other, ↓reduceIte, List.append_nil]

theorem step_inTurn (ports : List UInt16) (mbufs : BoundedFifo PortIdMbuf) (loop : Loop)
    (act : LoopAct) (next : Loop) (before : InTurn ports mbufs loop)
    (stepped : loopStep ports loop act = some next) : InTurn ports mbufs next := by
  obtain ⟨⟨since, rounds, part, accounted, served, serving⟩, room, first⟩ := before
  cases act with
  | rx recvd =>
      obtain ⟨rx, moved, rfl⟩ := rx_step ports loop next recvd stepped
      rcases rxStep_cases ports loop.rx rx recvd moved with
        ⟨point, _, rfl⟩ | ⟨point, _, rfl⟩ | ⟨point, rfl⟩ | ⟨point, rfl⟩ | ⟨port, rest, point, rfl⟩
      · rw [point] at serving
        exact { turns := ⟨since, rounds, part, accounted, served, serving⟩
                room := fun _ returned => by cases returned
                first := first }
      · rw [point] at serving
        exact { turns := ⟨since, rounds, part, accounted, served, serving⟩
                room := fun _ inner => by cases inner
                first := first }
      · rw [point] at serving
        obtain rfl : part = [] := serving
        cases full : loop.rx.mbufs.isFull with
        | true =>
            exact { turns := ⟨since, rounds, [], accounted, served, rfl⟩
                    room := fun _ outer => by cases outer
                    first := first }
        | false =>
            have fits := loop.rx.mbufs.fits
            simp only [BoundedFifo.isFull, decide_eq_false_iff_not] at full
            exact { turns := ⟨since, rounds, [], accounted, served, rfl⟩
                    room := fun _ _ => Nat.lt_of_le_of_ne fits full
                    first := first }
      · rw [point] at serving
        -- nobody is left in this round: it counts as a whole one from here on
        obtain rfl : part = ports := by simpa [Serving] using serving
        refine { turns := ⟨since, rounds + 1, [], accounted, ?_, rfl⟩
                 room := fun _ inner => by cases inner
                 first := first }
        rw [served, List.replicate_succ', List.flatten_append, List.flatten_singleton, List.append_nil]
      · rw [point] at serving
        refine { turns :=
                   ⟨since ++ [{ portid := port, buf := recvd }], rounds, part ++ [port], ?_, ?_, ?_⟩
                 room := fun _ again => ?_
                 first := fun front later listed once => ?_ }
        · simp only [push_received, accounted, List.append_assoc]
        · rw [List.map_append, served, List.append_assoc]
          rfl
        · exact serving_turn ports part rest port serving
        · exact absurd (RxPoint.round.inj again) (serving_other_round ports part rest port serving)
        · -- room was tested before the round, and the first port takes the first turn of it
          refine first_turn loop.rx port front recvd (first front later listed once) fun same => ?_
          subst same listed
          obtain rfl := serving_first part rest later port once serving
          exact room (by simp) (point.trans (congrArg _ serving))
  | pop =>
      obtain ⟨queue, taken, items, capacity, rfl⟩ := pop_step ports loop next stepped
      refine { turns := ⟨since, rounds, part, accounted, served, serving⟩
               room := fun some_port point => ?_
               first := first }
      have slots := room some_port point
      rw [items, List.length_append] at slots
      simp only [capacity]
      omega
  | controllerSends =>
      obtain rfl := controllerSends_step ports loop next stepped
      exact ⟨⟨since, rounds, part, accounted, served, serving⟩, room, first⟩
  | controllerDrops =>
      obtain rfl := controllerDrops_step ports loop next stepped
      exact ⟨⟨since, rounds, part, accounted, served, serving⟩, room, first⟩

/-- In every run the ports have their turns in the listed order; of two listed once neither is
served twice more often than the other, and a first port that is listed once never loses a
batch. -/
theorem takes_turns_along (ports : List UInt16) (mbufs : BoundedFifo PortIdMbuf)
    (acts : List LoopAct) : Always (loopStep ports) (TakesTurns ports mbufs) (.start mbufs) acts :=
  always_of_invariant (loopStep ports) (InTurn ports mbufs) (TakesTurns ports mbufs)
    (step_inTurn ports mbufs) (inTurn_takesTurns ports mbufs) _ acts (start_inTurn ports mbufs)

end L2Switch.ReceiveTurns
