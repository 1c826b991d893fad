import L2Switch.Histories
import L2Switch.RingChannel

/-!
What `Ring::enqueue` takes and what `Ring::dequeue` gives back, over any sequence of
calls on one `Ring` whose rte_ring may hold packets already. A call's packet is the
caller's own; nothing is assumed about which pointer it carries.
-/
namespace L2Switch.RingExchange
open Histories DpdkRings RingChannel

inductive RingAct where
  | enqueue (pkt : Mbuf)
  | dequeue (pkt : Mbuf)

/-- `accepted` and `handed` have one pointer for each call that returned Ok, oldest
first: the one the ring was given, and the one the caller's packet refers to after it.
`spared` has the caller's packet before and after each dequeue that returned Err. -/
structure Exchange where
  rings : Rings
  accepted : List MbufPtr
  handed : List MbufPtr
  spared : List (Mbuf × Mbuf)

def Exchange.held (exchange : Exchange) (ring : Ring) : List MbufPtr :=
  (exchange.rings.fifo ring.raw).items

/-- What the ring holds already counts as accepted. -/
def Exchange.start (rings : Rings) (ring : Ring) : Exchange :=
  { rings, accepted := (rings.fifo ring.raw).items, handed := [], spared := [] }

def exchangeStep (ring : Ring) (exchange : Exchange) : RingAct → Option Exchange
  | .enqueue pkt =>
      match ring.enqueue exchange.rings pkt with
      | (.ok _, rings) => some { exchange with rings, accepted := exchange.accepted ++ [pkt.getPtr] }
      | (.error _, rings) => some { exchange with rings }
  | .dequeue pkt =>
      match ring.dequeue exchange.rings pkt with
      | (.ok _, after, rings) => some { exchange with rings, handed := exchange.handed ++ [after.getPtr] }
      | (.error _, after, rings) => some { exchange with rings, spared := exchange.spared ++ [(pkt, after)] }

/-- The k-th packet handed out is the k-th accepted one, every accepted packet was
handed out or is still held, and a dequeue that failed left the caller's packet alone. -/
structure HandsOut (ring : Ring) (exchange : Exchange) : Prop where
  in_order : ∀ (k : Nat) (ptr : MbufPtr), exchange.handed[k]? = some ptr → exchange.accepted[k]? = some ptr
  none_lost : exchange.handed ++ exchange.held ring = exchange.accepted
  untouched : ∀ pair ∈ exchange.spared, pair.2 = pair.1

/-- A dequeue that finds a packet is called with an `Mbuf` that refers to it already. -/
def RefersToOldest (ring : Ring) (exchange : Exchange) : RingAct → Prop
  | .enqueue _ => True
  | .dequeue pkt => ∀ oldest ∈ (exchange.held ring).head?, pkt.getPtr = oldest

theorem enqueue_step (ring : Ring) (exchange next : Exchange) (pkt : Mbuf)
    (stepped : exchangeStep ring exchange (.enqueue pkt) = some next) :
    ∃ taken, next.held ring = exchange.held ring ++ taken ∧
      next.accepted = exchange.accepted ++ taken ∧ next.handed = exchange.handed ∧
      next.spared = exchange.spared := by
  unfold exchangeStep at stepped
  cases pushed : (exchange.rings.fifo ring.raw).push pkt.getPtr with
  | none =>
      simp only [enqueue_full exchange.rings ring pkt pushed] at stepped
      cases stepped
      exact ⟨[], by simp [Exchange.held]⟩
  | some fifo =>
      have items := (BoundedFifo.push_items _ _ _ pushed).1
      simp only [enqueue_room exchange.rings ring pkt fifo pushed] at stepped
      cases stepped
      exact ⟨[pkt.getPtr], by simp [Exchange.held, items]⟩

/-- The caller's packet is the same after a dequeue, whether it returned Ok or Err. -/
theorem dequeue_step (ring : Ring) (exchange next : Exchange) (pkt : Mbuf)
    (stepped : exchangeStep ring exchange (.dequeue pkt) = some next) :
    next.accepted = exchange.accepted ∧
      ((exchange.held ring = [] ∧ next.held ring = [] ∧ next.handed = exchange.handed ∧
          next.spared = exchange.spared ++ [(pkt, pkt)]) ∨
        ∃ oldest rest, exchange.held ring = oldest :: rest ∧ next.held ring = rest ∧
          next.handed = exchange.handed ++ [pkt.getPtr] ∧ next.spared = exchange.spared) := by
  unfold exchangeStep at stepped
  cases popped : (exchange.rings.fifo ring.raw).pop with
  | none =>
      have empty := (BoundedFifo.pop_none_iff _).mp popped
      simp only [dequeue_empty exchange.rings ring pkt popped] at stepped
      cases stepped
      exact ⟨rfl, Or.inl ⟨empty, empty, rfl, rfl⟩⟩
  | some taken =>
      obtain ⟨oldest, fifo⟩ := taken
      have items := (BoundedFifo.pop_items _ _ _ popped).1
      simp only [dequeue_some exchange.rings ring pkt oldest fifo popped] at stepped
      cases stepped
      exact ⟨rfl, Or.inr ⟨oldest, fifo.items, items, by simp [Exchange.held], rfl, rfl⟩⟩

theorem exchange_total (ring : Ring) (exchange : Exchange) (act : RingAct) :
    (exchangeStep ring exchange act).isSome := by
  unfold exchangeStep
  cases act with
  | enqueue pkt =>
      dsimp only
      split <;> rfl
  | dequeue pkt =>
      dsimp only
      split <;> rfl

/-- The order of the packets follows from the contents equation. -/
theorem handsOut_of_contents (ring : Ring) (exchange : Exchange)
    (contents : exchange.handed ++ exchange.held ring = exchange.accepted)
    (untouched : ∀ pair ∈ exchange.spared, pair.2 = pair.1) : HandsOut ring exchange := by
  refine { in_order := ?_, none_lost := contents, untouched }
  intro k ptr found
  obtain ⟨inside, _⟩ := List.getElem?_eq_some_iff.mp found
  rw [← contents, List.getElem?_append_left inside, found]

theorem start_handsOut (rings : Rings) (ring : Ring) : HandsOut ring (.start rings ring) := by
  apply handsOut_of_contents
  · rfl
  · intro pair member
    cases member

theorem step_handsOut (ring : Ring) (exchange : Exchange) (act : RingAct) (next : Exchange)
    (before : HandsOut ring exchange) (refers : RefersToOldest ring exchange act)
    (stepped : exchangeStep ring exchange act = some next) : HandsOut ring next := by
  cases act with
  | enqueue pkt =>
      obtain ⟨taken, held, accepted, handed, spared⟩ := enqueue_step ring exchange next pkt stepped
      apply handsOut_of_contents
      · rw [handed, held, accepted, ← List.append_assoc, before.none_lost]
      · rw [spared]
        exact before.untouched
  | dequeue pkt =>
      obtain ⟨accepted, failed | found⟩ := dequeue_step ring exchange next pkt stepped
      · obtain ⟨empty, still, handed, spared⟩ := failed
        apply handsOut_of_contents
        · rw [handed, still, accepted, ← before.none_lost, empty]
        · rw [spared]
          intro pair member
          rcases List.mem_append.mp member with earlier | last
          · exact before.untouched pair earlier
          · obtain rfl := List.mem_singleton.mp last
            rfl
      · obtain ⟨oldest, rest, held, left, handed, spared⟩ := found
        have same : pkt.getPtr = oldest := refers oldest (by rw [held]; rfl)
        apply handsOut_of_contents
        · rw [handed, left, accepted, ← before.none_lost, held, same, List.append_assoc]
          rfl
        · rw [spared]
          exact before.untouched

/-- Any other packet keeps its old pointer while the ring's one is gone. -/
theorem stale_loses (ring : Ring) (exchange : Exchange) (act : RingAct) (next : Exchange)
    (before : HandsOut ring exchange) (stale : ¬ RefersToOldest ring exchange act)
    (stepped : exchangeStep ring exchange act = some next) : ¬ HandsOut ring next := by
  intro after
  cases act with
  | enqueue pkt => exact stale trivial
  | dequeue pkt =>
      obtain ⟨accepted, failed | found⟩ := dequeue_step ring exchange next pkt stepped
      · refine stale fun oldest head => ?_
        rw [failed.1] at head
        cases head
      · obtain ⟨oldest, rest, held, left, handed, _⟩ := found
        have contents := after.none_lost
        rw [handed, left, accepted, ← before.none_lost, held, List.append_assoc,
          List.append_cancel_left_eq] at contents
        refine stale fun other head => ?_
        rw [held] at head
        cases head
        exact (List.cons_eq_cons.mp contents).1

/-- `dequeue` hands out what `enqueue` put in, at every point of a sequence of calls,
exactly when every dequeue that finds a packet is given an `Mbuf` that refers to that
very packet. -/
theorem hands_out_iff (rings : Rings) (ring : Ring) (acts : List RingAct) :
    Always (exchangeStep ring) (HandsOut ring) (.start rings ring) acts ↔
      Admits (exchangeStep ring) (RefersToOldest ring) (.start rings ring) acts := by
  have executed := run_isSome_of_total (exchangeStep ring) (exchange_total ring)
    (.start rings ring) acts
  apply always_iff_admits (exchangeStep ring) (HandsOut ring) (HandsOut ring) (RefersToOldest ring)
  · exact step_handsOut ring
  · exact fun _ handsOut => handsOut
  · exact stale_loses ring
  · exact start_handsOut rings ring
  · exact executed

/-- One packet in and one dequeue into another `Mbuf`, which keeps its own pointer. -/
theorem dequeued_packet_lost :
    ¬ ∀ (rings : Rings) (ring : Ring) (acts : List RingAct) (reached : Exchange),
      run (exchangeStep ring) (.start rings ring) acts = some reached → HandsOut ring reached := by
  intro claimed
  have handsOut := claimed (Rings.none.created "RX-0" 32) { client_id := 0, rtype := .RX, raw := 1 }
    [.enqueue { inner := .Original 1 }, .dequeue { inner := .Original 2 }] _ rfl
  have first := handsOut.in_order 0 2 rfl
  revert first
  decide

end L2Switch.RingExchange
