import L2Switch.RingChannel
import L2Switch.RegistryHistory

/-!
The two ends of one client's data plane: the engine holds the channel it created,
the client the one it looked up, and either may send or receive at any time.
`sent` and `received` are kept beside the rings to say what ought to arrive.
-/
namespace L2Switch.DataPlane
open Histories DpdkRings RingChannel EngineRegistry RegistryHistory

inductive Side where
  | engine
  | client
  deriving DecidableEq

def Side.other : Side → Side
  | .engine => .client
  | .client => .engine

/-- `sent` lists the packets a side has successfully sent, oldest first; `received`
counts its successful receives. -/
structure Link where
  rings : Rings
  channel : Side → Channel
  sent : Side → List MbufPtr
  received : Side → Nat

inductive LinkAct where
  | send (side : Side) (pkt : Mbuf)
  | receive (side : Side) (pkt : Mbuf)

def LinkAct.Receives : LinkAct → Prop
  | .send _ _ => False
  | .receive _ _ => True

def linkStep (link : Link) : LinkAct → Option Link
  | .send side pkt =>
      match (link.channel side).send link.rings pkt with
      | (.ok _, rings) =>
          some { link with
            rings
            sent := Function.update link.sent side (link.sent side ++ [pkt.getPtr]) }
      | (.error _, rings) => some { link with rings }
  | .receive side pkt =>
      match (link.channel side).receive link.rings pkt with
      | (.ok _, _, rings) =>
          some { link with
            rings, received := Function.update link.received side (link.received side + 1) }
      | (.error _, _, rings) => some { link with rings }

/-- What the other side has sent and this side has not received yet. -/
def Link.pending (link : Link) (side : Side) : List MbufPtr :=
  (link.sent side.other).drop (link.received side)

def Link.inbox (link : Link) (side : Side) : RingPtr := (link.channel side).rx_q.raw

def Link.outbox (link : Link) (side : Side) : RingPtr := (link.channel side).tx_q.raw

/-- A receive succeeds exactly when a packet of the other side is pending, and
takes the oldest of them off its ring. -/
def Delivers (link : Link) : Prop :=
  ∀ side pkt,
    (((link.channel side).receive link.rings pkt).1 = .ok () ↔ link.pending side ≠ []) ∧
    (((link.channel side).receive link.rings pkt).1 = .ok () →
      ∃ oldest later, link.pending side = oldest :: later ∧
        (link.rings.fifo (link.inbox side)).items =
          oldest :: (((link.channel side).receive link.rings pkt).2.2.fifo (link.inbox side)).items)

theorem linkStep_total (link : Link) (act : LinkAct) : (linkStep link act).isSome := by
  cases act with
  | send side pkt => unfold linkStep; dsimp only; split <;> rfl
  | receive side pkt => unfold linkStep; dsimp only; split <;> rfl

theorem receive_empty (link : Link) (side : Side) (pkt : Mbuf)
    (empty : (link.rings.fifo (link.inbox side)).items = []) :
    (link.channel side).receive link.rings pkt =
      (.error .dpdk_error, pkt,
        { link.rings with log := .dequeue (link.inbox side) :: link.rings.log }) :=
  dequeue_empty link.rings _ pkt ((BoundedFifo.pop_none_iff _).mpr empty)

theorem receive_oldest (link : Link) (side : Side) (pkt : Mbuf) (oldest : MbufPtr)
    (later : List MbufPtr) (held : (link.rings.fifo (link.inbox side)).items = oldest :: later) :
    ∃ fifo, fifo.items = later ∧ (link.channel side).receive link.rings pkt = (.ok (), pkt,
      { link.rings with
        fifo := Function.update link.rings.fifo (link.inbox side) fifo
        log := .dequeue (link.inbox side) :: link.rings.log }) := by
  obtain ⟨fifo, popped, rest⟩ := BoundedFifo.pop_cons _ oldest later held
  exact ⟨fifo, rest, dequeue_some link.rings _ pkt oldest fifo popped⟩

/-- Where every inbox holds exactly what is pending there, the link delivers. -/
theorem delivers_of_contents (link : Link)
    (contents : ∀ side, (link.rings.fifo (link.inbox side)).items = link.pending side) :
    Delivers link := by
  intro side pkt
  cases waiting : link.pending side with
  | nil =>
      have refused := receive_empty link side pkt (by rw [contents, waiting])
      simp [refused]
  | cons oldest later =>
      have held := (contents side).trans waiting
      obtain ⟨fifo, rest, taken⟩ := receive_oldest link side pkt oldest later held
      simp [taken, held, rest]

/-- Each side sends into the inbox of the other. -/
structure Crosswise (link : Link) : Prop where
  apart : link.inbox .engine ≠ link.inbox .client
  across : ∀ side, link.outbox side = link.inbox side.other
  contents : ∀ side, (link.rings.fifo (link.inbox side)).items = link.pending side
  counted : ∀ side, link.received side ≤ (link.sent side.other).length

@[simp] theorem other_other (side : Side) : side.other.other = side := by cases side <;> rfl

@[simp] theorem other_ne (side : Side) : side.other ≠ side := by cases side <;> decide

theorem eq_of_ne_other (reader side : Side) (different : reader ≠ side.other) : reader = side := by
  cases reader <;> cases side <;> simp_all [Side.other]

theorem crosswise_inboxes (link : Link) (wired : Crosswise link) (side : Side) :
    link.inbox side ≠ link.inbox side.other := by
  cases side
  · exact wired.apart
  · exact wired.apart.symm

theorem crosswise_send (link next : Link) (side : Side) (pkt : Mbuf) (wired : Crosswise link)
    (stepped : linkStep link (.send side pkt) = some next) : Crosswise next := by
  cases pushed : (link.rings.fifo (link.outbox side)).push pkt.getPtr with
  | none =>
      have refused := enqueue_full link.rings (link.channel side).tx_q pkt pushed
      simp only [linkStep, Channel.send, refused, Option.some.injEq] at stepped
      subst stepped
      exact ⟨wired.apart, wired.across, wired.contents, wired.counted⟩
  | some fifo =>
      have accepted := enqueue_room link.rings (link.channel side).tx_q pkt fifo pushed
      have grown := (BoundedFifo.push_items _ fifo _ pushed).1
      rw [wired.across side, wired.contents] at grown
      -- only the other side's inbox grows, by the packet that becomes pending there
      have target : (link.channel side).tx_q.raw = link.inbox side.other := wired.across side
      rw [target] at accepted
      simp only [linkStep, Channel.send, accepted, Option.some.injEq] at stepped
      subst stepped
      refine ⟨wired.apart, wired.across, fun reader => ?_, fun reader => ?_⟩
      · by_cases same : reader = side.other
        · subst same
          have counted := wired.counted side.other
          simp only [other_other] at counted
          simp only [Link.pending, Link.inbox, other_other] at grown ⊢
          rw [Function.update_self, Function.update_self, grown,
            List.drop_append_of_le_length counted]
        · obtain rfl := eq_of_ne_other reader side same
          have before := wired.contents reader
          have apart := crosswise_inboxes link wired reader
          simp only [Link.pending, Link.inbox] at before apart ⊢
          rw [Function.update_of_ne apart, Function.update_of_ne (other_ne reader), before]
      · have counted := wired.counted reader
        by_cases same : reader = side.other
        · subst same
          simp only [other_other] at counted
          simpa using Nat.le_succ_of_le counted
        · obtain rfl := eq_of_ne_other reader side same
          simpa using counted

theorem crosswise_receive (link next : Link) (side : Side) (pkt : Mbuf) (wired : Crosswise link)
    (stepped : linkStep link (.receive side pkt) = some next) : Crosswise next := by
  cases waiting : link.pending side with
  | nil =>
      have refused := receive_empty link side pkt (by rw [wired.contents, waiting])
      simp only [linkStep, refused, Option.some.injEq] at stepped
      subst stepped
      exact ⟨wired.apart, wired.across, wired.contents, wired.counted⟩
  | cons oldest later =>
      have held := (wired.contents side).trans waiting
      obtain ⟨fifo, rest, taken⟩ := receive_oldest link side pkt oldest later held
      simp only [linkStep, taken, Option.some.injEq] at stepped
      subst stepped
      -- a pending packet means that not all of what was sent has been counted
      have more : link.received side < (link.sent side.other).length := by
        by_contra short
        rw [Link.pending, List.drop_eq_nil_of_le (Nat.le_of_not_lt short)] at waiting
        cases waiting
      refine ⟨wired.apart, wired.across, fun reader => ?_, fun reader => ?_⟩
      · by_cases same : reader = side
        · subst same
          rw [Link.pending, List.drop_eq_getElem_cons more] at waiting
          simp only [Link.pending, Link.inbox, Function.update_self]
          exact rest.trans (List.cons_eq_cons.mp waiting).2.symm
        · have apart : link.inbox reader ≠ link.inbox side := by
            have between := crosswise_inboxes link wired reader
            rwa [← eq_of_ne_other side reader.other (by simpa using Ne.symm same)] at between
          have before := wired.contents reader
          simp only [Link.pending, Link.inbox] at before apart ⊢
          rw [Function.update_of_ne apart, Function.update_of_ne same, before]
      · by_cases same : reader = side
        · subst same
          simp only [Function.update_self]
          exact more
        · simpa [same] using wired.counted reader

/-- Wired crosswise, the two ends deliver along every interleaving. -/
theorem crosswise_delivers (link : Link) (wired : Crosswise link) (acts : List LinkAct) :
    Always linkStep Delivers link acts := by
  refine always_of_invariant linkStep Crosswise Delivers ?_ ?_ link acts wired
  · intro before act next wired stepped
    cases act with
    | send side pkt => exact crosswise_send before next side pkt wired stepped
    | receive side pkt => exact crosswise_receive before next side pkt wired stepped
  · exact fun reached wired => delivers_of_contents reached wired.contents

/-- Both ends send into one ring and receive from another, and nothing has moved. -/
structure Straight (link : Link) : Prop where
  shared : ∀ side, link.outbox side = link.outbox .engine
  inboxes : ∀ side, (link.rings.fifo (link.inbox side)).items = []
  away : ∀ side, link.inbox side ≠ link.outbox .engine
  room : (link.rings.fifo (link.outbox .engine)).items.length <
    (link.rings.fifo (link.outbox .engine)).capacity
  silent : ∀ side, link.sent side = []
  idle : ∀ side, link.received side = 0

theorem straight_delivers (link : Link) (wired : Straight link) : Delivers link :=
  delivers_of_contents link fun side => by simp [wired.inboxes, Link.pending, wired.silent]

theorem straight_receive (link next : Link) (side : Side) (pkt : Mbuf) (wired : Straight link)
    (stepped : linkStep link (.receive side pkt) = some next) : Straight next := by
  have refused := receive_empty link side pkt (wired.inboxes side)
  simp only [linkStep, refused, Option.some.injEq] at stepped
  subst stepped
  exact ⟨wired.shared, wired.inboxes, wired.away, wired.room, wired.silent, wired.idle⟩

/-- The first packet sent goes into a ring that nobody receives from. -/
theorem straight_send (link next : Link) (side : Side) (pkt : Mbuf) (wired : Straight link)
    (stepped : linkStep link (.send side pkt) = some next) : ¬ Delivers next := by
  intro delivers
  have outbox : (link.channel side).tx_q.raw = link.outbox .engine := wired.shared side
  obtain ⟨fifo, pushed⟩ := Option.isSome_iff_exists.mp
    ((BoundedFifo.push_isSome_iff _ pkt.getPtr).mpr wired.room)
  rw [← outbox] at pushed
  have accepted := enqueue_room link.rings (link.channel side).tx_q pkt fifo pushed
  simp only [linkStep, Channel.send, accepted, outbox, Option.some.injEq] at stepped
  have empty : (next.rings.fifo (next.inbox side.other)).items = [] := by
    subst stepped
    have away := wired.away side.other
    have before := wired.inboxes side.other
    simp only [Link.inbox] at away before ⊢
    rw [Function.update_of_ne away, before]
  have waiting : next.pending side.other = [pkt.getPtr] := by
    subst stepped
    simp [Link.pending, wired.idle, wired.silent]
  have refused := receive_empty next side.other pkt empty
  have arrived := (delivers side.other pkt).1
  rw [refused, waiting] at arrived
  exact nomatch arrived.mpr (List.cons_ne_nil _ _)

/-- The engine's channel for `id` and the one its client sets up once it is registered. -/
def joined (registry : Registry) (id : UInt16) : Option Link :=
  match registry.ring_map.lookup id with
  | none => none
  | some engine =>
      let (client, rings) :=
        ContainerClient.setupChannel registry.rings { id, channel := none } true "" ""
      match client.channel with
      | none => none
      | some channel =>
          some { rings
                 channel := fun | .engine => engine | .client => channel
                 sent := fun _ => [], received := fun _ => 0 }

/-- The client looks up what the engine created, each ring under the engine's own name
for it. -/
theorem joined_mapped (registry : Registry) (sound : Sound registry) (id : UInt16)
    (engine : Channel) (mapped : registry.ring_map.lookup id = some engine) :
    ∃ client : Channel, client.raws = engine.raws ∧ joined registry id = some
      { rings := registry.rings
        channel := fun | .engine => engine | .client => client
        sent := fun _ => [], received := fun _ => 0 } := by
  obtain ⟨tx, rx⟩ := sound.wrapped id engine mapped
  -- the client formats the names exactly as the engine does
  have txFound : rteRingLookup registry.rings ("TX-" ++ toString id.toNat) =
      some engine.tx_q.raw := tx
  have rxFound : rteRingLookup registry.rings ("RX-" ++ toString id.toNat) =
      some engine.rx_q.raw := rx
  refine ⟨{ tx_q := { client_id := id, rtype := .TX, raw := engine.tx_q.raw }
            rx_q := { client_id := id, rtype := .RX, raw := engine.rx_q.raw } }, rfl, ?_⟩
  simp only [joined, mapped, ContainerClient.setupChannel, ↓reduceIte, ContainerClient.lookupRing,
    String.append_empty, txFound, rxFound, Ring.fromPtr]

theorem joined_straight (registry : Registry) (sound : Sound registry)
    (unused : registry.rings.Unused (PACKET_READ_SIZE - 1)) (id : UInt16) (link : Link)
    (up : joined registry id = some link) : Straight link := by
  cases mapped : registry.ring_map.lookup id with
  | none => simp [joined, mapped] at up
  | some engine =>
      obtain ⟨client, same, joins⟩ := joined_mapped registry sound id engine mapped
      obtain ⟨sameTx, sameRx⟩ : client.tx_q.raw = engine.tx_q.raw ∧
          client.rx_q.raw = engine.rx_q.raw := by simpa [Channel.raws] using same
      obtain rfl := Option.some_inj.mp (joins.symm.trans up)
      obtain ⟨tx, rx⟩ := sound.wrapped id engine mapped
      have apart := mapped_apart registry sound id engine mapped
      obtain ⟨txEmpty, txCapacity⟩ := unused _ _ tx
      obtain ⟨rxEmpty, _⟩ := unused _ _ rx
      refine { shared := fun side => ?_, inboxes := fun side => ?_, away := fun side => ?_
               room := ?_, silent := fun _ => rfl, idle := fun _ => rfl }
      · cases side <;> simp [Link.outbox, sameTx]
      · cases side <;> simp [Link.inbox, sameRx, rxEmpty]
      · cases side <;> simp [Link.inbox, Link.outbox, sameRx, Ne.symm apart]
      · simp [Link.outbox, txEmpty, txCapacity, PACKET_READ_SIZE]

theorem straight_delivers_iff (link : Link) (wired : Straight link) (acts : List LinkAct) :
    Always linkStep Delivers link acts ↔ ∀ act ∈ acts, act.Receives := by
  have executed := run_isSome_of_total linkStep linkStep_total link acts
  rw [← admits_acts_iff linkStep LinkAct.Receives link acts executed]
  refine always_iff_admits linkStep Straight Delivers (fun _ act => act.Receives) ?_
    straight_delivers ?_ link acts wired executed
  · intro before act next wired receives stepped
    cases act with
    | send side pkt => exact receives.elim
    | receive side pkt => exact straight_receive before next side pkt wired stepped
  · intro before act next wired sends stepped
    cases act with
    | send side pkt => exact straight_send before next side pkt wired stepped
    | receive side pkt => exact absurd trivial sends

/-- The client looks its `tx_q` up under the name the engine sends on, so whatever the
engine has handled before, the data plane of a registered client works just as long
as nobody sends. -/
theorem delivers_iff_silent (calls : List Call) (past : Past) (id : UInt16) (link : Link)
    (acts : List LinkAct) (history : run callStep Past.new calls = some past)
    (up : joined past.registry id = some link) :
    Always linkStep Delivers link acts ↔ ∀ act ∈ acts, act.Receives := by
  obtain ⟨tracked, unused⟩ := history_unused calls past history
  exact straight_delivers_iff link
    (joined_straight past.registry tracked.sound unused id link up) acts

def firstStart : Call := { id := 0, m := 0, outcome := .granted }

def mixedActs : List LinkAct :=
  [.receive .client { inner := .Original 1 }, .send .engine { inner := .Original 2 }]

theorem first_client_silent_iff : ∃ past link,
    run callStep Past.new [firstStart] = some past ∧ joined past.registry 0 = some link ∧
      (Always linkStep Delivers link mixedActs ↔ ∀ act ∈ mixedActs, act.Receives) :=
  ⟨_, _, rfl, rfl, delivers_iff_silent [firstStart] _ 0 _ mixedActs rfl rfl⟩

/-- The engine's first packet to its first client never arrives. -/
theorem first_packet_stranded :
    ¬ ∀ (past : Past) (link : Link) (acts : List LinkAct),
      run callStep Past.new [firstStart] = some past → joined past.registry 0 = some link →
        Always linkStep Delivers link acts := by
  intro claimed
  obtain ⟨past, handled⟩ : ∃ past, run callStep Past.new [firstStart] = some past := ⟨_, rfl⟩
  obtain ⟨link, up⟩ : ∃ link, joined past.registry 0 = some link := by
    cases handled
    exact ⟨_, rfl⟩
  obtain ⟨tracked, unused⟩ := history_unused _ past handled
  have wired := joined_straight past.registry tracked.sound unused 0 link up
  obtain ⟨next, stepped⟩ := Option.isSome_iff_exists.mp
    (linkStep_total link (.send .engine { inner := .Original 1 }))
  have along := claimed past link [.send .engine { inner := .Original 1 }] handled up
  exact straight_send link next .engine { inner := .Original 1 } wired stepped (along.2 next stepped)

end L2Switch.DataPlane
