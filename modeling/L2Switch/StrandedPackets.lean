import L2Switch.RingOwnership

/-!
What becomes of packets in the whole data plane. Either end of a channel sends on the
ring labelled TX and receives from the one labelled RX, so what one end puts in the other
never takes out. `accepted` keeps, for each ring, the packets whose send returned Ok.
-/
namespace L2Switch.StrandedPackets
open Histories DpdkRings RingChannel EngineRegistry RegistryHistory RingOwnership

structure Traffic where
  world : World
  accepted : RingPtr → List MbufPtr

def Traffic.new : Traffic := { world := .new, accepted := fun _ => [] }

def Traffic.rings (traffic : Traffic) : Rings := traffic.world.registry.rings

/-- The channel a send goes through, whoever calls it, and its packet. -/
def senderOf (world : World) : WorldAct → Option (Channel × Mbuf)
  | .engineSend key pkt => (world.registry.ring_map.lookup key).map fun channel => (channel, pkt)
  | .clientSend client pkt => (world.channelOf client).map fun channel => (channel, pkt)
  | _ => none

def noted (traffic : Traffic) (act : WorldAct) : RingPtr → List MbufPtr :=
  match senderOf traffic.world act with
  | none => traffic.accepted
  | some (channel, pkt) =>
      match (channel.send traffic.rings pkt).1 with
      | .ok _ =>
          Function.update traffic.accepted channel.tx_q.raw
            (traffic.accepted channel.tx_q.raw ++ [pkt.getPtr])
      | .error _ => traffic.accepted

def trafficStep (traffic : Traffic) (act : WorldAct) : Option Traffic :=
  (worldStep traffic.world act).map fun world => { world, accepted := noted traffic act }

/-- The engine's map or a client has the channel. -/
def Holds (world : World) (channel : Channel) : Prop :=
  (∃ key, world.registry.ring_map.lookup key = some channel) ∨
    ∃ client, world.channelOf client = some channel

/-- Nobody can receive anything, and what was sent on a ring is in it for as long as the
ring lives: once it is full, nothing more can be sent either. -/
structure Stranded (traffic : Traffic) : Prop where
  unreceived : ∀ channel pkt, Holds traffic.world channel → ¬ traffic.rings.Freed channel.rx_q.raw →
    (channel.receive traffic.rings pkt).1 ≠ .ok ()
  kept : ∀ channel, Holds traffic.world channel → ¬ traffic.rings.Freed channel.tx_q.raw →
    (traffic.rings.fifo channel.tx_q.raw).items = traffic.accepted channel.tx_q.raw
  bounded : ∀ channel, Holds traffic.world channel → ¬ traffic.rings.Freed channel.tx_q.raw →
    (traffic.accepted channel.tx_q.raw).length ≤ PACKET_READ_SIZE - 1
  refused : ∀ channel pkt, Holds traffic.world channel → ¬ traffic.rings.Freed channel.tx_q.raw →
    (traffic.accepted channel.tx_q.raw).length = PACKET_READ_SIZE - 1 →
      (channel.send traffic.rings pkt).1 ≠ .ok ()

def Labelled (rings : Rings) (label : String) (ring : RingPtr) : Prop :=
  rings.Created ring ∧ ∃ rest, rings.name ring = label ++ rest

def Wired (rings : Rings) (channel : Channel) : Prop :=
  Labelled rings "TX-" channel.tx_q.raw ∧ Labelled rings "RX-" channel.rx_q.raw

/-- Creations and frees: what lives on is as it was, and what is new is empty. -/
structure Evolves (before after : Rings) : Prop where
  tidy : after.Tidy
  next_le : before.next ≤ after.next
  created : ∀ ring, before.Created ring → after.Created ring
  names : ∀ ring < before.next, after.name ring = before.name ring
  live : ∀ ring, after.Live ring →
    (before.Live ring ∧ after.fifo ring = before.fifo ring) ∨
      (before.next ≤ ring ∧ after.fifo ring = .empty (PACKET_READ_SIZE - 1))

theorem evolves_refl (rings : Rings) (tidy : rings.Tidy) : Evolves rings rings :=
  ⟨tidy, Nat.le_refl _, fun _ made => made, fun _ _ => rfl, fun _ live => Or.inl ⟨live, rfl⟩⟩

theorem evolves_trans (first second third : Rings) (one : Evolves first second)
    (two : Evolves second third) : Evolves first third := by
  refine { tidy := two.tidy, next_le := Nat.le_trans one.next_le two.next_le
           created := fun ring made => two.created ring (one.created ring made)
           names := fun ring below => ?_, live := fun ring live => ?_ }
  · rw [two.names ring (Nat.lt_of_lt_of_le below one.next_le), one.names ring below]
  · rcases two.live ring live with ⟨still, same⟩ | ⟨beyond, fresh⟩
    · rw [same]
      exact one.live ring still
    · exact Or.inr ⟨Nat.le_trans one.next_le beyond, fresh⟩

theorem created_evolves (rings : Rings) (tidy : rings.Tidy) (name : String)
    (free_name : rings.registry name = none) :
    Evolves rings (rings.created name PACKET_READ_SIZE) := by
  have made := created_eq rings name PACKET_READ_SIZE free_name
  refine { tidy := created_tidy rings tidy name PACKET_READ_SIZE free_name, next_le := ?_
           created := fun ring known => ?_, names := fun ring below => ?_
           live := fun ring live => ?_ }
  · rw [made]
    exact Nat.le_succ _
  · rw [made]
    exact List.mem_cons_of_mem _ known
  · rw [made]
    simp [Nat.ne_of_lt below]
  · rw [made] at live ⊢
    by_cases same : ring = rings.next
    · subst same
      exact Or.inr ⟨Nat.le_refl _, by simp⟩
    · refine Or.inl ⟨?_, by simp [same]⟩
      simpa [Rings.Live, Rings.Created, Rings.Freed, same] using live

theorem free_evolves (rings : Rings) (tidy : rings.Tidy) (ring : RingPtr)
    (made : rings.Created ring) : Evolves rings (rteRingFree rings ring) :=
  { tidy := free_tidy rings tidy ring made, next_le := Nat.le_refl _
    created := fun _ known => List.mem_cons_of_mem _ known, names := fun _ _ => rfl
    live := fun other live => Or.inl ⟨((free_live rings ring other).mp live).2, rfl⟩ }

theorem drop_evolves (rings : Rings) (tidy : rings.Tidy) (channel : Channel)
    (wired : Wired rings channel) : Evolves rings (channel.drop rings) := by
  have first := free_evolves rings tidy channel.tx_q.raw wired.1.1
  have second := free_evolves _ first.tidy channel.rx_q.raw (first.created _ wired.2.1)
  exact evolves_trans rings _ _ first second

theorem labelled_evolves (before after : Rings) (tidy : before.Tidy) (evolves : Evolves before after)
    (label : String) (ring : RingPtr) (labelled : Labelled before label ring) :
    Labelled after label ring := by
  obtain ⟨made, rest, named⟩ := labelled
  refine ⟨evolves.created ring made, rest, ?_⟩
  rw [evolves.names ring (tidy.created_below ring made), named]

theorem wired_evolves (before after : Rings) (tidy : before.Tidy) (evolves : Evolves before after)
    (channel : Channel) (wired : Wired before channel) : Wired after channel :=
  ⟨labelled_evolves before after tidy evolves "TX-" _ wired.1,
    labelled_evolves before after tidy evolves "RX-" _ wired.2⟩

theorem registered_labelled (rings : Rings) (tidy : rings.Tidy) (label rest : String)
    (ring : RingPtr) (found : rings.registry (label ++ rest) = some ring) :
    Labelled rings label ring :=
  ⟨(registered_live rings tidy _ ring found).1, rest, tidy.registered _ ring found⟩

theorem created_labelled (rings : Rings) (label rest : String)
    (free_name : rings.registry (label ++ rest) = none) :
    Labelled (rings.created (label ++ rest) PACKET_READ_SIZE) label rings.next := by
  rw [created_eq rings _ PACKET_READ_SIZE free_name]
  exact ⟨List.mem_cons_self, rest, by simp⟩

/-- No ring has both labels. -/
theorem labels_apart (rings : Rings) (ring : RingPtr) (tx : Labelled rings "TX-" ring)
    (rx : Labelled rings "RX-" ring) : False := by
  obtain ⟨_, txRest, txName⟩ := tx
  obtain ⟨_, rxRest, rxName⟩ := rx
  have texts := congrArg String.toList (txName.symm.trans rxName)
  simp at texts

structure Straightened (traffic : Traffic) : Prop where
  tidy : traffic.rings.Tidy
  held : ∀ channel, Holds traffic.world channel → Wired traffic.rings channel
  idle : ∀ ring, traffic.rings.Live ring → Labelled traffic.rings "RX-" ring →
    (traffic.rings.fifo ring).items = []
  kept : ∀ ring, traffic.rings.Live ring →
    (traffic.rings.fifo ring).items = traffic.accepted ring
  room : ∀ ring, traffic.rings.Live ring →
    (traffic.rings.fifo ring).capacity = PACKET_READ_SIZE - 1
  fresh : ∀ ring, traffic.rings.next ≤ ring → traffic.accepted ring = []

theorem new_straightened : Straightened .new :=
  { tidy := none_tidy
    held := by
      rintro channel (⟨key, mapped⟩ | ⟨client, attached⟩)
      · simp [Traffic.new, World.new, Registry.new] at mapped
      · simp [Traffic.new, World.new, World.channelOf] at attached
    idle := fun ring live => nomatch live.1
    kept := fun ring live => nomatch live.1
    room := fun ring live => nomatch live.1
    fresh := fun _ _ => rfl }

/-- Where nobody can receive and rings keep what they accept. -/
theorem straightened_stranded (traffic : Traffic) (straight : Straightened traffic) :
    Stranded traffic := by
  have tx_live : ∀ channel, Holds traffic.world channel →
      ¬ traffic.rings.Freed channel.tx_q.raw → traffic.rings.Live channel.tx_q.raw :=
    fun channel held unfreed => ⟨(straight.held channel held).1.1, unfreed⟩
  refine { unreceived := fun channel pkt held unfreed => ?_
           kept := fun channel held unfreed => straight.kept _ (tx_live channel held unfreed)
           bounded := fun channel held unfreed => ?_
           refused := fun channel pkt held unfreed full => ?_ }
  · have rx := (straight.held channel held).2
    have empty := straight.idle channel.rx_q.raw ⟨rx.1, unfreed⟩ rx
    have refused :=
      dequeue_empty traffic.rings channel.rx_q pkt ((BoundedFifo.pop_none_iff _).mpr empty)
    simp [Channel.receive, refused]
  · have live := tx_live channel held unfreed
    rw [← straight.kept _ live, ← straight.room _ live]
    exact (traffic.rings.fifo channel.tx_q.raw).fits
  · have live := tx_live channel held unfreed
    rw [← straight.kept _ live, ← straight.room _ live] at full
    have rejected : (traffic.rings.fifo channel.tx_q.raw).push pkt.getPtr = none := by
      rw [← Option.not_isSome_iff_eq_none, BoundedFifo.push_isSome_iff, full]
      exact Nat.lt_irrefl _
    simp [Channel.send, enqueue_full traffic.rings channel.tx_q pkt rejected]

theorem evolved_straightened (traffic : Traffic) (straight : Straightened traffic) (world : World)
    (evolves : Evolves traffic.rings world.registry.rings)
    (held : ∀ channel, Holds world channel →
      Holds traffic.world channel ∨ Wired world.registry.rings channel) :
    Straightened { world, accepted := traffic.accepted } := by
  refine { tidy := evolves.tidy, held := fun channel holds => ?_, idle := fun ring live labelled => ?_
           kept := fun ring live => ?_, room := fun ring live => ?_, fresh := fun ring beyond => ?_ }
  · rcases held channel holds with before | wired
    · exact wired_evolves _ _ straight.tidy evolves channel (straight.held channel before)
    · exact wired
  · rcases evolves.live ring live with ⟨still, same⟩ | ⟨_, fresh⟩
    · obtain ⟨_, rest, named⟩ := labelled
      have below := straight.tidy.created_below ring still.1
      have before := straight.idle ring still
        ⟨still.1, rest, (evolves.names ring below).symm.trans named⟩
      exact (congrArg BoundedFifo.items same).trans before
    · exact congrArg BoundedFifo.items fresh
  · rcases evolves.live ring live with ⟨still, same⟩ | ⟨beyond, fresh⟩
    · exact (congrArg BoundedFifo.items same).trans (straight.kept ring still)
    · exact (congrArg BoundedFifo.items fresh).trans (straight.fresh ring beyond).symm
  · rcases evolves.live ring live with ⟨still, same⟩ | ⟨_, fresh⟩
    · exact (congrArg BoundedFifo.capacity same).trans (straight.room ring still)
    · exact congrArg BoundedFifo.capacity fresh
  · exact straight.fresh ring (Nat.le_trans evolves.next_le beyond)

/-- The channel that another takes the place of, if any, is dropped. -/
def dropReplaced (rings : Rings) : Option Channel → Rings
  | some replaced => replaced.drop rings
  | none => rings

theorem replaced_evolves (rings : Rings) (tidy : rings.Tidy) (replaced : Option Channel)
    (held : ∀ channel, replaced = some channel → Wired rings channel) :
    Evolves rings (dropReplaced rings replaced) := by
  cases replaced with
  | none => exact evolves_refl rings tidy
  | some channel => exact drop_evolves rings tidy channel (held channel rfl)

/-- A start, however far it gets: what it enters is a channel it has just created. -/
theorem start_evolves (registry : Registry) (tidy : registry.rings.Tidy) (id : UInt16)
    (outcome : Outcome)
    (held : ∀ channel, registry.ring_map.lookup id = some channel → Wired registry.rings channel) :
    Evolves registry.rings (startClient registry id outcome).registry.rings ∧
      ∀ key channel, (startClient registry id outcome).registry.ring_map.lookup key = some channel →
        registry.ring_map.lookup key = some channel ∨
          Wired (startClient registry id outcome).registry.rings channel := by
  rcases ring_new_cases registry.rings id .RX (rxName id) PACKET_READ_SIZE outcome.rx_created with
    ⟨_, rxRefused⟩ | ⟨rxFree, _, rxMade⟩
  · simp only [startClient, rxRefused]
    exact ⟨evolves_refl registry.rings tidy, fun _ _ mapped => Or.inl mapped⟩
  have rxGrown := created_evolves registry.rings tidy (rxName id) rxFree
  have rxLabelled := created_labelled registry.rings "RX-" (toString id.toNat) rxFree
  rcases ring_new_cases (registry.rings.created (rxName id) PACKET_READ_SIZE) id .TX (txName id)
      PACKET_READ_SIZE outcome.tx_created with ⟨_, txRefused⟩ | ⟨txFree, _, txMade⟩
  · simp only [startClient, rxMade, txRefused, Ring.drop]
    exact ⟨evolves_trans _ _ _ rxGrown (free_evolves _ rxGrown.tidy _ rxLabelled.1),
      fun _ _ mapped => Or.inl mapped⟩
  have txGrown := created_evolves _ rxGrown.tidy (txName id) txFree
  have txLabelled := created_labelled _ "TX-" (toString id.toNat) txFree
  have rxStill := labelled_evolves _ _ rxGrown.tidy txGrown "RX-" _ rxLabelled
  have both := evolves_trans _ _ _ rxGrown txGrown
  cases replied : outcome.replied with
  | false =>
      simp only [startClient, rxMade, txMade, replied, Ring.drop, Bool.false_eq_true, ↓reduceIte]
      have txGone := free_evolves _ txGrown.tidy _ txLabelled.1
      have rxGone := free_evolves _ txGone.tidy _ (txGone.created _ rxStill.1)
      exact ⟨evolves_trans _ _ _ both (evolves_trans _ _ _ txGone rxGone),
        fun _ _ mapped => Or.inl mapped⟩
  | true =>
      simp only [startClient, rxMade, txMade, replied, ↓reduceIte]
      -- the channel that is replaced, if any, was wired like every other
      have dropped := replaced_evolves (ringsStarted registry.rings id) txGrown.tidy
        (registry.ring_map.lookup id)
        fun replaced mapped => wired_evolves _ _ tidy both replaced (held replaced mapped)
      refine ⟨evolves_trans _ _ _ both dropped, fun key channel mapped => ?_⟩
      by_cases same : key = id
      · subst same
        simp only [AList.lookup_insert, Option.some.injEq] at mapped
        subst mapped
        exact Or.inr (wired_evolves _ _ txGrown.tidy dropped _ ⟨txLabelled, rxStill⟩)
      · exact Or.inl (by simpa [same] using mapped)

theorem stop_evolves (registry : Registry) (tidy : registry.rings.Tidy) (id : UInt16)
    (held : ∀ channel, registry.ring_map.lookup id = some channel → Wired registry.rings channel) :
    Evolves registry.rings (stopClient registry id).registry.rings ∧
      ∀ key channel, (stopClient registry id).registry.ring_map.lookup key = some channel →
        registry.ring_map.lookup key = some channel := by
  unfold stopClient
  split
  · exact ⟨evolves_refl registry.rings tidy, fun _ _ mapped => mapped⟩
  · dsimp only
    split
    · exact ⟨evolves_refl registry.rings tidy, fun _ _ mapped => mapped⟩
    · next removed mapped =>
        refine ⟨drop_evolves registry.rings tidy removed (held removed mapped),
          fun key channel left => ?_⟩
        by_cases same : key = id
        · subst same
          simp at left
        · simpa [same] using left

theorem status_evolves (registry : Registry) (tidy : registry.rings.Tidy) (call : Call)
    (held : ∀ channel, registry.ring_map.lookup call.id = some channel →
      Wired registry.rings channel) :
    let after := (setClientStatus registry call.id call.m call.outcome).registry
    Evolves registry.rings after.rings ∧ ∀ key channel, after.ring_map.lookup key = some channel →
      registry.ring_map.lookup key = some channel ∨ Wired after.rings channel := by
  unfold setClientStatus
  split
  · exact start_evolves registry tidy call.id call.outcome held
  split
  · unfold readyClient
    split <;> exact ⟨evolves_refl registry.rings tidy, fun _ _ mapped => Or.inl mapped⟩
  split
  · obtain ⟨evolves, mapped⟩ := stop_evolves registry tidy call.id held
    exact ⟨evolves, fun key channel left => Or.inl (mapped key channel left)⟩
  · exact ⟨evolves_refl registry.rings tidy, fun _ _ mapped => Or.inl mapped⟩

theorem handle_straightened (traffic : Traffic) (world : World) (straight : Straightened traffic)
    (call : Call) (stepped : worldStep traffic.world (.handle call) = some world) :
    Straightened { world, accepted := traffic.accepted } := by
  simp only [worldStep, Option.ite_none_right_eq_some, Option.some.injEq] at stepped
  obtain ⟨_, rfl⟩ := stepped
  obtain ⟨evolves, mapped⟩ := status_evolves traffic.world.registry straight.tidy call
    fun channel mine => straight.held channel (Or.inl ⟨call.id, mine⟩)
  refine evolved_straightened traffic straight _ evolves fun channel holds => ?_
  rcases holds with ⟨key, entry⟩ | attached
  · rcases mapped key channel entry with before | wired
    · exact Or.inl (Or.inl ⟨key, before⟩)
    · exact Or.inr wired
  · exact Or.inl (Or.inr attached)

theorem looked_up_labelled (rings : Rings) (tidy : rings.Tidy) (id : UInt16) (rtype : RingType)
    (label tail : String) (ring : Ring)
    (found : ContainerClient.lookupRing rings id rtype label tail = some ring) :
    Labelled rings label ring.raw := by
  unfold ContainerClient.lookupRing rteRingLookup Ring.fromPtr at found
  split at found
  · next raw entry =>
      cases found
      rw [String.append_assoc] at entry
      exact registered_labelled rings tidy label _ raw entry
  · cases found

/-- What a client does to the rings by setting up its channel, and which channel it has then. -/
theorem setup_evolves (rings : Rings) (tidy : rings.Tidy) (self : ContainerClient) (registered : Bool)
    (txTail rxTail : String) (held : ∀ channel, self.channel = some channel → Wired rings channel) :
    Evolves rings (self.setupChannel rings registered txTail rxTail).2 ∧
      ∀ channel, (self.setupChannel rings registered txTail rxTail).1.channel = some channel →
        self.channel = some channel ∨
          Wired (self.setupChannel rings registered txTail rxTail).2 channel := by
  unfold ContainerClient.setupChannel
  split
  · split
    · next t_ring tx =>
        have txLabelled := looked_up_labelled rings tidy self.id .TX "TX-" txTail t_ring tx
        split
        · next r_ring rx =>
            have rxLabelled := looked_up_labelled rings tidy self.id .RX "RX-" rxTail r_ring rx
            have dropped := replaced_evolves rings tidy self.channel held
            refine ⟨dropped, fun channel made => Or.inr ?_⟩
            obtain rfl := Option.some_inj.mp made
            exact wired_evolves rings _ tidy dropped _ ⟨txLabelled, rxLabelled⟩
        · exact ⟨free_evolves rings tidy t_ring.raw txLabelled.1, fun _ mine => Or.inl mine⟩
    · exact ⟨evolves_refl rings tidy, fun _ mine => Or.inl mine⟩
  · exact ⟨evolves_refl rings tidy, fun _ mine => Or.inl mine⟩

theorem setup_straightened (traffic : Traffic) (world : World) (straight : Straightened traffic)
    (client : Nat) (registered : Bool) (txTail rxTail : String)
    (stepped : worldStep traffic.world (.setupChannel client registered txTail rxTail) = some world) :
    Straightened { world, accepted := traffic.accepted } := by
  obtain ⟨self, present, rfl⟩ :=
    setupChannel_step traffic.world world client registered txTail rxTail stepped
  obtain ⟨evolves, made⟩ := setup_evolves traffic.rings straight.tidy self registered txTail rxTail
    fun channel mine => straight.held channel
      (Or.inr ⟨client, by simp [World.channelOf, present, mine]⟩)
  refine evolved_straightened traffic straight _ evolves fun channel holds => ?_
  rcases holds with mapped | ⟨other, attached⟩
  · exact Or.inl (Or.inl mapped)
  · by_cases same : other = client
    · subst same
      simp only [World.channelOf, Function.update_self, Option.bind_some] at attached
      rcases made channel attached with before | wired
      · exact Or.inl (Or.inr ⟨other, by simp [World.channelOf, present, before]⟩)
      · exact Or.inr wired
    · exact Or.inl (Or.inr ⟨other, by simpa [World.channelOf, World.withRings, same] using attached⟩)

theorem dropClient_straightened (traffic : Traffic) (world : World) (straight : Straightened traffic)
    (client : Nat) (stepped : worldStep traffic.world (.dropClient client) = some world) :
    Straightened { world, accepted := traffic.accepted } := by
  obtain ⟨self, present, rfl⟩ := dropClient_step traffic.world world client stepped
  have evolves : Evolves traffic.rings (self.drop traffic.rings) := by
    unfold ContainerClient.drop
    split
    · next channel mine =>
        exact drop_evolves traffic.rings straight.tidy channel (straight.held channel
          (Or.inr ⟨client, by simp [World.channelOf, present, mine]⟩))
    · exact evolves_refl traffic.rings straight.tidy
  refine evolved_straightened traffic straight _ evolves fun channel holds => Or.inl ?_
  rcases holds with mapped | ⟨other, attached⟩
  · exact Or.inl mapped
  · by_cases same : other = client
    · subst same
      simp [World.channelOf] at attached
    · exact Or.inr ⟨other, by simpa [World.channelOf, World.withRings, same] using attached⟩

theorem dropChannels_evolves (rings : Rings) (tidy : rings.Tidy) (ring_map : RingMap)
    (order : List UInt16)
    (held : ∀ key channel, ring_map.lookup key = some channel → Wired rings channel) :
    Evolves rings (dropChannels rings ring_map order) := by
  induction order generalizing rings with
  | nil => exact evolves_refl rings tidy
  | cons key rest ih =>
      simp only [dropChannels]
      split
      · next channel mapped =>
          have first := drop_evolves rings tidy channel (held key channel mapped)
          exact evolves_trans rings _ _ first (ih _ first.tidy fun other another there =>
            wired_evolves rings _ tidy first another (held other another there))
      · exact ih rings tidy held

theorem dropEngine_straightened (traffic : Traffic) (world : World) (straight : Straightened traffic)
    (order : List UInt16) (stepped : worldStep traffic.world (.dropEngine order) = some world) :
    Straightened { world, accepted := traffic.accepted } := by
  simp only [worldStep, Option.ite_none_right_eq_some, Option.some.injEq] at stepped
  obtain ⟨_, rfl⟩ := stepped
  have evolves := dropChannels_evolves traffic.rings straight.tidy traffic.world.registry.ring_map order
    fun key channel mapped => straight.held channel (Or.inl ⟨key, mapped⟩)
  refine evolved_straightened traffic straight _ evolves fun channel holds => Or.inl ?_
  rcases holds with ⟨key, mapped⟩ | attached
  · simp at mapped
  · exact Or.inr attached

/-- A call on one ring: its contents may change, and what was accepted with them. -/
theorem used_straightened (traffic : Traffic) (straight : Straightened traffic) (ring : RingPtr)
    (made : traffic.rings.Created ring) (after : Rings) (used : Used traffic.rings ring after)
    (accepted : RingPtr → List MbufPtr)
    (others : ∀ other, other ≠ ring →
      after.fifo other = traffic.rings.fifo other ∧ accepted other = traffic.accepted other)
    (contents : traffic.rings.Live ring → (after.fifo ring).items = accepted ring ∧
      (after.fifo ring).capacity = (traffic.rings.fifo ring).capacity)
    (idle : traffic.rings.Live ring → Labelled traffic.rings "RX-" ring →
      (after.fifo ring).items = []) :
    Straightened { world := traffic.world.withRings after, accepted } := by
  have live := used_live traffic.rings after ring used
  have tidy := used_tidy traffic.rings after ring used straight.tidy
  have below := straight.tidy.created_below ring made
  have labels : ∀ label other, Labelled after label other ↔ Labelled traffic.rings label other := by
    intro label other
    obtain ⟨fifo, call, rfl | rfl, rfl⟩ := used <;> simp [Labelled, Rings.Created]
  have next : after.next = traffic.rings.next := by
    obtain ⟨fifo, call, _, rfl⟩ := used
    rfl
  refine { tidy, held := fun channel holds => ?_, idle := fun other alive labelled => ?_
           kept := fun other alive => ?_, room := fun other alive => ?_
           fresh := fun other beyond => ?_ }
  · obtain ⟨tx, rx⟩ := straight.held channel holds
    exact ⟨(labels "TX-" _).mpr tx, (labels "RX-" _).mpr rx⟩
  · have before := (live other).mp alive
    by_cases same : other = ring
    · subst same
      exact idle before ((labels "RX-" other).mp labelled)
    · change (after.fifo other).items = []
      rw [(others other same).1]
      exact straight.idle other before ((labels "RX-" other).mp labelled)
  · have before := (live other).mp alive
    change (after.fifo other).items = accepted other
    by_cases same : other = ring
    · subst same
      exact (contents before).1
    · rw [(others other same).1, (others other same).2]
      exact straight.kept other before
  · have before := (live other).mp alive
    change (after.fifo other).capacity = PACKET_READ_SIZE - 1
    by_cases same : other = ring
    · subst same
      rw [(contents before).2]
      exact straight.room other before
    · rw [(others other same).1]
      exact straight.room other before
  · have past : traffic.rings.next ≤ other := next ▸ beyond
    have different : other ≠ ring :=
      fun same => Nat.lt_irrefl _ (Nat.lt_of_lt_of_le below (same ▸ past))
    exact (others other different).2.trans (straight.fresh other past)

theorem send_straightened (traffic : Traffic) (straight : Straightened traffic) (channel : Channel)
    (holds : Holds traffic.world channel) (pkt : Mbuf) (act : WorldAct)
    (sends : senderOf traffic.world act = some (channel, pkt)) :
    Straightened { world := traffic.world.withRings (channel.send traffic.rings pkt).2
                   accepted := noted traffic act } := by
  have tx := (straight.held channel holds).1
  have used := enqueue_used traffic.rings channel.tx_q pkt
  cases pushed : (traffic.rings.fifo channel.tx_q.raw).push pkt.getPtr with
  | none =>
      have refused := enqueue_full traffic.rings channel.tx_q pkt pushed
      simp only [noted, sends, Channel.send, refused] at used ⊢
      exact used_straightened traffic straight channel.tx_q.raw tx.1 _ used traffic.accepted
        (fun _ _ => ⟨rfl, rfl⟩) (fun live => ⟨straight.kept _ live, rfl⟩)
        (fun live rx => straight.idle _ live rx)
  | some fifo =>
      have accepted := enqueue_room traffic.rings channel.tx_q pkt fifo pushed
      obtain ⟨items, capacity⟩ := BoundedFifo.push_items _ fifo _ pushed
      simp only [noted, sends, Channel.send, accepted] at used ⊢
      refine used_straightened traffic straight channel.tx_q.raw tx.1 _ used _
        (fun other different => by simp [different]) (fun live => ?_)
        (fun _ rx => (labels_apart traffic.rings _ tx rx).elim)
      simp [items, capacity, straight.kept _ live]

theorem receive_straightened (traffic : Traffic) (straight : Straightened traffic)
    (channel : Channel) (holds : Holds traffic.world channel) (pkt : Mbuf) :
    Straightened { world := traffic.world.withRings (channel.receive traffic.rings pkt).2.2
                   accepted := traffic.accepted } := by
  have rx := (straight.held channel holds).2
  have used : Used traffic.rings channel.rx_q.raw (channel.receive traffic.rings pkt).2.2 :=
    dequeue_used traffic.rings channel.rx_q pkt
  have others : ∀ other, other ≠ channel.rx_q.raw →
      (channel.receive traffic.rings pkt).2.2.fifo other = traffic.rings.fifo other := by
    intro other different
    cases popped : (traffic.rings.fifo channel.rx_q.raw).pop with
    | none =>
        simp [Channel.receive, dequeue_empty traffic.rings channel.rx_q pkt popped]
    | some taken =>
        simp [Channel.receive, dequeue_some traffic.rings channel.rx_q pkt _ _ popped, different]
  -- a ring that lives has nothing to give
  have unchanged : traffic.rings.Live channel.rx_q.raw →
      (channel.receive traffic.rings pkt).2.2.fifo channel.rx_q.raw =
        traffic.rings.fifo channel.rx_q.raw := by
    intro live
    have empty := (BoundedFifo.pop_none_iff _).mpr (straight.idle _ live rx)
    simp [Channel.receive, dequeue_empty traffic.rings channel.rx_q pkt empty]
  refine used_straightened traffic straight channel.rx_q.raw rx.1 _ used traffic.accepted
    (fun other different => ⟨others other different, rfl⟩) (fun live => ?_) (fun live _ => ?_)
  · rw [unchanged live]
    exact ⟨straight.kept _ live, rfl⟩
  · rw [unchanged live]
    exact straight.idle _ live rx

theorem step_straightened (traffic : Traffic) (act : WorldAct) (next : Traffic)
    (straight : Straightened traffic) (stepped : trafficStep traffic act = some next) :
    Straightened next := by
  obtain ⟨world, moved, rfl⟩ := Option.map_eq_some_iff.mp stepped
  cases act with
  | handle call => exact handle_straightened traffic world straight call moved
  | setupChannel client registered txTail rxTail =>
      exact setup_straightened traffic world straight client registered txTail rxTail moved
  | dropClient client => exact dropClient_straightened traffic world straight client moved
  | dropEngine order => exact dropEngine_straightened traffic world straight order moved
  | openClient client id =>
      simp only [worldStep] at moved
      split at moved
      · cases moved
      · next absent =>
          cases moved
          refine evolved_straightened traffic straight _ (evolves_refl traffic.rings straight.tidy)
            fun channel holds => Or.inl ?_
          rcases holds with mapped | ⟨other, attached⟩
          · exact Or.inl mapped
          · by_cases same : other = client
            · subst same
              simp [World.channelOf] at attached
            · exact Or.inr ⟨other, by simpa [World.channelOf, same] using attached⟩
  | engineSend key pkt =>
      simp only [worldStep, Option.ite_none_right_eq_some, Option.some.injEq] at moved
      obtain ⟨_, rfl⟩ := moved
      cases mapped : traffic.world.registry.ring_map.lookup key with
      | none =>
          simp only [engineSend, noted, senderOf, mapped, Option.map_none]
          exact straight
      | some channel =>
          have sent := send_straightened traffic straight channel (Or.inl ⟨key, mapped⟩) pkt
            (.engineSend key pkt) (by simp [senderOf, mapped])
          simp only [engineSend, mapped]
          exact sent
  | engineReceive key pkt =>
      simp only [worldStep, Option.ite_none_right_eq_some, Option.some.injEq] at moved
      obtain ⟨_, rfl⟩ := moved
      cases mapped : traffic.world.registry.ring_map.lookup key with
      | none =>
          simp only [engineReceive, noted, senderOf, mapped]
          exact straight
      | some channel =>
          have received := receive_straightened traffic straight channel (Or.inl ⟨key, mapped⟩) pkt
          simp only [engineReceive, noted, senderOf, mapped]
          exact received
  | clientSend client pkt =>
      obtain ⟨channel, attached, rfl⟩ := Option.map_eq_some_iff.mp moved
      exact send_straightened traffic straight channel (Or.inr ⟨client, attached⟩) pkt
        (.clientSend client pkt) (by simp [senderOf, attached])
  | clientReceive client pkt =>
      obtain ⟨channel, attached, rfl⟩ := Option.map_eq_some_iff.mp moved
      exact receive_straightened traffic straight channel (Or.inr ⟨client, attached⟩) pkt

/-- Whatever the engine and any number of clients do, in any order, and whatever bytes lie
behind the names the clients look up. What C does with a ring that is used after its free is
anybody's guess, so this speaks about the program until that happens. -/
theorem stranded_along (acts : List WorldAct) : Always trafficStep Stranded .new acts :=
  always_of_invariant trafficStep Straightened Stranded step_straightened straightened_stranded
    .new acts new_straightened

end L2Switch.StrandedPackets
