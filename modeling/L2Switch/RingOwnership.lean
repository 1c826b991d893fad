import L2Switch.RingChannel
import L2Switch.RegistryHistory

/-!
One engine and any number of clients over the same rte_rings, each wrapping them
in `Ring`s that free on drop. What two `Ring`s of one rte_ring may still do to
each other is the subject; packets and statuses come along unchanged.
-/
namespace L2Switch.RingOwnership
open Histories DpdkRings RingChannel EngineRegistry RegistryHistory

structure World where
  registry : Registry
  alive : Bool
  clients : Nat → Option ContainerClient

def World.new : World := { registry := .new, alive := true, clients := fun _ => none }

/-- `dropEngine` carries the order in which the map drops its channels. -/
inductive WorldAct where
  | handle (call : Call)
  | engineSend (key : UInt16) (pkt : Mbuf)
  | engineReceive (key : UInt16) (pkt : Mbuf)
  | openClient (client : Nat) (id : UInt16)
  | setupChannel (client : Nat) (registered : Bool) (txTail rxTail : String)
  | clientSend (client : Nat) (pkt : Mbuf)
  | clientReceive (client : Nat) (pkt : Mbuf)
  | dropClient (client : Nat)
  | dropEngine (order : List UInt16)

def dropChannels (rings : Rings) (ring_map : RingMap) : List UInt16 → Rings
  | [] => rings
  | key :: rest =>
      match ring_map.lookup key with
      | some channel => dropChannels (channel.drop rings) ring_map rest
      | none => dropChannels rings ring_map rest

def World.withRings (world : World) (rings : Rings) : World :=
  { world with registry := { world.registry with rings } }

def World.channelOf (world : World) (client : Nat) : Option Channel :=
  (world.clients client).bind ContainerClient.channel

def worldStep (world : World) : WorldAct → Option World
  | .handle call =>
      if world.alive then
        some { world with
          registry := (setClientStatus world.registry call.id call.m call.outcome).registry }
      else none
  | .engineSend key pkt =>
      if world.alive then
        some (world.withRings (engineSend world.registry.rings world.registry.ring_map key pkt).2)
      else none
  | .engineReceive key pkt =>
      if world.alive then
        some (world.withRings
          (engineReceive world.registry.rings world.registry.ring_map key pkt).2.2)
      else none
  | .openClient client id =>
      match world.clients client with
      | some _ => none
      | none =>
          some { world with
            clients := Function.update world.clients client (some { id, channel := none }) }
  | .setupChannel client registered txTail rxTail =>
      match world.clients client with
      | none => none
      | some self =>
          let (self, rings) := self.setupChannel world.registry.rings registered txTail rxTail
          some { world.withRings rings with
            clients := Function.update world.clients client (some self) }
  | .clientSend client pkt =>
      (world.channelOf client).map fun channel =>
        world.withRings (channel.send world.registry.rings pkt).2
  | .clientReceive client pkt =>
      (world.channelOf client).map fun channel =>
        world.withRings (channel.receive world.registry.rings pkt).2.2
  | .dropClient client =>
      match world.clients client with
      | none => none
      | some self =>
          some { world.withRings (self.drop world.registry.rings) with
            clients := Function.update world.clients client none }
  | .dropEngine order =>
      if world.alive ∧ order.Perm world.registry.ring_map.keys then
        some { world with
          registry :=
            { statusmap := ∅, ring_map := ∅
              rings := dropChannels world.registry.rings world.registry.ring_map order }
          alive := false }
      else none

/-- Every ring freed at most once, none used once it is freed. -/
def World.Safe (world : World) : Prop := SafeLog world.registry.rings.log

def World.Attached (world : World) (ring : RingPtr) : Prop :=
  ∃ client channel, world.channelOf client = some channel ∧ ring ∈ channel.raws

/-- The step frees no ring that another channel still wraps. -/
def Unshared (world : World) : WorldAct → Prop
  | .handle call => call.m = 2 → ∀ channel, world.registry.ring_map.lookup call.id = some channel →
      ∀ ring ∈ channel.raws, ¬ world.Attached ring
  | .setupChannel client registered txTail rxTail => ∀ self, world.clients client = some self →
      registered = true →
      (ContainerClient.lookupRing world.registry.rings self.id .TX "TX-" txTail).isSome →
        (ContainerClient.lookupRing world.registry.rings self.id .RX "RX-" rxTail).isSome ∧
          self.channel = none
  | .dropClient client => world.channelOf client = none
  | .dropEngine _ => ∀ client, world.channelOf client = none
  | _ => True

/-- The engine's map owns every live ring, and clients wrap live rings only. -/
structure Owned (world : World) : Prop where
  sound : Sound world.registry
  safe : world.Safe
  attached : ∀ ring, world.Attached ring → world.registry.rings.Live ring
  stopped : world.alive = false → world.registry.ring_map = ∅

theorem new_owned : Owned World.new :=
  { sound := new_sound
    safe := trivial
    attached := by
      rintro ring ⟨client, channel, held, _⟩
      simp [World.new, World.channelOf] at held
    stopped := nofun }

theorem used_sound (registry : Registry) (sound : Sound registry) (ring : RingPtr) (after : Rings)
    (used : Used registry.rings ring after) : Sound { registry with rings := after } := by
  have tidy := used_tidy registry.rings after ring used sound.tidy
  obtain ⟨fifo, call, _, rfl⟩ := used
  exact { tidy, keys := sound.keys, wrapped := sound.wrapped, owned := sound.owned }

/-- Using a live ring keeps the ownership of every ring. -/
theorem used_owned (world : World) (owned : Owned world) (ring : RingPtr) (after : Rings)
    (live : world.registry.rings.Live ring) (used : Used world.registry.rings ring after) :
    Owned (world.withRings after) :=
  { sound := used_sound world.registry owned.sound ring after used
    safe := (used_safe_iff world.registry.rings after ring used).mpr ⟨live.2, owned.safe⟩
    attached := fun other held =>
      (used_live world.registry.rings after ring used other).mpr (owned.attached other held)
    stopped := owned.stopped }

/-- What one handled message does to safety and to the live rings; a stop frees the
two rings of the channel it removes. -/
theorem status_rings (registry : Registry) (sound : Sound registry) (call : Call) :
    let after := (setClientStatus registry call.id call.m call.outcome).registry
    (SafeLog registry.rings.log → SafeLog after.rings.log) ∧
      ∀ ring, registry.rings.Live ring → after.rings.Live ring ∨
        (call.m = 2 ∧ ∃ channel, registry.ring_map.lookup call.id = some channel ∧
          ring ∈ channel.raws) := by
  rcases status_cases registry sound call.id call.m call.outcome with
    ⟨_, failure, after, failed, scratch, tidy⟩ | ⟨_, able, unknown, entered⟩ | ⟨_, _, ready⟩ |
      ⟨code, removed, mapped, stopped⟩
  · rw [failed]
    exact ⟨scratch.safe, fun ring live =>
      Or.inl ((scratch_live _ after sound.tidy tidy scratch ring).mpr live)⟩
  · have rings : (startedRegistry registry call.id).rings = ringsStarted registry.rings call.id := by
      simp [startedRegistry, unknown]
    have txFree := started_free registry call.id call.outcome able
    rw [entered]
    simp only [rings]
    refine ⟨fun safe => ?_, fun ring live => Or.inl ?_⟩
    · exact created_safe _ _ _ txFree (created_safe _ _ _ able.1 safe)
    · exact created_live _ _ _ txFree ring (created_live _ _ _ able.1 ring live)
  · rw [ready]
    exact ⟨id, fun ring live => Or.inl live⟩
  · rw [stopped]
    refine ⟨fun safe => ?_, fun ring live => ?_⟩
    · refine (channel_drop_safe_iff registry.rings removed).mpr
        ⟨mapped_apart registry sound call.id removed mapped, fun ring wraps => ?_, safe⟩
      exact (mapped_live registry sound call.id removed mapped ring wraps).2
    · by_cases wraps : ring ∈ removed.raws
      · exact Or.inr ⟨code, removed, mapped, wraps⟩
      · exact Or.inl ((channel_drop_live registry.rings removed ring).mpr ⟨wraps, live⟩)

theorem handle_owned (world next : World) (owned : Owned world) (call : Call)
    (unshared : Unshared world (.handle call)) (stepped : worldStep world (.handle call) = some next) :
    Owned next := by
  obtain ⟨safe, live⟩ := status_rings world.registry owned.sound call
  simp only [worldStep] at stepped
  split at stepped
  · next alive =>
      cases stepped
      refine { sound := status_sound world.registry owned.sound call.id call.m call.outcome
               safe := safe owned.safe, attached := fun ring held => ?_
               stopped := fun dead => by simp [alive] at dead }
      rcases live ring (owned.attached ring held) with still | ⟨code, channel, mapped, wraps⟩
      · exact still
      · exact absurd held (unshared code channel mapped ring wraps)
  · cases stepped

theorem engine_send_owned (world : World) (owned : Owned world) (key : UInt16) (pkt : Mbuf) :
    Owned (world.withRings
      (engineSend world.registry.rings world.registry.ring_map key pkt).2) := by
  unfold engineSend
  split
  · next channel mapped =>
      have live := mapped_live world.registry owned.sound key channel mapped channel.tx_q.raw
        (tx_wrapped channel)
      exact used_owned world owned _ _ live (enqueue_used world.registry.rings channel.tx_q pkt)
  · exact owned

theorem engine_receive_owned (world : World) (owned : Owned world) (key : UInt16) (pkt : Mbuf) :
    Owned (world.withRings
      (engineReceive world.registry.rings world.registry.ring_map key pkt).2.2) := by
  unfold engineReceive
  split
  · next channel mapped =>
      have live := mapped_live world.registry owned.sound key channel mapped channel.rx_q.raw
        (rx_wrapped channel)
      exact used_owned world owned _ _ live (dequeue_used world.registry.rings channel.rx_q pkt)
  · exact owned

theorem attached_live (world : World) (owned : Owned world) (client : Nat) (channel : Channel)
    (held : world.channelOf client = some channel) : world.registry.rings.Live channel.tx_q.raw :=
  owned.attached channel.tx_q.raw ⟨client, channel, held, tx_wrapped channel⟩

theorem client_send_owned (world : World) (owned : Owned world) (client : Nat) (channel : Channel)
    (held : world.channelOf client = some channel) (pkt : Mbuf) :
    Owned (world.withRings (channel.send world.registry.rings pkt).2) := by
  have live := attached_live world owned client channel held
  exact used_owned world owned _ _ live (enqueue_used world.registry.rings channel.tx_q pkt)

theorem client_receive_owned (world : World) (owned : Owned world) (client : Nat)
    (channel : Channel) (held : world.channelOf client = some channel) (pkt : Mbuf) :
    Owned (world.withRings (channel.receive world.registry.rings pkt).2.2) := by
  have live := owned.attached channel.rx_q.raw ⟨client, channel, held, rx_wrapped channel⟩
  exact used_owned world owned _ _ live (dequeue_used world.registry.rings channel.rx_q pkt)

/-- Putting a client in place of another costs nothing when its channel wraps live rings. -/
theorem replaced_owned (world : World) (owned : Owned world) (client : Nat)
    (self : Option ContainerClient)
    (wraps : ∀ channel, self.bind ContainerClient.channel = some channel →
      ∀ ring ∈ channel.raws, world.registry.rings.Live ring) :
    Owned { world with clients := Function.update world.clients client self } := by
  refine { sound := owned.sound, safe := owned.safe, stopped := owned.stopped
           attached := fun ring held => ?_ }
  obtain ⟨other, channel, found, member⟩ := held
  by_cases same : other = client
  · subst same
    exact wraps channel (by simpa [World.channelOf] using found) ring member
  · exact owned.attached ring ⟨other, channel, by simpa [World.channelOf, same] using found, member⟩

theorem looked_up_live (world : World) (owned : Owned world) (id : UInt16) (rtype : RingType)
    (label tail : String) (ring : Ring)
    (found : ContainerClient.lookupRing world.registry.rings id rtype label tail = some ring) :
    world.registry.rings.Live ring.raw := by
  unfold ContainerClient.lookupRing rteRingLookup Ring.fromPtr at found
  split at found
  · next raw entry =>
      cases found
      exact registered_live _ owned.sound.tidy _ _ entry
  · cases found

theorem setupChannel_step (world next : World) (client : Nat) (registered : Bool)
    (txTail rxTail : String)
    (stepped : worldStep world (.setupChannel client registered txTail rxTail) = some next) :
    ∃ self, world.clients client = some self ∧
      next = { world.withRings
          (self.setupChannel world.registry.rings registered txTail rxTail).2 with
        clients := Function.update world.clients client
          (some (self.setupChannel world.registry.rings registered txTail rxTail).1) } := by
  simp only [worldStep] at stepped
  split at stepped
  · cases stepped
  · next self present =>
      cases stepped
      exact ⟨self, present, rfl⟩

theorem dropClient_step (world next : World) (client : Nat)
    (stepped : worldStep world (.dropClient client) = some next) :
    ∃ self, world.clients client = some self ∧
      next = { world.withRings (self.drop world.registry.rings) with
        clients := Function.update world.clients client none } := by
  simp only [worldStep] at stepped
  split at stepped
  · cases stepped
  · next self present =>
      cases stepped
      exact ⟨self, present, rfl⟩

theorem setup_owned (world next : World) (owned : Owned world) (client : Nat) (registered : Bool)
    (txTail rxTail : String)
    (unshared : Unshared world (.setupChannel client registered txTail rxTail))
    (stepped : worldStep world (.setupChannel client registered txTail rxTail) = some next) :
    Owned next := by
  obtain ⟨self, present, rfl⟩ :=
    setupChannel_step world next client registered txTail rxTail stepped
  have kept : ∀ channel, (some self).bind ContainerClient.channel = some channel →
      ∀ ring ∈ channel.raws, world.registry.rings.Live ring := fun channel held ring member =>
    owned.attached ring ⟨client, channel, by simpa [World.channelOf, present] using held, member⟩
  have condition := unshared self present
  cases registered with
  | false => exact replaced_owned world owned client (some self) kept
  | true =>
      cases tx : ContainerClient.lookupRing world.registry.rings self.id .TX "TX-" txTail with
      | none =>
          simp only [ContainerClient.setupChannel, ↓reduceIte, tx]
          exact replaced_owned world owned client (some self) kept
      | some t_ring =>
          obtain ⟨rxFound, unattached⟩ := condition rfl (by simp [tx])
          obtain ⟨r_ring, rx⟩ := Option.isSome_iff_exists.mp rxFound
          simp only [ContainerClient.setupChannel, ↓reduceIte, tx, rx, unattached]
          refine replaced_owned world owned client _ fun channel held ring member => ?_
          obtain rfl := Option.some_inj.mp held
          simp only [Channel.raws, List.mem_cons, List.not_mem_nil, or_false] at member
          rcases member with rfl | rfl
          · exact looked_up_live world owned self.id .TX "TX-" txTail t_ring tx
          · exact looked_up_live world owned self.id .RX "RX-" rxTail r_ring rx

theorem dropChannels_erase (rings : Rings) (ring_map : RingMap) (key : UInt16)
    (order : List UInt16) (absent : key ∉ order) :
    dropChannels rings (ring_map.erase key) order = dropChannels rings ring_map order := by
  induction order generalizing rings with
  | nil => rfl
  | cons head rest ih =>
      obtain ⟨different, later⟩ := List.ne_and_not_mem_of_not_mem_cons absent
      have same := AList.lookup_erase_ne (s := ring_map) (Ne.symm different)
      simp only [dropChannels, same]
      split
      · exact ih _ later
      · exact ih _ later

/-- Dropping the whole map is one stop after another. -/
theorem dropped_sound (registry : Registry) (sound : Sound registry) (order : List UInt16)
    (all : order.Perm registry.ring_map.keys) (safe : SafeLog registry.rings.log) :
    SafeLog (dropChannels registry.rings registry.ring_map order).log ∧
      Sound { statusmap := ∅, ring_map := ∅
              rings := dropChannels registry.rings registry.ring_map order } := by
  -- on the keys still to be dropped; the registry that is left stays sound
  induction order generalizing registry with
  | nil =>
      have unmapped : ∀ id, registry.ring_map.lookup id = none := by
        intro id
        rw [AList.lookup_eq_none, AList.mem_keys, ← all.mem_iff]
        exact List.not_mem_nil
      refine ⟨safe, { tidy := sound.tidy, keys := fun id => by simp
                      wrapped := fun id channel found => by simp at found
                      owned := fun name ring found => ?_ }⟩
      obtain ⟨id, mapped, _⟩ := sound.owned name ring found
      simp [unmapped] at mapped
  | cons key rest ih =>
      have unique : (key :: rest).Nodup := all.nodup_iff.mpr registry.ring_map.nodupKeys
      have present : key ∈ registry.ring_map := by
        rw [AList.mem_keys, ← all.mem_iff]
        exact List.mem_cons_self
      obtain ⟨channel, mapped⟩ := Option.isSome_iff_exists.mp (AList.lookup_isSome.mpr present)
      have later : rest.Perm (stoppedRegistry registry key channel).ring_map.keys := by
        have fewer := all.erase key
        rwa [List.erase_cons_head, ← AList.keys_erase] at fewer
      have freed : SafeLog (stoppedRegistry registry key channel).rings.log :=
        (channel_drop_safe_iff registry.rings channel).mpr
          ⟨mapped_apart registry sound key channel mapped,
            fun ring wraps => (mapped_live registry sound key channel mapped ring wraps).2, safe⟩
      have tail := ih _ (stopped_sound registry sound key channel mapped) later freed
      simp only [stoppedRegistry,
        dropChannels_erase _ registry.ring_map key rest (List.nodup_cons.mp unique).1] at tail
      simpa only [dropChannels, mapped] using tail

theorem drop_owned (world next : World) (owned : Owned world) (client : Nat)
    (unshared : Unshared world (.dropClient client))
    (stepped : worldStep world (.dropClient client) = some next) : Owned next := by
  obtain ⟨self, present, rfl⟩ := dropClient_step world next client stepped
  have unattached : self.channel = none := by
    simpa [Unshared, World.channelOf, present] using unshared
  simp only [ContainerClient.drop, unattached]
  exact replaced_owned world owned client none fun channel held => nomatch held

/-- With no client attached, nothing wraps a ring of the map any more. -/
theorem engine_drop_owned (world next : World) (owned : Owned world) (order : List UInt16)
    (unshared : Unshared world (.dropEngine order))
    (stepped : worldStep world (.dropEngine order) = some next) : Owned next := by
  simp only [worldStep, Option.ite_none_right_eq_some, Option.some.injEq] at stepped
  obtain ⟨⟨_, all⟩, rfl⟩ := stepped
  obtain ⟨safe, sound⟩ := dropped_sound world.registry owned.sound order all owned.safe
  refine { sound, safe, stopped := fun _ => rfl, attached := ?_ }
  rintro ring ⟨client, channel, held, _⟩
  have unattached : world.channelOf client = none := unshared client
  exact nomatch (held.symm.trans unattached : some channel = none)

theorem step_owned (world next : World) (act : WorldAct) (owned : Owned world)
    (unshared : Unshared world act) (stepped : worldStep world act = some next) : Owned next := by
  cases act with
  | handle call => exact handle_owned world next owned call unshared stepped
  | engineSend key pkt =>
      simp only [worldStep, Option.ite_none_right_eq_some, Option.some.injEq] at stepped
      obtain ⟨_, rfl⟩ := stepped
      exact engine_send_owned world owned key pkt
  | engineReceive key pkt =>
      simp only [worldStep, Option.ite_none_right_eq_some, Option.some.injEq] at stepped
      obtain ⟨_, rfl⟩ := stepped
      exact engine_receive_owned world owned key pkt
  | openClient client id =>
      simp only [worldStep] at stepped
      split at stepped
      · cases stepped
      · cases stepped
        exact replaced_owned world owned client _ fun channel held => nomatch held
  | setupChannel client registered txTail rxTail =>
      exact setup_owned world next owned client registered txTail rxTail unshared stepped
  | clientSend client pkt =>
      obtain ⟨channel, held, rfl⟩ := Option.map_eq_some_iff.mp stepped
      exact client_send_owned world owned client channel held pkt
  | clientReceive client pkt =>
      obtain ⟨channel, held, rfl⟩ := Option.map_eq_some_iff.mp stepped
      exact client_receive_owned world owned client channel held pkt
  | dropClient client => exact drop_owned world next owned client unshared stepped
  | dropEngine order => exact engine_drop_owned world next owned order unshared stepped

/-- No ring is freed twice or used once freed in a run whose steps never free a ring
that another channel still wraps. -/
theorem safe_while_unshared (acts : List WorldAct)
    (unshared : Admits worldStep Unshared World.new acts) :
    Always worldStep World.Safe World.new acts :=
  always_of_admits worldStep Owned World.Safe Unshared
    (fun world act next owned guarded stepped => step_owned world next act owned guarded stepped)
    (fun _ owned => owned.safe) World.new acts new_owned unshared

theorem dropClient_unsafe (world : World) (client : Nat) (channel : Channel)
    (held : world.channelOf client = some channel) (ring : RingPtr) (wraps : ring ∈ channel.raws)
    (freed : world.registry.rings.Freed ring) :
    ∃ last, worldStep world (.dropClient client) = some last ∧ ¬ last.Safe := by
  obtain ⟨self, present, its⟩ := Option.bind_eq_some_iff.mp held
  refine ⟨_, by simp only [worldStep, present]; rfl, fun safe => ?_⟩
  simp only [World.Safe, World.withRings, ContainerClient.drop, its] at safe
  exact ((channel_drop_safe_iff world.registry.rings channel).mp safe).2.1 ring wraps freed

theorem stop_unsafe (world : World) (alive : world.alive = true) (id : UInt16) (channel : Channel)
    (known : (world.registry.statusmap.lookup id).isSome)
    (mapped : world.registry.ring_map.lookup id = some channel) (ring : RingPtr)
    (wraps : ring ∈ channel.raws) (freed : world.registry.rings.Freed ring) (outcome : Outcome) :
    ∃ last, worldStep world (.handle { id, m := 2, outcome }) = some last ∧ ¬ last.Safe := by
  have stopped := stop_mapped world.registry id outcome channel known mapped
  refine ⟨_, by simp only [worldStep, alive, ↓reduceIte, stopped]; rfl, fun safe => ?_⟩
  exact ((channel_drop_safe_iff world.registry.rings channel).mp safe).2.1 ring wraps freed

/-- Freeing a live ring behind the engine's back makes the engine's own stop a second free. -/
theorem freed_behind_engine (world next : World) (owned : Owned world) (ring : RingPtr)
    (live : world.registry.rings.Live ring) (freed : next.registry.rings.Freed ring)
    (maps : next.registry = { world.registry with rings := next.registry.rings })
    (engine : next.alive = world.alive) (outcome : Outcome) :
    ∃ id last, worldStep next (.handle { id, m := 2, outcome }) = some last ∧ ¬ last.Safe := by
  obtain ⟨id, channel, mapped, wraps⟩ := live_mapped world.registry owned.sound ring live
  have alive : world.alive = true := by
    by_contra dead
    have emptied := owned.stopped (by simpa using dead)
    simp [emptied] at mapped
  have known := owned.sound.keys id
  rw [mapped] at known
  refine ⟨id, stop_unsafe next (engine.trans alive) id channel ?_ ?_ ring wraps freed outcome⟩
  · rw [maps]
    exact known
  · rw [maps]
    exact mapped

theorem dropChannels_freed (rings : Rings) (ring_map : RingMap) (order : List UInt16)
    (ring : RingPtr) :
    (dropChannels rings ring_map order).Freed ring ↔ rings.Freed ring ∨
      ∃ key ∈ order, ∃ channel, ring_map.lookup key = some channel ∧ ring ∈ channel.raws := by
  induction order generalizing rings with
  | nil => simp [dropChannels]
  | cons key rest ih =>
      simp only [dropChannels, List.mem_cons, exists_eq_or_imp]
      split
      · next channel mapped =>
          rw [ih, channel_drop_freed, mapped]
          simp only [Option.some.injEq, exists_eq_left']
          tauto
      · next unmapped =>
          rw [ih, unmapped]
          simp

/-- An unguarded `setup_channel` frees a live ring: the one it found alone, or one of
the channel it replaces. -/
theorem setup_frees_live (world : World) (owned : Owned world) (client : Nat)
    (self : ContainerClient) (present : world.clients client = some self) (registered : Bool)
    (txTail rxTail : String)
    (shared : ¬ Unshared world (.setupChannel client registered txTail rxTail)) :
    ∃ ring, world.registry.rings.Live ring ∧
      (self.setupChannel world.registry.rings registered txTail rxTail).2.Freed ring := by
  simp only [Unshared, not_forall] at shared
  obtain ⟨same, found, accepted, txFound, broken⟩ := shared
  obtain rfl := Option.some_inj.mp (present.symm.trans found)
  subst accepted
  obtain ⟨t_ring, tx⟩ := Option.isSome_iff_exists.mp txFound
  cases rx : ContainerClient.lookupRing world.registry.rings self.id .RX "RX-" rxTail with
  | none =>
      refine ⟨t_ring.raw, looked_up_live world owned self.id .TX "TX-" txTail t_ring tx, ?_⟩
      simp [ContainerClient.setupChannel, tx, rx, Ring.drop]
  | some r_ring =>
      cases its : self.channel with
      | none => exact absurd ⟨by simp [rx], its⟩ broken
      | some channel =>
          have wraps := tx_wrapped channel
          have held : world.channelOf client = some channel := by
            simp [World.channelOf, present, its]
          refine ⟨channel.tx_q.raw, attached_live world owned client channel held, ?_⟩
          simp [ContainerClient.setupChannel, tx, rx, its, channel_drop_freed, wraps]

/-- One more step ends in a state that is not safe. -/
def Doomed (world : World) : Prop :=
  ∃ ending last, worldStep world ending = some last ∧ ¬ last.Safe

theorem stop_doomed (world next : World) (owned : Owned world) (call : Call)
    (shared : ¬ Unshared world (.handle call))
    (stepped : worldStep world (.handle call) = some next) : Doomed next := by
  simp only [Unshared, not_forall, not_not] at shared
  obtain ⟨code, channel, mapped, ring, wraps, client, other, held, also⟩ := shared
  have known := owned.sound.keys call.id
  rw [mapped] at known
  have stopped := stop_mapped world.registry call.id call.outcome channel known mapped
  simp only [worldStep, Option.ite_none_right_eq_some, Option.some.injEq] at stepped
  obtain ⟨_, rfl⟩ := stepped
  refine ⟨.dropClient client, dropClient_unsafe _ client other held ring also ?_⟩
  simp [code, stopped, stoppedRegistry, channel_drop_freed, wraps]

theorem setup_doomed (world next : World) (owned : Owned world) (client : Nat) (registered : Bool)
    (txTail rxTail : String)
    (shared : ¬ Unshared world (.setupChannel client registered txTail rxTail))
    (stepped : worldStep world (.setupChannel client registered txTail rxTail) = some next) :
    Doomed next := by
  obtain ⟨self, present, rfl⟩ :=
    setupChannel_step world next client registered txTail rxTail stepped
  -- the ring it frees is live, so it is still in the engine's map
  obtain ⟨ring, live, freed⟩ := setup_frees_live world owned client self present registered
    txTail rxTail shared
  obtain ⟨id, last, stopped, unsafeEnd⟩ := freed_behind_engine world
    { world.withRings (self.setupChannel world.registry.rings registered txTail rxTail).2 with
      clients := _ } owned ring live freed rfl rfl .granted
  exact ⟨_, last, stopped, unsafeEnd⟩

theorem drop_doomed (world next : World) (owned : Owned world) (client : Nat)
    (shared : ¬ Unshared world (.dropClient client))
    (stepped : worldStep world (.dropClient client) = some next) : Doomed next := by
  obtain ⟨channel, held⟩ := Option.ne_none_iff_exists'.mp shared
  obtain ⟨self, present, its⟩ := Option.bind_eq_some_iff.mp held
  have live := attached_live world owned client channel held
  simp only [worldStep, present, Option.some.injEq] at stepped
  subst stepped
  have freed : (self.drop world.registry.rings).Freed channel.tx_q.raw := by
    simp [ContainerClient.drop, its, channel_drop_freed, tx_wrapped channel]
  obtain ⟨id, last, stopped, unsafeEnd⟩ := freed_behind_engine world
    { world.withRings (self.drop world.registry.rings) with clients := _ } owned _ live freed
    rfl rfl .granted
  exact ⟨_, last, stopped, unsafeEnd⟩

theorem engine_drop_doomed (world next : World) (owned : Owned world) (order : List UInt16)
    (shared : ¬ Unshared world (.dropEngine order))
    (stepped : worldStep world (.dropEngine order) = some next) : Doomed next := by
  simp only [Unshared, not_forall] at shared
  obtain ⟨client, attached⟩ := shared
  obtain ⟨channel, held⟩ := Option.ne_none_iff_exists'.mp attached
  have live := attached_live world owned client channel held
  obtain ⟨id, owner, mapped, owns⟩ := live_mapped world.registry owned.sound _ live
  simp only [worldStep, Option.ite_none_right_eq_some, Option.some.injEq] at stepped
  obtain ⟨⟨_, all⟩, rfl⟩ := stepped
  have listed : id ∈ order := by
    rw [all.mem_iff, ← AList.mem_keys, ← AList.lookup_isSome, mapped]
    rfl
  refine ⟨.dropClient client, dropClient_unsafe _ client channel held _ (tx_wrapped channel) ?_⟩
  exact (dropChannels_freed _ _ order _).mpr (Or.inr ⟨id, listed, owner, mapped, owns⟩)

/-- The condition cannot be weakened: after a step that breaks it one more step,
a client's drop or the engine's stop of a client, frees a ring a second time. -/
theorem shared_free_doomed (world next : World) (act : WorldAct) (owned : Owned world)
    (shared : ¬ Unshared world act) (stepped : worldStep world act = some next) : Doomed next := by
  cases act with
  | handle call => exact stop_doomed world next owned call shared stepped
  | setupChannel client registered txTail rxTail =>
      exact setup_doomed world next owned client registered txTail rxTail shared stepped
  | dropClient client => exact drop_doomed world next owned client shared stepped
  | dropEngine order => exact engine_drop_doomed world next owned order shared stepped
  | engineSend key pkt | engineReceive key pkt | openClient client id | clientSend client pkt
  | clientReceive client pkt => exact absurd trivial shared

/-- One start fails for want of a second ring and one client is stopped that never attached:
both free their rings. A third client comes up, and packets go both ways. -/
def shortDay : List WorldAct :=
  [.handle { id := 1, m := 0, outcome := { Outcome.granted with tx_created := false } },
    .handle { id := 2, m := 0, outcome := .granted }, .handle { id := 2, m := 2, outcome := .granted },
    .handle { id := 0, m := 0, outcome := .granted }, .openClient 0 0, .setupChannel 0 true "" "",
    .engineSend 0 { inner := .Original 1 }, .clientReceive 0 { inner := .Original 2 }]

theorem short_day_safe : Always worldStep World.Safe World.new shortDay := by
  apply safe_while_unshared
  refine ⟨fun code => absurd code (by decide), ?_⟩
  rintro failed ⟨⟩
  refine ⟨fun code => absurd code (by decide), ?_⟩
  rintro other ⟨⟩
  -- nobody has attached yet
  refine ⟨fun _ channel _ ring _ => ?_, ?_⟩
  · rintro ⟨client, attached, absent, _⟩
    cases absent
  rintro stopped ⟨⟩
  refine ⟨fun code => absurd code (by decide), ?_⟩
  rintro started ⟨⟩
  refine ⟨trivial, ?_⟩
  rintro opened ⟨⟩
  refine ⟨fun self present _ _ => ?_, ?_⟩
  · obtain rfl := Option.some_inj.mp present
    exact ⟨by decide, rfl⟩
  rintro attached ⟨⟩
  exact ⟨trivial, fun _ _ => ⟨trivial, fun _ _ => trivial⟩⟩

/-- A client that registers, attaches and goes away, and the engine that stops it:
both free the same two rings. -/
theorem stopped_client_frees_twice :
    ¬ ∀ (acts : List WorldAct) (reached : World),
      run worldStep World.new acts = some reached → reached.Safe := by
  intro claimed
  have safe := claimed
    [.handle { id := 0, m := 0, outcome := .granted }, .openClient 0 0, .setupChannel 0 true "" "",
      .handle { id := 0, m := 2, outcome := .granted }, .dropClient 0] _ rfl
  exact safe.1 (by decide)

end L2Switch.RingOwnership
