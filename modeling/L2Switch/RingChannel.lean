import Mathlib.Data.List.AList
import L2Switch.DpdkRings

/-!
dpdk/memring.rs: a `Ring` wraps an rte_ring and frees it when dropped, whoever
made it; a `Channel` sends on its `tx_q` and receives on its `rx_q`; the
`EngineRingMap` keeps one channel for each client. Error texts that come from
DPDK's errno are not told apart.
-/
namespace L2Switch.RingChannel
open DpdkRings

inductive Failure where
  | dpdk_error
  | zmq_error
  | json_error
  | message (text : String)
  deriving DecidableEq

abbrev Fallible (Value : Type) := Except Failure Value

/-- The `ToResult` of a C status code. -/
def toResult (code : Int) : Fallible Unit := if 0 ≤ code then .ok () else .error .dpdk_error

inductive MbufInner where
  | Original (raw : MbufPtr)
  | Clone (raw : MbufPtr)

structure Mbuf where
  inner : MbufInner

def Mbuf.getPtr (pkt : Mbuf) : MbufPtr :=
  match pkt.inner with
  | .Original raw => raw
  | .Clone raw => raw

def Mbuf.intoPtr (pkt : Mbuf) : MbufPtr := pkt.getPtr

/-- `Drop for Mbuf`: the buffers it gives back to their mempool. -/
def Mbuf.drop (pkt : Mbuf) : List MbufPtr :=
  match pkt.inner with
  | .Original raw => [raw]
  | .Clone _ => []

inductive RingType where
  | RX
  | TX
  deriving DecidableEq

structure Ring where
  client_id : UInt16
  rtype : RingType
  raw : RingPtr

def Ring.fromPtr (client_id : UInt16) (rtype : RingType) (r : Option RingPtr) : Option Ring :=
  match r with
  | some raw => some { client_id, rtype, raw }
  | none => none

def Ring.new (rings : Rings) (client_id : UInt16) (rtype : RingType) (name : String)
    (capacity : Nat) (granted : Bool) : Fallible Ring × Rings :=
  match rteRingCreate rings name capacity granted with
  | (some raw, created) => (.ok { client_id, rtype, raw }, created)
  | (none, unchanged) => (.error .dpdk_error, unchanged)

/-- `Drop for Ring`. -/
def Ring.drop (rings : Rings) (ring : Ring) : Rings := rteRingFree rings ring.raw

/-- The packet is consumed before the ring's answer is known. -/
def Ring.enqueue (rings : Rings) (ring : Ring) (pkt : Mbuf) : Fallible Unit × Rings :=
  let (code, after) := rteRingEnqueue rings ring.raw pkt.intoPtr
  (toResult code, after)

/-- The dequeued pointer is stored in a temporary made from `get_ptr`; the
caller's `pkt` is the same before and after. -/
def Ring.dequeue (rings : Rings) (ring : Ring) (pkt : Mbuf) : Fallible Unit × Mbuf × Rings :=
  let temporary := pkt.getPtr
  let (code, _, after) := rteRingDequeue rings ring.raw temporary
  (toResult code, pkt, after)

structure Channel where
  tx_q : Ring
  rx_q : Ring

def Channel.send (rings : Rings) (channel : Channel) (pkt : Mbuf) : Fallible Unit × Rings :=
  channel.tx_q.enqueue rings pkt

def Channel.receive (rings : Rings) (channel : Channel) (pkt : Mbuf) :
    Fallible Unit × Mbuf × Rings :=
  channel.rx_q.dequeue rings pkt

/-- Dropping a channel drops its fields in the order of their declaration. -/
def Channel.drop (rings : Rings) (channel : Channel) : Rings :=
  channel.rx_q.drop (channel.tx_q.drop rings)

abbrev RingMap := AList fun _ : UInt16 => Channel

def engineSend (rings : Rings) (ring_map : RingMap) (key : UInt16) (pkt : Mbuf) :
    Fallible Unit × Rings :=
  match ring_map.lookup key with
  | some ch => ch.send rings pkt
  | none => (.error (.message "Failed to send packet"), rings)

def engineReceive (rings : Rings) (ring_map : RingMap) (key : UInt16) (pkt : Mbuf) :
    Fallible Unit × Mbuf × Rings :=
  match ring_map.lookup key with
  | some ch => ch.receive rings pkt
  | none => (.error (.message "Failed to receive packet"), pkt, rings)

/-- The rte_rings a channel's two `Ring`s wrap. -/
def Channel.raws (channel : Channel) : List RingPtr := [channel.tx_q.raw, channel.rx_q.raw]

theorem tx_wrapped (channel : Channel) : channel.tx_q.raw ∈ channel.raws := List.mem_cons_self

theorem rx_wrapped (channel : Channel) : channel.rx_q.raw ∈ channel.raws :=
  List.mem_cons_of_mem _ List.mem_cons_self

theorem ring_new_cases (rings : Rings) (client_id : UInt16) (rtype : RingType) (name : String)
    (capacity : Nat) (granted : Bool) :
    (¬ (rings.registry name = none ∧ granted = true) ∧
        Ring.new rings client_id rtype name capacity granted = (.error .dpdk_error, rings)) ∨
      (rings.registry name = none ∧ granted = true ∧
        Ring.new rings client_id rtype name capacity granted =
          (.ok { client_id, rtype, raw := rings.next }, rings.created name capacity)) := by
  unfold Ring.new Rings.created rteRingCreate
  cases taken : rings.registry name with
  | some ring => simp
  | none => cases granted <;> simp

theorem enqueue_room (rings : Rings) (ring : Ring) (pkt : Mbuf) (fifo : BoundedFifo MbufPtr)
    (pushed : (rings.fifo ring.raw).push pkt.getPtr = some fifo) :
    ring.enqueue rings pkt = (.ok (),
      { rings with
        fifo := Function.update rings.fifo ring.raw fifo, log := .enqueue ring.raw :: rings.log }) := by
  simp [Ring.enqueue, rteRingEnqueue, Mbuf.intoPtr, pushed, toResult]

theorem enqueue_full (rings : Rings) (ring : Ring) (pkt : Mbuf)
    (full : (rings.fifo ring.raw).push pkt.getPtr = none) :
    ring.enqueue rings pkt =
      (.error .dpdk_error, { rings with log := .enqueue ring.raw :: rings.log }) := by
  simp [Ring.enqueue, rteRingEnqueue, Mbuf.intoPtr, full, toResult, enobufs]

theorem dequeue_some (rings : Rings) (ring : Ring) (pkt : Mbuf) (obj : MbufPtr)
    (fifo : BoundedFifo MbufPtr) (popped : (rings.fifo ring.raw).pop = some (obj, fifo)) :
    ring.dequeue rings pkt = (.ok (), pkt,
      { rings with
        fifo := Function.update rings.fifo ring.raw fifo, log := .dequeue ring.raw :: rings.log }) := by
  simp [Ring.dequeue, rteRingDequeue, popped, toResult]

theorem dequeue_empty (rings : Rings) (ring : Ring) (pkt : Mbuf)
    (empty : (rings.fifo ring.raw).pop = none) :
    ring.dequeue rings pkt =
      (.error .dpdk_error, pkt, { rings with log := .dequeue ring.raw :: rings.log }) := by
  simp [Ring.dequeue, rteRingDequeue, empty, toResult, enoent]

theorem enqueue_used (rings : Rings) (ring : Ring) (pkt : Mbuf) :
    Used rings ring.raw (ring.enqueue rings pkt).2 := by
  cases pushed : (rings.fifo ring.raw).push pkt.getPtr with
  | none =>
      rw [enqueue_full rings ring pkt pushed]
      exact ⟨rings.fifo, .enqueue ring.raw, Or.inl rfl, rfl⟩
  | some fifo =>
      rw [enqueue_room rings ring pkt fifo pushed]
      exact ⟨_, .enqueue ring.raw, Or.inl rfl, rfl⟩

theorem dequeue_used (rings : Rings) (ring : Ring) (pkt : Mbuf) :
    Used rings ring.raw (ring.dequeue rings pkt).2.2 := by
  cases popped : (rings.fifo ring.raw).pop with
  | none =>
      rw [dequeue_empty rings ring pkt popped]
      exact ⟨rings.fifo, .dequeue ring.raw, Or.inr rfl, rfl⟩
  | some taken =>
      rw [dequeue_some rings ring pkt taken.1 taken.2 popped]
      exact ⟨_, .dequeue ring.raw, Or.inr rfl, rfl⟩

theorem channel_drop_live (rings : Rings) (channel : Channel) (ring : RingPtr) :
    (channel.drop rings).Live ring ↔ ring ∉ channel.raws ∧ rings.Live ring := by
  simp only [Channel.drop, Ring.drop, free_live, Channel.raws, List.mem_cons, List.not_mem_nil,
    or_false, not_or]
  tauto

theorem channel_drop_freed (rings : Rings) (channel : Channel) (ring : RingPtr) :
    (channel.drop rings).Freed ring ↔ ring ∈ channel.raws ∨ rings.Freed ring := by
  simp only [Channel.drop, Ring.drop, free_freed, Channel.raws, List.mem_cons, List.not_mem_nil,
    or_false]
  tauto

/-- Dropping a channel is safe exactly when its two rings differ and neither was freed. -/
theorem channel_drop_safe_iff (rings : Rings) (channel : Channel) :
    SafeLog (channel.drop rings).log ↔
      channel.tx_q.raw ≠ channel.rx_q.raw ∧ (∀ ring ∈ channel.raws, ¬ rings.Freed ring) ∧
        SafeLog rings.log := by
  simp only [Channel.drop, Ring.drop, free_safe_iff, free_freed, Channel.raws, List.mem_cons,
    List.not_mem_nil, or_false, forall_eq_or_imp, forall_eq, not_or]
  tauto

/-- Dropping a channel whose rings are registered takes both names out. -/
theorem channel_drop_registry (rings : Rings) (tidy : rings.Tidy) (channel : Channel)
    (txEntry rxEntry : String) (apart : txEntry ≠ rxEntry)
    (tx : rings.registry txEntry = some channel.tx_q.raw)
    (rx : rings.registry rxEntry = some channel.rx_q.raw) :
    (channel.drop rings).registry =
        Function.update (Function.update rings.registry txEntry none) rxEntry none ∧
      (channel.drop rings).Tidy := by
  have txMade := (registered_live rings tidy txEntry _ tx).1
  have rxMade := (registered_live rings tidy rxEntry _ rx).1
  have first := free_tidy rings tidy channel.tx_q.raw txMade
  have entry := free_registered rings tidy txEntry channel.tx_q.raw tx
  have rxStill : (rteRingFree rings channel.tx_q.raw).registry rxEntry = some channel.rx_q.raw := by
    rw [entry, Function.update_of_ne (Ne.symm apart), rx]
  refine ⟨?_, free_tidy _ first _ (List.mem_cons_of_mem _ rxMade)⟩
  rw [Channel.drop, Ring.drop, Ring.drop, free_registered _ first rxEntry _ rxStill, entry]

end L2Switch.RingChannel

/-!
The data-plane half of dockerlib/client_comm.rs: a client looks its rings up by
name and wraps what it finds. `format!(..).as_ptr()` is not NUL-terminated, so C
reads a name that goes on behind the formatted text; what it reads there is the
`tail`. Whether `register` succeeded is given.
-/
namespace L2Switch
open DpdkRings RingChannel

structure ContainerClient where
  id : UInt16
  channel : Option Channel

namespace ContainerClient

def lookupRing (rings : Rings) (client_id : UInt16) (rtype : RingType) (label tail : String) :
    Option Ring :=
  Ring.fromPtr client_id rtype (rteRingLookup rings (label ++ toString client_id.toNat ++ tail))

/-- A `t_ring` that finds no partner is dropped, and so is the channel that a new
one replaces. -/
def setupChannel (rings : Rings) (client : ContainerClient) (registered : Bool)
    (txTail rxTail : String) : ContainerClient × Rings :=
  if registered then
    match lookupRing rings client.id .TX "TX-" txTail with
    | some t_ring =>
        match lookupRing rings client.id .RX "RX-" rxTail with
        | some r_ring =>
            let rings := match client.channel with
              | some replaced => replaced.drop rings
              | none => rings
            ({ client with channel := some { tx_q := t_ring, rx_q := r_ring } }, rings)
        | none => (client, t_ring.drop rings)
    | none => (client, rings)
  else (client, rings)

def drop (rings : Rings) (client : ContainerClient) : Rings :=
  match client.channel with
  | some channel => channel.drop rings
  | none => rings

end ContainerClient

end L2Switch
