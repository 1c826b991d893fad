import Mathlib.Data.List.AList
import L2Switch.EalArguments

/-!
`PortBuilder` of dpdk/port.rs. A `Device` answers the calls of rte_ethdev, a `Host` those
about sockets; a queue that is set up has an index below the count the device was
configured for, which is all that is assumed of either. Log lines are left out.
-/
namespace L2Switch.PortBuilding
open EalArguments

abbrev SocketId := Int32

abbrev MempoolPtr := Nat

inductive PortError where
  | NotFound (name : String)
  | CoreNotBound
  | InsufficientRxQueues (max : UInt64)
  | InsufficientTxQueues (max : UInt64)
  deriving DecidableEq

inductive BuildFailure where
  | port (error : PortError)
  | dpdk_error
  | mempool_not_found (socket : SocketId)
  deriving DecidableEq

structure DevInfo where
  max_rx_queues : UInt16
  max_tx_queues : UInt16
  flow_type_rss_offloads : UInt64
  tx_offload_capa : UInt64

inductive RxMqMode where
  | ETH_MQ_RX_NONE
  | ETH_MQ_RX_RSS
  deriving DecidableEq

structure RteEthConf where
  mq_mode : RxMqMode
  rss_hf : UInt64
  tx_offloads : UInt64

structure Device where
  info : DevInfo
  dev_socket_id : SocketId
  adjust_nb_rx_tx_desc : UInt16 → UInt16 → Option (UInt16 × UInt16)
  configure : UInt16 → UInt16 → RteEthConf → Bool
  rx_queue_setup : (configured index descriptors : UInt16) → SocketId → MempoolPtr → Bool
  tx_queue_setup : (configured index descriptors : UInt16) → SocketId → Bool
  rx_within : ∀ configured index descriptors socket pool,
    rx_queue_setup configured index descriptors socket pool = true → index < configured
  tx_within : ∀ configured index descriptors socket,
    tx_queue_setup configured index descriptors socket = true → index < configured

/-- A device on socket 0 that does whatever it can. -/
def Device.willing (info : DevInfo) (adjust : UInt16 → UInt16 → Option (UInt16 × UInt16)) :
    Device :=
  { info, dev_socket_id := 0, adjust_nb_rx_tx_desc := adjust
    configure := fun _ _ _ => true
    rx_queue_setup := fun configured index _ _ _ => index < configured
    tx_queue_setup := fun configured index _ _ => index < configured
    rx_within := fun _ _ _ _ _ accepted => of_decide_eq_true accepted
    tx_within := fun _ _ _ _ accepted => of_decide_eq_true accepted }

structure Host where
  socket_ids : List SocketId
  numa_node_of_cpu : Int32 → SocketId

/-- `SocketId::all`. -/
def Host.allSockets (host : Host) : List SocketId := host.socket_ids.filter (· ≠ -1)

def Host.coreSocketId (host : Host) (core : CoreId) : SocketId :=
  host.numa_node_of_cpu core.raw.toUInt32.toInt32

/-- `PortId::socket_id`; a virtual device is on no socket of the system. -/
def Host.portSocketId (host : Host) (device : Device) : Option SocketId :=
  if host.allSockets.contains device.dev_socket_id then some device.dev_socket_id else none

structure Mempool where
  socket_id : SocketId
  raw : MempoolPtr

abbrev MempoolMap := AList fun _ : SocketId => MempoolPtr

def MempoolMap.new (mempools : List Mempool) : MempoolMap :=
  mempools.foldl (fun map pool => map.insert pool.socket_id pool.raw) ∅

def MempoolMap.getRaw (map : MempoolMap) (socket : SocketId) : Except BuildFailure MempoolPtr :=
  match map.lookup socket with
  | some pool => .ok pool
  | none => .error (.mempool_not_found socket)

structure PortQueue where
  port_id : UInt16
  rxq : UInt16
  txq : UInt16
  deriving DecidableEq

abbrev Queues := AList fun _ : CoreId => PortQueue

structure Port where
  id : UInt16
  name : String
  device : String
  queues : Queues
  dev_info : DevInfo

/-- A port is never without a core. -/
structure PortBuilder where
  name : String
  device : String
  port_id : UInt16
  dev_info : DevInfo
  cores : List CoreId
  bound : cores ≠ []
  mempools : MempoolMap
  rxd : UInt16
  txd : UInt16

def PortBuilder.fresh (name device : String) (port_id : UInt16) (info : DevInfo) : PortBuilder :=
  { name, device, port_id, dev_info := info, cores := [{ raw := 0 }]
    bound := List.cons_ne_nil _ _, mempools := ∅, rxd := 0, txd := 0 }

/-- `found` is what `rte_eth_dev_get_port_by_name` answers. -/
def PortBuilder.new (name device : String) (found : Option UInt16) (info : DevInfo) :
    Except BuildFailure PortBuilder :=
  match found with
  | none => .error .dpdk_error
  | some port_id => .ok (.fresh name device port_id info)

/-- `Vec::dedup` drops an element that equals the one before it. -/
def dedup : List CoreId → List CoreId
  | [] => []
  | [core] => [core]
  | first :: second :: rest =>
      if first = second then dedup (second :: rest) else first :: dedup (second :: rest)

theorem mem_dedup_iff (cores : List CoreId) (core : CoreId) : core ∈ dedup cores ↔ core ∈ cores := by
  induction cores using dedup.induct with
  | case1 => rfl
  | case2 only => rfl
  | case3 first rest ih => simp [dedup, ih]
  | case4 first second rest different ih => simp [dedup, different, ih]

theorem dedup_increasing (cores : List CoreId)
    (sorted : cores.Pairwise fun left right => left.raw ≤ right.raw) :
    (dedup cores).Pairwise fun left right => left.raw < right.raw := by
  induction cores using dedup.induct with
  | case1 => exact List.Pairwise.nil
  | case2 only => exact List.pairwise_singleton _ only
  | case3 first rest ih => simpa [dedup] using ih sorted.of_cons
  | case4 first second rest different ih =>
      rw [dedup, if_neg different]
      refine List.pairwise_cons.mpr ⟨?_, ih sorted.of_cons⟩
      intro core member
      have least := (List.pairwise_cons.mp sorted).1 second List.mem_cons_self
      have below : second.raw ≤ core.raw := by
        rcases List.mem_cons.mp ((mem_dedup_iff _ core).mp member) with same | later
        · exact UInt64.le_of_eq (congrArg CoreId.raw same).symm
        · exact (List.pairwise_cons.mp sorted.of_cons).1 core later
      have apart : first.raw ≠ second.raw := fun same => different (congrArg CoreId.mk same)
      exact UInt64.lt_of_lt_of_le (UInt64.lt_of_le_of_ne least apart) below

/-- Sorted and rid of neighbours that are equal, a list rises. -/
theorem sorted_increasing (cores : List CoreId) :
    (dedup (cores.mergeSort (fun left right => left.raw ≤ right.raw))).Pairwise
      fun left right => left.raw < right.raw := by
  have trans : ∀ first second third : CoreId, decide (first.raw ≤ second.raw) = true →
      decide (second.raw ≤ third.raw) = true → decide (first.raw ≤ third.raw) = true := by
    intro first second third below above
    simp only [decide_eq_true_eq] at below above ⊢
    exact UInt64.le_trans below above
  have total : ∀ left right : CoreId,
      (decide (left.raw ≤ right.raw) || decide (right.raw ≤ left.raw)) = true := by
    intro left right
    simpa using UInt64.le_total left.raw right.raw
  exact dedup_increasing _ ((List.pairwise_mergeSort trans total _).imp of_decide_eq_true)

/-- The slice sorted, each core once. -/
def distinctCores (slice : List CoreId) : List CoreId :=
  dedup (slice.mergeSort (fun left right => left.raw ≤ right.raw))

theorem mem_distinctCores (slice : List CoreId) (core : CoreId) :
    core ∈ distinctCores slice ↔ core ∈ slice := by
  rw [distinctCores, mem_dedup_iff, List.mem_mergeSort]

theorem distinctCores_bound (slice : List CoreId) (bound : slice ≠ []) : distinctCores slice ≠ [] := by
  obtain ⟨core, member⟩ := List.exists_mem_of_ne_nil slice bound
  exact List.ne_nil_of_mem ((mem_distinctCores slice core).mpr member)

/-- `len() as u16` -/
def count (cores : List CoreId) : UInt16 := UInt16.ofNat cores.length

def cores (self : PortBuilder) (slice : List CoreId) : Except BuildFailure Unit × PortBuilder :=
  if bound : slice = [] then (.error (.port .CoreNotBound), self)
  else if self.dev_info.max_rx_queues < count (distinctCores slice) then
    (.error (.port (.InsufficientRxQueues self.dev_info.max_rx_queues.toUInt64)), self)
  else if self.dev_info.max_tx_queues < count (distinctCores slice) then
    (.error (.port (.InsufficientTxQueues self.dev_info.max_tx_queues.toUInt64)), self)
  else
    (.ok (), { self with cores := distinctCores slice, bound := distinctCores_bound slice bound })

/-- The requests are cut to 16 bits before the device sees them. -/
def rxTxQueueCapacity (device : Device) (self : PortBuilder) (rxd txd : UInt64) :
    Except BuildFailure Unit × PortBuilder :=
  match device.adjust_nb_rx_tx_desc rxd.toUInt16 txd.toUInt16 with
  | none => (.error .dpdk_error, self)
  | some (rxd2, txd2) => (.ok (), { self with rxd := rxd2, txd := txd2 })

def mempools (self : PortBuilder) (pools : List Mempool) : PortBuilder :=
  { self with mempools := MempoolMap.new pools }

def ETH_RSS_IP : UInt64 := 41868
def ETH_RSS_TCP : UInt64 := 66576
def ETH_RSS_UDP : UInt64 := 133152
def ETH_RSS_SCTP : UInt64 := 4160
def DEFAULT_RSS_HF : UInt64 := ETH_RSS_IP ||| ETH_RSS_TCP ||| ETH_RSS_UDP ||| ETH_RSS_SCTP
def DEV_TX_OFFLOAD_MBUF_FAST_FREE : UInt64 := 65536

def ethConf (len : UInt16) (info : DevInfo) : RteEthConf :=
  let conf := { mq_mode := .ETH_MQ_RX_NONE, rss_hf := 0, tx_offloads := 0 }
  -- turns on receive side scaling if port has multiple cores
  let conf := if 1 < len then
      { conf with
        mq_mode := .ETH_MQ_RX_RSS, rss_hf := DEFAULT_RSS_HF &&& info.flow_type_rss_offloads }
    else conf
  -- turns on optimization for fast release of mbufs
  if 0 < info.tx_offload_capa &&& DEV_TX_OFFLOAD_MBUF_FAST_FREE then
    { conf with tx_offloads := conf.tx_offloads ||| DEV_TX_OFFLOAD_MBUF_FAST_FREE }
  else conf

/-- The loop over the cores from the one numbered `idx` on. -/
def setupQueues (device : Device) (self : PortBuilder) (configured : UInt16) (socket : SocketId)
    (pool : MempoolPtr) : Nat → List CoreId → Queues → Except BuildFailure Queues
  | _, [], queues => .ok queues
  | idx, core_id :: rest, queues =>
      let rxq := UInt16.ofNat idx
      if device.rx_queue_setup configured rxq self.rxd socket pool then
        let txq := UInt16.ofNat idx
        if device.tx_queue_setup configured txq self.txd socket then
          setupQueues device self configured socket pool (idx + 1) rest
            (queues.insert core_id { port_id := self.port_id, rxq, txq })
        else .error .dpdk_error
      else .error .dpdk_error

/-- The port, and what its device was told besides the queues. -/
structure Finished where
  port : Port
  conf : RteEthConf
  all_multicast : Bool

def finish (host : Host) (device : Device) (self : PortBuilder) (multicast : Bool) :
    Except BuildFailure Finished :=
  let len := count self.cores
  let conf := ethConf len self.dev_info
  if device.configure len len conf then
    -- a virtual port goes to the socket of its first core
    let socket_id := (host.portSocketId device).getD (host.coreSocketId (self.cores.head self.bound))
    match self.mempools.getRaw socket_id with
    | .error failure => .error failure
    | .ok mempool =>
        match setupQueues device self len socket_id mempool 0 self.cores ∅ with
        | .error failure => .error failure
        | .ok queues => .ok
            { port :=
                { id := self.port_id, name := self.name, device := self.device, queues
                  dev_info := self.dev_info }
              conf, all_multicast := multicast }
  else .error .dpdk_error

end L2Switch.PortBuilding
