import L2Switch.PortQueues

/-!
When `PortBuilder::finish` gives a port, and of what. The device is configured before it is
known whether its socket has a mempool, and of the pools listed for one socket `MempoolMap`
keeps the last. Of the calls made on the builder before, the last accepted of each kind
counts.
-/
namespace L2Switch.PortPools
open EalArguments PortBuilding PortQueues

def lastOn (socket : SocketId) (pools : List Mempool) : Option MempoolPtr :=
  (pools.reverse.find? fun pool => pool.socket_id = socket).map Mempool.raw

/-- The socket whose mempool the port draws on: its device's, or its first core's. -/
def portSocket (host : Host) (device : Device) (self : PortBuilder) : SocketId :=
  (host.portSocketId device).getD (host.coreSocketId (self.cores.head self.bound))

def Configures (device : Device) (self : PortBuilder) : Prop :=
  device.configure (count self.cores) (count self.cores)
    (ethConf (count self.cores) self.dev_info) = true

/-- Both queues of the pair with this number are accepted. -/
def TakesPair (device : Device) (self : PortBuilder) (configured : UInt16) (socket : SocketId)
    (pool : MempoolPtr) (idx : Nat) : Prop :=
  device.rx_queue_setup configured (UInt16.ofNat idx) self.rxd socket pool = true ∧
    device.tx_queue_setup configured (UInt16.ofNat idx) self.txd socket = true

def TakesQueues (device : Device) (self : PortBuilder) (socket : SocketId) (pool : MempoolPtr) :
    Prop :=
  ∀ idx < self.cores.length, TakesPair device self (count self.cores) socket pool idx

/-- A port is built exactly where the device takes its configuration, its socket has a pool
and all the queue pairs are taken; the error tells a missing pool from a device that refuses. -/
structure FinishLaw (host : Host) (device : Device) (self : PortBuilder) (pools : List Mempool)
    (multicast : Bool) : Prop where
  builds : (∃ finished, finish host device self multicast = .ok finished) ↔
    Configures device self ∧ ∃ pool, lastOn (portSocket host device self) pools = some pool ∧
      TakesQueues device self (portSocket host device self) pool
  poolless : ∀ socket, finish host device self multicast = .error (.mempool_not_found socket) ↔
    Configures device self ∧ socket = portSocket host device self ∧
      lastOn (portSocket host device self) pools = none
  refuses : finish host device self multicast = .error .dpdk_error ↔
    ¬ Configures device self ∨ ∃ pool, lastOn (portSocket host device self) pools = some pool ∧
      ¬ TakesQueues device self (portSocket host device self) pool

/-- Of several pools on one socket the last listed is found. -/
theorem lookup_new (pools : List Mempool) (socket : SocketId) :
    (MempoolMap.new pools).lookup socket = lastOn socket pools := by
  induction pools using List.reverseRecOn with
  | nil => rfl
  | append_singleton pools pool ih =>
      have inserted : MempoolMap.new (pools ++ [pool]) =
          (MempoolMap.new pools).insert pool.socket_id pool.raw := by
        simp [MempoolMap.new]
      rw [inserted, lastOn, List.reverse_append, List.reverse_singleton, List.singleton_append,
        List.find?_cons]
      by_cases same : pool.socket_id = socket
      · -- the later pool takes the place of an earlier one
        subst same
        simp
      · simp only [same, decide_false]
        rw [AList.lookup_insert_ne (Ne.symm same), ih]
        rfl

section Loop
variable (device : Device) (self : PortBuilder) (configured : UInt16) (socket : SocketId)
  (pool : MempoolPtr)

theorem setup_refuses (idx : Nat) (core : CoreId) (rest : List CoreId) (queues : Queues)
    (refused : ¬ TakesPair device self configured socket pool idx) :
    setupQueues device self configured socket pool idx (core :: rest) queues =
      .error .dpdk_error := by
  unfold TakesPair at refused
  by_cases received : device.rx_queue_setup configured (UInt16.ofNat idx) self.rxd socket pool = true
  · have sent : ¬ device.tx_queue_setup configured (UInt16.ofNat idx) self.txd socket = true :=
      fun accepted => refused ⟨received, accepted⟩
    simp only [setupQueues, if_pos received, if_neg sent]
  · simp only [setupQueues, if_neg received]

theorem setup_takes (idx : Nat) (core : CoreId) (rest : List CoreId) (queues : Queues)
    (taken : TakesPair device self configured socket pool idx) :
    setupQueues device self configured socket pool idx (core :: rest) queues =
      setupQueues device self configured socket pool (idx + 1) rest
        (queues.insert core (pairAt self idx)) := by
  simp only [setupQueues, if_pos taken.1, if_pos taken.2]
  rfl

/-- The loop ends well where every pair is taken and stops with the first that is not. -/
theorem setup_iff (idx : Nat) (cores : List CoreId) (queues : Queues) :
    ((∀ i < cores.length, TakesPair device self configured socket pool (idx + i)) ∧
        ∃ final, setupQueues device self configured socket pool idx cores queues = .ok final) ∨
      ((¬ ∀ i < cores.length, TakesPair device self configured socket pool (idx + i)) ∧
        setupQueues device self configured socket pool idx cores queues = .error .dpdk_error) := by
  induction cores generalizing idx queues with
  | nil => exact Or.inl ⟨fun i inside => absurd inside (Nat.not_lt_zero i), queues, rfl⟩
  | cons core rest ih =>
      by_cases taken : TakesPair device self configured socket pool idx
      · have shifted : (∀ i < (core :: rest).length,
            TakesPair device self configured socket pool (idx + i)) ↔
            ∀ i < rest.length, TakesPair device self configured socket pool (idx + 1 + i) := by
          constructor
          · intro all i inside
            have next := all (i + 1) (Nat.succ_lt_succ inside)
            rwa [← Nat.add_assoc, Nat.add_right_comm] at next
          · intro later i inside
            cases i with
            | zero => exact taken
            | succ i =>
                have next := later i (Nat.lt_of_succ_lt_succ inside)
                rwa [Nat.add_right_comm] at next
        -- the loop goes on and the question is about the other pairs
        rw [shifted, setup_takes device self configured socket pool idx core rest queues taken]
        exact ih (idx + 1) _
      · refine Or.inr ⟨fun all => taken (all 0 (Nat.succ_pos _)), ?_⟩
        exact setup_refuses device self configured socket pool idx core rest queues taken

end Loop

theorem finish_configured (host : Host) (device : Device) (self : PortBuilder) (multicast : Bool)
    (configures : Configures device self) :
    finish host device self multicast = (do
      let mempool ← self.mempools.getRaw (portSocket host device self)
      let queues ← setupQueues device self (count self.cores) (portSocket host device self) mempool
        0 self.cores ∅
      pure
        { port :=
            { id := self.port_id, name := self.name, device := self.device, queues
              dev_info := self.dev_info }
          conf := ethConf (count self.cores) self.dev_info, all_multicast := multicast }) := by
  have configured : device.configure (count self.cores) (count self.cores)
      (ethConf (count self.cores) self.dev_info) = true := configures
  simp only [finish, if_pos configured]
  rw [portSocket]
  split
  · next failure missing =>
      rw [missing]
      rfl
  · next pool found =>
      rw [found]
      simp only [bind, Except.bind]
      split
      · next failure result => rw [result]
      · next queues result =>
          rw [result]
          rfl

/-- All `finish` can do. -/
theorem finish_cases (host : Host) (device : Device) (self : PortBuilder) (multicast : Bool) :
    (¬ Configures device self ∧ finish host device self multicast = .error .dpdk_error) ∨
      (Configures device self ∧ self.mempools.lookup (portSocket host device self) = none ∧
        finish host device self multicast =
          .error (.mempool_not_found (portSocket host device self))) ∨
      ∃ pool, Configures device self ∧
        self.mempools.lookup (portSocket host device self) = some pool ∧
        ((TakesQueues device self (portSocket host device self) pool ∧
            ∃ finished, finish host device self multicast = .ok finished) ∨
          (¬ TakesQueues device self (portSocket host device self) pool ∧
            finish host device self multicast = .error .dpdk_error)) := by
  by_cases configures : Configures device self
  · have whole := finish_configured host device self multicast configures
    refine Or.inr ?_
    cases found : self.mempools.lookup (portSocket host device self) with
    | none =>
        simp only [MempoolMap.getRaw, found] at whole
        exact Or.inl ⟨configures, rfl, whole⟩
    | some pool =>
        have pairs := setup_iff device self (count self.cores) (portSocket host device self) pool 0
          self.cores ∅
        simp only [Nat.zero_add] at pairs
        simp only [MempoolMap.getRaw, found] at whole
        refine Or.inr ⟨pool, configures, rfl, ?_⟩
        rcases pairs with ⟨taken, queues, set⟩ | ⟨refused, set⟩
        · exact Or.inl ⟨taken, _, whole.trans (by simp only [bind, Except.bind, set]; rfl)⟩
        · exact Or.inr ⟨refused, whole.trans (by simp only [bind, Except.bind, set])⟩
  · refine Or.inl ⟨configures, ?_⟩
    unfold finish
    exact if_neg configures

/-- The law of `finish` for the mempools the builder was given. -/
theorem finish_law (host : Host) (device : Device) (self : PortBuilder) (pools : List Mempool)
    (given : self.mempools = MempoolMap.new pools) (multicast : Bool) :
    FinishLaw host device self pools multicast := by
  have cases := finish_cases host device self multicast
  rw [given, lookup_new] at cases
  rcases cases with ⟨unconfigured, refused⟩ | ⟨configures, missing, refused⟩ |
    ⟨pool, configures, found, ⟨taken, built⟩ | ⟨untaken, refused⟩⟩
  · exact { builds := by simp [refused, unconfigured], poolless := by simp [refused, unconfigured]
            refuses := by simp [refused, unconfigured] }
  · exact { builds := by simp [refused, missing]
            poolless := by simp [refused, configures, missing, eq_comm]
            refuses := by simp [refused, configures, missing] }
  · obtain ⟨finished, built⟩ := built
    exact { builds := by simp [built, configures, found, taken]
            poolless := by simp [built, found], refuses := by simp [built, configures, found, taken] }
  · exact { builds := by simp [refused, found, untaken], poolless := by simp [refused, found]
            refuses := by simp [refused, found, untaken] }

section Calls

/-- The calls on a builder before `finish`. -/
inductive BuilderCall where
  | cores (slice : List CoreId)
  | rxTxQueueCapacity (rxd txd : UInt64)
  | mempools (pools : List Mempool)

def builderStep (device : Device) (self : PortBuilder) : BuilderCall → PortBuilder
  | .cores slice => (PortBuilding.cores self slice).2
  | .rxTxQueueCapacity rxd txd => (PortBuilding.rxTxQueueCapacity device self rxd txd).2
  | .mempools pools => PortBuilding.mempools self pools

/-- The device has a queue of either kind for each of the cores. -/
def Accepts (info : DevInfo) (slice : List CoreId) : Prop :=
  slice ≠ [] ∧ count (distinctCores slice) ≤ info.max_rx_queues ∧
    count (distinctCores slice) ≤ info.max_tx_queues

instance (info : DevInfo) (slice : List CoreId) : Decidable (Accepts info slice) :=
  inferInstanceAs (Decidable (_ ∧ _))

def coresOf (info : DevInfo) : BuilderCall → Option (List CoreId)
  | .cores slice => if Accepts info slice then some (distinctCores slice) else none
  | _ => none

def capacitiesOf (device : Device) : BuilderCall → Option (UInt16 × UInt16)
  | .rxTxQueueCapacity rxd txd => device.adjust_nb_rx_tx_desc rxd.toUInt16 txd.toUInt16
  | _ => none

def poolsOf : BuilderCall → Option (List Mempool)
  | .mempools pools => some pools
  | _ => none

variable {Value : Type}

/-- What the last of the calls that gave something gave. -/
def last (gives : BuilderCall → Option Value) (calls : List BuilderCall) (otherwise : Value) :
    Value :=
  ((calls.filterMap gives).getLast?).getD otherwise

theorem last_append (gives : BuilderCall → Option Value) (front back : List BuilderCall)
    (otherwise : Value) :
    last gives (front ++ back) otherwise = last gives back (last gives front otherwise) := by
  simp only [last, List.filterMap_append, List.getLast?_append]
  cases (back.filterMap gives).getLast? <;> rfl

theorem last_singleton (gives : BuilderCall → Option Value) (call : BuilderCall)
    (otherwise : Value) : last gives [call] otherwise = (gives call).getD otherwise := by
  cases given : gives call <;> simp [last, given]

theorem last_map {Other : Type} (gives : BuilderCall → Option Value) (change : Value → Other)
    (calls : List BuilderCall) (otherwise : Value) :
    last (fun call => (gives call).map change) calls (change otherwise) =
      change (last gives calls otherwise) := by
  induction calls using List.reverseRecOn with
  | nil => rfl
  | append_singleton calls call ih =>
      rw [last_append, last_append, ih, last_singleton, last_singleton]
      cases gives call <;> rfl

/-- Each setting is the last one that was accepted; refused calls in between change nothing. -/
structure Remembers (device : Device) (fresh : PortBuilder) (calls : List BuilderCall)
    (builder : PortBuilder) : Prop where
  cores : builder.cores = last (coresOf fresh.dev_info) calls fresh.cores
  capacities : (builder.rxd, builder.txd) =
    last (capacitiesOf device) calls (fresh.rxd, fresh.txd)
  mempools : builder.mempools =
    last (fun call => (poolsOf call).map MempoolMap.new) calls fresh.mempools
  same_port : builder.name = fresh.name ∧ builder.device = fresh.device ∧
    builder.port_id = fresh.port_id ∧ builder.dev_info = fresh.dev_info

theorem remembers_append (device : Device) (fresh middle self : PortBuilder)
    (front back : List BuilderCall) (earlier : Remembers device fresh front middle)
    (later : Remembers device middle back self) : Remembers device fresh (front ++ back) self := by
  obtain ⟨name, port, id, info⟩ := earlier.same_port
  obtain ⟨name', port', id', info'⟩ := later.same_port
  refine { cores := ?_, capacities := ?_, mempools := ?_
           same_port := ⟨name'.trans name, port'.trans port, id'.trans id, info'.trans info⟩ }
  · rw [last_append, ← earlier.cores, ← info]
    exact later.cores
  · rw [last_append, ← earlier.capacities]
    exact later.capacities
  · rw [last_append, ← earlier.mempools]
    exact later.mempools

/-- The slice is taken where the device accepts it and leaves the builder alone otherwise. -/
theorem cores_told (self : PortBuilder) (slice : List CoreId) :
    (∃ accepted : Accepts self.dev_info slice, (PortBuilding.cores self slice).2 =
        { self with cores := distinctCores slice, bound := distinctCores_bound slice accepted.1 }) ∨
      (¬ Accepts self.dev_info slice ∧ (PortBuilding.cores self slice).2 = self) := by
  unfold PortBuilding.cores Accepts
  split
  · next empty => exact Or.inr ⟨fun accepted => accepted.1 empty, rfl⟩
  · next bound =>
      split
      · next few => exact Or.inr ⟨fun accepted => UInt16.not_lt.mpr accepted.2.1 few, rfl⟩
      · next rx =>
          split
          · next few => exact Or.inr ⟨fun accepted => UInt16.not_lt.mpr accepted.2.2 few, rfl⟩
          · next tx => exact Or.inl ⟨⟨bound, UInt16.not_lt.mp rx, UInt16.not_lt.mp tx⟩, rfl⟩

theorem call_remembered (device : Device) (self : PortBuilder) (call : BuilderCall) :
    Remembers device self [call] (builderStep device self call) := by
  cases call with
  | cores slice =>
      rcases cores_told self slice with ⟨accepted, told⟩ | ⟨refused, told⟩
      · exact { cores := by simp [builderStep, told, last_singleton, coresOf, accepted]
                capacities := by simp [builderStep, told, last_singleton, capacitiesOf]
                mempools := by simp [builderStep, told, last_singleton, poolsOf]
                same_port := by simp [builderStep, told] }
      · exact { cores := by simp [builderStep, told, last_singleton, coresOf, refused]
                capacities := by simp [builderStep, told, last_singleton, capacitiesOf]
                mempools := by simp [builderStep, told, last_singleton, poolsOf]
                same_port := by simp [builderStep, told] }
  | rxTxQueueCapacity rxd txd =>
      cases adjusted : device.adjust_nb_rx_tx_desc rxd.toUInt16 txd.toUInt16 <;>
        exact { cores := by simp [builderStep, rxTxQueueCapacity, adjusted, last_singleton, coresOf]
                capacities := by
                  simp [builderStep, rxTxQueueCapacity, adjusted, last_singleton, capacitiesOf]
                mempools := by
                  simp [builderStep, rxTxQueueCapacity, adjusted, last_singleton, poolsOf]
                same_port := by simp [builderStep, rxTxQueueCapacity, adjusted] }
  | mempools pools =>
      exact { cores := rfl, capacities := rfl, mempools := rfl, same_port := ⟨rfl, rfl, rfl, rfl⟩ }

theorem calls_remembered (device : Device) (fresh : PortBuilder) (calls : List BuilderCall) :
    Remembers device fresh calls (calls.foldl (builderStep device) fresh) := by
  induction calls generalizing fresh with
  | nil =>
      exact { cores := rfl, capacities := rfl, mempools := rfl, same_port := ⟨rfl, rfl, rfl, rfl⟩ }
  | cons call rest ih =>
      exact remembers_append device fresh _ _ [call] rest (call_remembered device fresh call)
        (ih (builderStep device fresh call))

/-- What a port is built of, whatever was called on its builder before and in which order. -/
theorem builder_law (host : Host) (device : Device) (name device_name : String) (port_id : UInt16)
    (calls : List BuilderCall) (multicast : Bool) :
    let fresh := PortBuilder.fresh name device_name port_id device.info
    let self := calls.foldl (builderStep device) fresh
    Remembers device fresh calls self ∧
      FinishLaw host device self (last poolsOf calls []) multicast := by
  intro fresh self
  have remembers := calls_remembered device fresh calls
  exact ⟨remembers, finish_law host device self (last poolsOf calls [])
    (remembers.mempools.trans (last_map poolsOf MempoolMap.new calls [])) multicast⟩

end Calls

end L2Switch.PortPools
