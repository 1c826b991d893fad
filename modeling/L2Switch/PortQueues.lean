import Mathlib.Data.Finset.Dedup
import Mathlib.Data.Finset.Card
import L2Switch.PortBuilding

/-!
The queue pairs of a port that has been built: one for each core it was given, numbered
from zero. The count of the cores is cut to 16 bits both where it is checked and where
the device is configured with it; a device that refuses queues beyond its count makes up
for that.
-/
namespace L2Switch.PortQueues
open EalArguments PortBuilding

/-- What may be called on a builder between `cores` and `finish`. -/
inductive BuilderAct where
  | rxTxQueueCapacity (rxd txd : UInt64)
  | mempools (pools : List Mempool)

def prepare (device : Device) (self : PortBuilder) : BuilderAct → PortBuilder
  | .rxTxQueueCapacity rxd txd => (rxTxQueueCapacity device self rxd txd).2
  | .mempools pools => mempools self pools

/-- One queue pair for each distinct core of the slice. -/
structure OwnPairs (slice : List CoreId) (port : Port) : Prop where
  keys : ∀ core, (port.queues.lookup core).isSome ↔ core ∈ slice
  some_core : 0 < slice.toFinset.card
  numbered : ∀ core queue, port.queues.lookup core = some queue →
    queue.rxq.toNat < slice.toFinset.card ∧ queue.txq = queue.rxq
  apart : ∀ core other queue queue', port.queues.lookup core = some queue →
    port.queues.lookup other = some queue' → queue.rxq = queue'.rxq → core = other
  onto : ∀ index < slice.toFinset.card, ∃ core queue,
    port.queues.lookup core = some queue ∧ queue.rxq.toNat = index
  rx_limit : slice.toFinset.card ≤ port.dev_info.max_rx_queues.toNat
  tx_limit : slice.toFinset.card ≤ port.dev_info.max_tx_queues.toNat

theorem distinctCores_nodup (slice : List CoreId) : (distinctCores slice).Nodup := by
  refine List.Pairwise.imp ?_ (sorted_increasing slice)
  intro left right below same
  exact UInt64.lt_irrefl _ (same ▸ below)

theorem distinctCores_length (slice : List CoreId) :
    (distinctCores slice).length = slice.toFinset.card := by
  rw [← List.toFinset_card_of_nodup (distinctCores_nodup slice)]
  congr 1
  ext core
  rw [List.mem_toFinset, List.mem_toFinset, mem_distinctCores]

section Loop
variable (device : Device) (self : PortBuilder) (configured : UInt16) (socket : SocketId)
  (pool : MempoolPtr)

def pairAt (idx : Nat) : PortQueue :=
  { port_id := self.port_id, rxq := UInt16.ofNat idx, txq := UInt16.ofNat idx }

theorem setup_step (idx : Nat) (core : CoreId) (rest : List CoreId) (queues final : Queues)
    (done : setupQueues device self configured socket pool idx (core :: rest) queues = .ok final) :
    UInt16.ofNat idx < configured ∧
      setupQueues device self configured socket pool (idx + 1) rest
        (queues.insert core (pairAt self idx)) = .ok final := by
  simp only [setupQueues] at done
  by_cases received : device.rx_queue_setup configured (UInt16.ofNat idx) self.rxd socket pool = true
  · by_cases sent : device.tx_queue_setup configured (UInt16.ofNat idx) self.txd socket = true
    · rw [if_pos received, if_pos sent] at done
      exact ⟨device.rx_within _ _ _ _ _ received, done⟩
    · rw [if_pos received, if_neg sent] at done
      cases done
  · rw [if_neg received] at done
    cases done

/-- Every index that is set up is one the device was configured for. -/
theorem setup_within (idx : Nat) (cores : List CoreId) (queues final : Queues)
    (done : setupQueues device self configured socket pool idx cores queues = .ok final)
    (i : Nat) (inside : i < cores.length) : UInt16.ofNat (idx + i) < configured := by
  induction cores generalizing idx queues i with
  | nil => cases inside
  | cons core rest ih =>
      obtain ⟨here, later⟩ := setup_step device self configured socket pool idx core rest queues
        final done
      cases i with
      | zero => exact here
      | succ i =>
          have next := ih (idx + 1) _ later i (Nat.lt_of_succ_lt_succ inside)
          rwa [Nat.succ_add_eq_add_succ] at next

theorem setup_lookup_other (idx : Nat) (cores : List CoreId) (queues final : Queues)
    (done : setupQueues device self configured socket pool idx cores queues = .ok final)
    (core : CoreId) (other : core ∉ cores) : final.lookup core = queues.lookup core := by
  induction cores generalizing idx queues with
  | nil => cases done; rfl
  | cons first rest ih =>
      obtain ⟨_, later⟩ := setup_step device self configured socket pool idx first rest queues
        final done
      rw [List.mem_cons, not_or] at other
      rw [ih (idx + 1) _ later other.2, AList.lookup_insert_ne other.1]

theorem setup_lookup (idx : Nat) (cores : List CoreId) (unique : cores.Nodup)
    (queues final : Queues)
    (done : setupQueues device self configured socket pool idx cores queues = .ok final)
    (i : Nat) (inside : i < cores.length) :
    final.lookup cores[i] = some (pairAt self (idx + i)) := by
  induction cores generalizing idx queues i with
  | nil => cases inside
  | cons core rest ih =>
      obtain ⟨_, later⟩ := setup_step device self configured socket pool idx core rest queues
        final done
      rw [List.nodup_cons] at unique
      cases i with
      | zero =>
          have kept := setup_lookup_other device self configured socket pool (idx + 1) rest _ final
            later core unique.1
          simpa using kept
      | succ i =>
          have next := ih (idx + 1) unique.2 _ later i (Nat.lt_of_succ_lt_succ inside)
          rwa [Nat.succ_add_eq_add_succ] at next

/-- A device configured for the count of the cores, cut to 16 bits, refuses the first
queue beyond it; so where all are set up nothing was cut. -/
theorem setup_count (cores : List CoreId) (queues final : Queues)
    (done : setupQueues device self (count cores) socket pool 0 cores queues = .ok final) :
    (count cores).toNat = cores.length := by
  have counted : (count cores).toNat = cores.length % 2 ^ 16 := UInt16.toNat_ofNat'
  rw [counted]
  refine Nat.mod_eq_of_lt ?_
  by_contra many
  have inside : (count cores).toNat < cores.length := by
    have small := UInt16.toNat_lt (count cores)
    omega
  have within := setup_within device self (count cores) socket pool 0 cores queues final done
    (count cores).toNat inside
  rw [Nat.zero_add, UInt16.ofNat_toNat] at within
  exact UInt16.lt_irrefl _ within

end Loop

theorem finish_ok (host : Host) (device : Device) (self : PortBuilder) (multicast : Bool)
    (finished : Finished) (done : finish host device self multicast = .ok finished) :
    finished.port.dev_info = self.dev_info ∧ ∃ socket pool,
      setupQueues device self (count self.cores) socket pool 0 self.cores ∅ =
        .ok finished.port.queues := by
  simp only [finish] at done
  split at done
  · split at done
    · cases done
    · split at done
      · cases done
      · next socket pool _ queues setup =>
          cases done
          exact ⟨rfl, _, _, setup⟩
  · cases done

/-- All `cores` can do: fail and change nothing, or take the cores of the slice. -/
theorem cores_cases (self : PortBuilder) (slice : List CoreId) :
    (∃ error, cores self slice = (.error (.port error), self)) ∨
      ∃ bound : slice ≠ [],
        count (distinctCores slice) ≤ self.dev_info.max_rx_queues ∧
        count (distinctCores slice) ≤ self.dev_info.max_tx_queues ∧
        cores self slice = (.ok (), { self with
          cores := distinctCores slice, bound := distinctCores_bound slice bound }) := by
  unfold cores
  split
  · exact Or.inl ⟨_, rfl⟩
  · next bound =>
      split
      · exact Or.inl ⟨_, rfl⟩
      · next rx =>
          split
          · exact Or.inl ⟨_, rfl⟩
          · next tx => exact Or.inr ⟨bound, UInt16.not_lt.mp rx, UInt16.not_lt.mp tx, rfl⟩

/-- Nothing between `cores` and `finish` touches the cores. -/
theorem prepare_keeps (device : Device) (self : PortBuilder) (acts : List BuilderAct) :
    (acts.foldl (prepare device) self).cores = self.cores ∧
      (acts.foldl (prepare device) self).dev_info = self.dev_info := by
  induction acts generalizing self with
  | nil => exact ⟨rfl, rfl⟩
  | cons act rest ih =>
      have kept : (prepare device self act).cores = self.cores ∧
          (prepare device self act).dev_info = self.dev_info := by
        cases act with
        | rxTxQueueCapacity rxd txd =>
            simp only [prepare, rxTxQueueCapacity]
            split <;> exact ⟨rfl, rfl⟩
        | mempools pools => exact ⟨rfl, rfl⟩
      obtain ⟨sameCores, sameInfo⟩ := ih (prepare device self act)
      exact ⟨sameCores.trans kept.1, sameInfo.trans kept.2⟩

/-- The pairs that the loop made, under the names of the slice. -/
theorem ownPairs_of_setup (slice : List CoreId) (bound : slice ≠ []) (device : Device)
    (self : PortBuilder) (assigned : self.cores = distinctCores slice) (socket : SocketId)
    (pool : MempoolPtr) (port : Port)
    (done : setupQueues device self (count self.cores) socket pool 0 self.cores ∅ =
      .ok port.queues)
    (rx : count self.cores ≤ port.dev_info.max_rx_queues)
    (tx : count self.cores ≤ port.dev_info.max_tx_queues) : OwnPairs slice port := by
  have whole := setup_count device self socket pool self.cores ∅ port.queues done
  have length : self.cores.length = slice.toFinset.card := by
    rw [assigned, distinctCores_length]
  have unique : self.cores.Nodup := assigned ▸ distinctCores_nodup slice
  have small : self.cores.length < 2 ^ 16 := whole ▸ UInt16.toNat_lt _
  have entry := setup_lookup device self (count self.cores) socket pool 0 self.cores unique ∅
    port.queues done
  have listed : ∀ core queue, port.queues.lookup core = some queue →
      ∃ i, ∃ inside : i < self.cores.length, self.cores[i] = core ∧ queue = pairAt self i := by
    intro core queue found
    by_cases member : core ∈ self.cores
    · obtain ⟨i, inside, rfl⟩ := List.mem_iff_getElem.mp member
      have same := (entry i inside).symm.trans found
      exact ⟨i, inside, rfl, by simpa using (Option.some.inj same).symm⟩
    · rw [setup_lookup_other device self _ socket pool 0 self.cores ∅ port.queues done core member]
        at found
      cases found
  have index : ∀ i < self.cores.length, (pairAt self i).rxq.toNat = i := by
    intro i inside
    exact UInt16.toNat_ofNat_of_lt' (Nat.lt_trans inside small)
  constructor
  case keys =>
    intro core
    rw [← mem_distinctCores, ← assigned]
    constructor
    · intro known
      obtain ⟨queue, found⟩ := Option.isSome_iff_exists.mp known
      obtain ⟨i, inside, rfl, _⟩ := listed core queue found
      exact List.getElem_mem inside
    · intro member
      obtain ⟨i, inside, rfl⟩ := List.mem_iff_getElem.mp member
      rw [entry i inside]
      rfl
  case some_core =>
    rw [← length, assigned]
    exact List.length_pos_iff.mpr (distinctCores_bound slice bound)
  case numbered =>
    intro core queue found
    obtain ⟨i, inside, _, rfl⟩ := listed core queue found
    rw [index i inside, ← length]
    exact ⟨inside, rfl⟩
  case apart =>
    intro core other queue queue' found found' same
    obtain ⟨i, inside, rfl, rfl⟩ := listed core queue found
    obtain ⟨j, inside', rfl, rfl⟩ := listed other queue' found'
    have numbers := congrArg UInt16.toNat same
    rw [index i inside, index j inside'] at numbers
    cases numbers
    rfl
  case onto =>
    intro i inside
    rw [← length] at inside
    exact ⟨self.cores[i], pairAt self i, by simpa using entry i inside, index i inside⟩
  case rx_limit =>
    rw [← length, ← whole]
    exact UInt16.le_iff_toNat_le.mp rx
  case tx_limit =>
    rw [← length, ← whole]
    exact UInt16.le_iff_toNat_le.mp tx

/-- Whatever the cores, the device and the calls before `finish`: a port that gets built
has one queue pair for each core, and a refused slice changes nothing. -/
theorem own_pairs (host : Host) (device : Device) (self : PortBuilder) (slice : List CoreId) :
    (∀ failure, (cores self slice).1 = .error failure →
      (cores self slice).2.cores = self.cores) ∧
    ((cores self slice).1 = .ok () → ∀ (acts : List BuilderAct) multicast finished,
      finish host device (acts.foldl (prepare device) (cores self slice).2) multicast =
        .ok finished → OwnPairs slice finished.port) := by
  rcases cores_cases self slice with ⟨error, refused⟩ | ⟨bound, rx, tx, accepted⟩
  · rw [refused]
    exact ⟨fun _ _ => rfl, nofun⟩
  · rw [accepted]
    refine ⟨nofun, fun _ acts multicast finished done => ?_⟩
    obtain ⟨sameInfo, socket, pool, setup⟩ := finish_ok host device _ multicast finished done
    obtain ⟨keptCores, keptInfo⟩ := prepare_keeps device
      { self with cores := distinctCores slice, bound := distinctCores_bound slice bound } acts
    have info := sameInfo.trans keptInfo
    refine ownPairs_of_setup slice bound device _ keptCores socket pool finished.port setup ?_ ?_
    · rw [keptCores, info]
      exact rx
    · rw [keptCores, info]
      exact tx

def fourQueues : Device := .willing
  { max_rx_queues := 4, max_tx_queues := 4, flow_type_rss_offloads := 0, tx_offload_capa := 0 }
  fun rxd txd => some (rxd, txd)

def oneSocket : Host := { socket_ids := [0], numa_node_of_cpu := fun _ => 0 }

def freshBuilder : PortBuilder := .fresh "eth1" "0000:02:00.0" 0 fourQueues.info

def pairBuilder : PortBuilder :=
  { freshBuilder with cores := [{ raw := 1 }, { raw := 3 }], bound := List.cons_ne_nil _ _ }

theorem pair_accepted : cores freshBuilder [⟨3⟩, ⟨1⟩, ⟨3⟩] = (.ok (), pairBuilder) := by
  have once : distinctCores [⟨3⟩, ⟨1⟩, ⟨3⟩] = [⟨1⟩, ⟨3⟩] := by
    simp [distinctCores, List.mergeSort, List.MergeSort.Internal.splitInTwo]
    decide
  have fits : ¬ (4 : UInt16) < 2 := by decide
  simp [cores, once, count, freshBuilder, PortBuilder.fresh, fourQueues, Device.willing, pairBuilder,
    fits]

/-- Cores 3, 1 and 3 again make two pairs. -/
theorem two_cores_paired :
    ∃ finished, finish oneSocket fourQueues
        ([BuilderAct.mempools [{ socket_id := 0, raw := 7 }]].foldl (prepare fourQueues)
          (cores freshBuilder [⟨3⟩, ⟨1⟩, ⟨3⟩]).2) true = .ok finished ∧
      OwnPairs [⟨3⟩, ⟨1⟩, ⟨3⟩] finished.port := by
  have built : (finish oneSocket fourQueues
      ([BuilderAct.mempools [{ socket_id := 0, raw := 7 }]].foldl (prepare fourQueues)
        (cores freshBuilder [⟨3⟩, ⟨1⟩, ⟨3⟩]).2) true).isOk = true := by
    rw [pair_accepted]
    decide
  cases done : finish oneSocket fourQueues
      ([BuilderAct.mempools [{ socket_id := 0, raw := 7 }]].foldl (prepare fourQueues)
        (cores freshBuilder [⟨3⟩, ⟨1⟩, ⟨3⟩]).2) true with
  | error failure =>
      rw [done] at built
      cases built
  | ok finished =>
      exact ⟨finished, rfl, (own_pairs oneSocket fourQueues freshBuilder [⟨3⟩, ⟨1⟩, ⟨3⟩]).2
        (congrArg Prod.fst pair_accepted) _ true finished done⟩

end L2Switch.PortQueues
