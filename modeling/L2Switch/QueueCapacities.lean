import Mathlib.Algebra.Group.Nat.Defs
import L2Switch.PortBuilding

/-!
The queue capacities that `rx_tx_queue_capacity` stores. The device adjusts a count to
its limits, but it is given the request without all bits above the sixteenth.
-/
namespace L2Switch.QueueCapacities
open PortBuilding

structure Limits where
  min : UInt16
  max : UInt16
  valid : min ≤ max

/-- A larger count is never adjusted to less, and the maximum stays what it is. -/
structure Adjusts (limits : Limits) (adjust : UInt16 → UInt16) : Prop where
  monotone : ∀ count count', count ≤ count' → adjust count ≤ adjust count'
  above : ∀ count, limits.min ≤ adjust count
  below : ∀ count, adjust count ≤ limits.max
  at_max : adjust limits.max = limits.max

/-- The device adjusts both counts to its limits or fails. -/
def Limited (rx tx : Limits) (device : Device) : Prop :=
  ∃ adjustRx adjustTx, Adjusts rx adjustRx ∧ Adjusts tx adjustTx ∧
    ∀ rxd txd, device.adjust_nb_rx_tx_desc rxd txd = none ∨
      device.adjust_nb_rx_tx_desc rxd txd = some (adjustRx rxd, adjustTx txd)

/-- The capacities two requests come to. -/
structure Follows (limits : Limits) (request request' : UInt64) (stored stored' : UInt16) : Prop where
  ordered : request ≤ request' → stored ≤ stored'
  capped : limits.max.toNat < request.toNat → stored = limits.max
  capped' : limits.max.toNat < request'.toNat → stored' = limits.max

/-- Requests that the device grants are clamped, whatever the builders stored before. -/
def Clamped (rx tx : Limits) (device : Device) (rxd rxd' txd txd' : UInt64) : Prop :=
  ∀ self self', (rxTxQueueCapacity device self rxd txd).1 = .ok () →
    (rxTxQueueCapacity device self' rxd' txd').1 = .ok () →
    Follows rx rxd rxd' (rxTxQueueCapacity device self rxd txd).2.rxd
        (rxTxQueueCapacity device self' rxd' txd').2.rxd ∧
      Follows tx txd txd' (rxTxQueueCapacity device self rxd txd).2.txd
        (rxTxQueueCapacity device self' rxd' txd').2.txd

/-- The request is not cut, or what is left of it is as large as the device allows. -/
def Survives (limits : Limits) (request : UInt64) : Prop :=
  request.toNat < 2 ^ 16 ∨ limits.max.toNat ≤ request.toNat % 2 ^ 16 ∨ limits.max = limits.min

theorem cut_toNat (request : UInt64) : request.toUInt16.toNat = request.toNat % 2 ^ 16 :=
  UInt64.toNat_toUInt16 request

theorem adjusts_max (limits : Limits) (adjust : UInt16 → UInt16) (adjusts : Adjusts limits adjust)
    (count : UInt16) (large : limits.max ≤ count) : adjust count = limits.max := by
  have least := adjusts.monotone limits.max count large
  rw [adjusts.at_max] at least
  exact UInt16.le_antisymm (adjusts.below count) least

theorem survives_capped (limits : Limits) (adjust : UInt16 → UInt16)
    (adjusts : Adjusts limits adjust) (request : UInt64) (survives : Survives limits request)
    (large : limits.max.toNat < request.toNat) : adjust request.toUInt16 = limits.max := by
  have cut := cut_toNat request
  rcases survives with uncut | left_over | narrow
  · refine adjusts_max limits adjust adjusts _ (UInt16.le_iff_toNat_le.mpr ?_)
    omega
  · refine adjusts_max limits adjust adjusts _ (UInt16.le_iff_toNat_le.mpr ?_)
    omega
  · exact UInt16.le_antisymm (adjusts.below _) (narrow ▸ adjusts.above _)

theorem survives_follows (limits : Limits) (adjust : UInt16 → UInt16)
    (adjusts : Adjusts limits adjust) (request request' : UInt64)
    (survives : Survives limits request) (survives' : Survives limits request') :
    Follows limits request request' (adjust request.toUInt16) (adjust request'.toUInt16) where
  ordered le := by
    have cut := cut_toNat request
    have cut' := cut_toNat request'
    by_cases large : limits.max.toNat < request'.toNat
    · rw [survives_capped limits adjust adjusts request' survives' large]
      exact adjusts.below _
    · -- neither request is above the maximum, so neither is cut
      have small := UInt16.toNat_lt limits.max
      rw [UInt64.le_iff_toNat_le] at le
      refine adjusts.monotone _ _ (UInt16.le_iff_toNat_le.mpr ?_)
      omega
  capped := survives_capped limits adjust adjusts request survives
  capped' := survives_capped limits adjust adjusts request' survives'

/-- The adjustment of a device without an alignment of its own. -/
def clamp (limits : Limits) (count : UInt16) : UInt16 :=
  if count < limits.min then limits.min
  else if limits.max < count then limits.max
  else count

theorem clamp_toNat (limits : Limits) (count : UInt16) :
    (clamp limits count).toNat = max limits.min.toNat (min count.toNat limits.max.toNat) := by
  have valid := UInt16.le_iff_toNat_le.mp limits.valid
  unfold clamp
  split
  · next low =>
      rw [UInt16.lt_iff_toNat_lt] at low
      omega
  · next high =>
      rw [UInt16.lt_iff_toNat_lt] at high
      split
      · next larger =>
          rw [UInt16.lt_iff_toNat_lt] at larger
          omega
      · next within =>
          rw [UInt16.lt_iff_toNat_lt] at within
          omega

theorem clamp_adjusts (limits : Limits) : Adjusts limits (clamp limits) := by
  have valid := UInt16.le_iff_toNat_le.mp limits.valid
  constructor
  case monotone =>
    intro count count' le
    rw [UInt16.le_iff_toNat_le] at le ⊢
    rw [clamp_toNat, clamp_toNat]
    omega
  case above =>
    intro count
    rw [UInt16.le_iff_toNat_le, clamp_toNat]
    omega
  case below =>
    intro count
    rw [UInt16.le_iff_toNat_le, clamp_toNat]
    omega
  case at_max =>
    rw [← UInt16.toNat_inj, clamp_toNat]
    omega

/-- A clamp tells a request that was cut below the maximum from one that was not. -/
theorem survives_of_capped (limits : Limits) (request : UInt64)
    (capped : limits.max.toNat < request.toNat → clamp limits request.toUInt16 = limits.max) :
    Survives limits request := by
  by_contra lost
  simp only [Survives, not_or] at lost
  obtain ⟨cut, below, wide⟩ := lost
  have small := UInt16.toNat_lt limits.max
  have value := congrArg UInt16.toNat (capped (by omega))
  rw [clamp_toNat, cut_toNat] at value
  exact wide (UInt16.toNat_inj.mp (by omega))

def clampDevice (rx tx : Limits) : Device := .willing
  { max_rx_queues := 1, max_tx_queues := 1, flow_type_rss_offloads := 0, tx_offload_capa := 0 }
  fun rxd txd => some (clamp rx rxd, clamp tx txd)

theorem clampDevice_limited (rx tx : Limits) : Limited rx tx (clampDevice rx tx) :=
  ⟨clamp rx, clamp tx, clamp_adjusts rx, clamp_adjusts tx, fun _ _ => Or.inr rfl⟩

theorem capacity_cases (device : Device) (self : PortBuilder) (rxd txd : UInt64)
    (granted : (rxTxQueueCapacity device self rxd txd).1 = .ok ()) :
    ∃ rxd2 txd2, device.adjust_nb_rx_tx_desc rxd.toUInt16 txd.toUInt16 = some (rxd2, txd2) ∧
      (rxTxQueueCapacity device self rxd txd).2 = { self with rxd := rxd2, txd := txd2 } := by
  unfold rxTxQueueCapacity at granted ⊢
  split at granted
  · cases granted
  · next rxd2 txd2 adjusted => exact ⟨rxd2, txd2, adjusted, rfl⟩

/-- What a limited device stores is its adjustment of the cut request. -/
theorem limited_stores (device : Device) (adjustRx adjustTx : UInt16 → UInt16)
    (answers : ∀ rxd txd, device.adjust_nb_rx_tx_desc rxd txd = none ∨
      device.adjust_nb_rx_tx_desc rxd txd = some (adjustRx rxd, adjustTx txd))
    (self : PortBuilder) (rxd txd : UInt64)
    (granted : (rxTxQueueCapacity device self rxd txd).1 = .ok ()) :
    (rxTxQueueCapacity device self rxd txd).2.rxd = adjustRx rxd.toUInt16 ∧
      (rxTxQueueCapacity device self rxd txd).2.txd = adjustTx txd.toUInt16 := by
  obtain ⟨rxd2, txd2, adjusted, stored⟩ := capacity_cases device self rxd txd granted
  rw [stored]
  rcases answers rxd.toUInt16 txd.toUInt16 with failed | answer
  · rw [failed] at adjusted
    cases adjusted
  · rw [answer] at adjusted
    cases adjusted
    exact ⟨rfl, rfl⟩

/-- On every device with these limits the requests are clamped, exactly when none of them
loses its upper bits and falls below a maximum that is above the minimum. -/
theorem clamped_iff_survive (rx tx : Limits) (rxd rxd' txd txd' : UInt64) :
    (∀ device, Limited rx tx device → Clamped rx tx device rxd rxd' txd txd') ↔
      (Survives rx rxd ∧ Survives rx rxd') ∧ Survives tx txd ∧ Survives tx txd' := by
  constructor
  · intro clamped
    let builder : PortBuilder := .fresh "eth1" "0000:02:00.0" 0 (clampDevice rx tx).info
    obtain ⟨rxFollows, txFollows⟩ :=
      clamped (clampDevice rx tx) (clampDevice_limited rx tx) builder builder rfl rfl
    exact ⟨⟨survives_of_capped rx rxd rxFollows.capped, survives_of_capped rx rxd' rxFollows.capped'⟩,
      survives_of_capped tx txd txFollows.capped, survives_of_capped tx txd' txFollows.capped'⟩
  · rintro ⟨⟨rxOne, rxTwo⟩, txOne, txTwo⟩ device ⟨adjustRx, adjustTx, rxAdjusts, txAdjusts, answers⟩
    intro self self' granted granted'
    obtain ⟨rxStored, txStored⟩ :=
      limited_stores device adjustRx adjustTx answers self rxd txd granted
    obtain ⟨rxStored', txStored'⟩ :=
      limited_stores device adjustRx adjustTx answers self' rxd' txd' granted'
    rw [rxStored, rxStored', txStored, txStored']
    exact ⟨survives_follows rx adjustRx rxAdjusts rxd rxd' rxOne rxTwo,
      survives_follows tx adjustTx txAdjusts txd txd' txOne txTwo⟩

def usualLimits : Limits := { min := 64, max := 4096, valid := by decide }

/-- A request of 65600 comes to 64 descriptors where one of 4096 comes to 4096. -/
theorem larger_request_shrinks :
    ¬ ∀ device, Limited usualLimits usualLimits device →
      Clamped usualLimits usualLimits device 4096 65600 4096 4096 := by
  intro clamped
  let builder : PortBuilder :=
    .fresh "eth1" "0000:02:00.0" 0 (clampDevice usualLimits usualLimits).info
  have follows := (clamped (clampDevice usualLimits usualLimits)
    (clampDevice_limited usualLimits usualLimits) builder builder rfl rfl).1
  have shrunk : (rxTxQueueCapacity (clampDevice usualLimits usualLimits) builder 65600 4096).2.rxd =
      64 := by decide
  have kept : (rxTxQueueCapacity (clampDevice usualLimits usualLimits) builder 4096 4096).2.rxd =
      4096 := by decide
  have ordered := follows.ordered (by decide)
  rw [kept, shrunk] at ordered
  exact absurd ordered (by decide)

end L2Switch.QueueCapacities
