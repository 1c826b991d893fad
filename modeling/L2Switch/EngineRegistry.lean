import L2Switch.NumberText
import L2Switch.RingChannel

/-!
`Engine::set_client_status` of runtime/engine.rs over the engine's two maps and
the rte_rings. An `Outcome` holds what the environment decides during one call:
whether each ring creation and the reply succeed.
-/
namespace L2Switch.EngineRegistry
open DpdkRings RingChannel

def PACKET_READ_SIZE : Nat := 32

inductive ClientStatus where
  | STARTING
  | READY
  deriving DecidableEq

abbrev StatusMap := AList fun _ : UInt16 => ClientStatus

structure Registry where
  statusmap : StatusMap
  ring_map : RingMap
  rings : Rings

def Registry.new : Registry := { statusmap := ∅, ring_map := ∅, rings := .none }

structure Outcome where
  rx_created : Bool
  tx_created : Bool
  replied : Bool

def Outcome.granted : Outcome := { rx_created := true, tx_created := true, replied := true }

/-- What a call returns, the registry it leaves, and whether it sent its reply. -/
structure Handled where
  result : Fallible Unit
  registry : Registry
  reply_sent : Bool

def rxName (id : UInt16) : String := "RX-" ++ toString id.toNat

def txName (id : UInt16) : String := "TX-" ++ toString id.toNat

/-- Code 0. A value that is not moved into the map is dropped on the way out, the
later one first. -/
def startClient (registry : Registry) (id : UInt16) (outcome : Outcome) : Handled :=
  match Ring.new registry.rings id .RX (rxName id) PACKET_READ_SIZE outcome.rx_created with
  | (.error failure, rings) =>
      { result := .error failure, registry := { registry with rings }, reply_sent := false }
  | (.ok rx_q, rings) =>
      match Ring.new rings id .TX (txName id) PACKET_READ_SIZE outcome.tx_created with
      | (.error failure, rings) =>
          { result := .error failure
            registry := { registry with rings := rx_q.drop rings }
            reply_sent := false }
      | (.ok tx_q, rings) =>
          if outcome.replied then
            -- the channel that `insert` replaces is dropped
            let rings := match registry.ring_map.lookup id with
              | some replaced => replaced.drop rings
              | none => rings
            { result := .ok ()
              registry :=
                { statusmap := registry.statusmap.insert id .STARTING
                  ring_map := registry.ring_map.insert id { tx_q, rx_q }
                  rings }
              reply_sent := true }
          else
            { result := .error .zmq_error
              registry := { registry with rings := rx_q.drop (tx_q.drop rings) }
              reply_sent := false }

/-- Code 1. -/
def readyClient (registry : Registry) (id : UInt16) : Handled :=
  match registry.statusmap.lookup id with
  | some _ =>
      { result := .ok ()
        registry := { registry with statusmap := registry.statusmap.insert id .READY }
        reply_sent := false }
  | none =>
      { result := .error (.message "Failed to get client"), registry, reply_sent := false }

/-- Code 2. -/
def stopClient (registry : Registry) (id : UInt16) : Handled :=
  match registry.statusmap.lookup id with
  | none =>
      { result := .error (.message "Failed to remove client"), registry, reply_sent := false }
  | some _ =>
      let statusmap := registry.statusmap.erase id
      match registry.ring_map.lookup id with
      | none =>
          { result := .error (.message "Failed to remove client")
            registry := { registry with statusmap }
            reply_sent := false }
      | some removed =>
          { result := .ok ()
            registry :=
              { statusmap, ring_map := registry.ring_map.erase id
                rings := removed.drop registry.rings }
            reply_sent := false }

def setClientStatus (registry : Registry) (id : UInt16) (m : UInt64) (outcome : Outcome) :
    Handled :=
  if m = 0 then startClient registry id outcome
  else if m = 1 then readyClient registry id
  else if m = 2 then stopClient registry id
  else { result := .error (.message "Unknown client status"), registry, reply_sent := false }

theorem id_text_injective (left right : UInt16)
    (same : toString left.toNat = toString right.toNat) : left = right := by
  have texts := congrArg String.toList same
  rw [NumberText.toString_toList, NumberText.toString_toList] at texts
  have numbers := congrArg NumberText.readDecimal texts
  rw [NumberText.readDecimal_digits, NumberText.readDecimal_digits] at numbers
  exact UInt16.toNat_inj.mp (Option.some.inj numbers)

theorem rxName_inj (left right : UInt16) (same : rxName left = rxName right) : left = right :=
  id_text_injective left right ((String.append_right_inj _).mp same)

theorem txName_inj (left right : UInt16) (same : txName left = txName right) : left = right :=
  id_text_injective left right ((String.append_right_inj _).mp same)

theorem rxName_ne_txName (left right : UInt16) : rxName left ≠ txName right := by
  intro same
  have texts := congrArg String.toList same
  simp [rxName, txName] at texts

theorem names_apart (left right : UInt16) (different : left ≠ right) :
    txName left ≠ txName right ∧ rxName left ≠ rxName right :=
  ⟨fun clash => different (txName_inj left right clash),
    fun clash => different (rxName_inj left right clash)⟩

/-- The rings after both creations of a start. -/
def ringsStarted (rings : Rings) (id : UInt16) : Rings :=
  (rings.created (rxName id) PACKET_READ_SIZE).created (txName id) PACKET_READ_SIZE

def freshChannel (rings : Rings) (id : UInt16) : Channel :=
  { tx_q := { client_id := id, rtype := .TX, raw := (rings.created (rxName id) PACKET_READ_SIZE).next }
    rx_q := { client_id := id, rtype := .RX, raw := rings.next } }

/-- Both names are free and the environment lets all three calls through. -/
def Startable (registry : Registry) (id : UInt16) (outcome : Outcome) : Prop :=
  registry.rings.registry (rxName id) = none ∧ registry.rings.registry (txName id) = none ∧
    outcome.rx_created = true ∧ outcome.tx_created = true ∧ outcome.replied = true

def startedRegistry (registry : Registry) (id : UInt16) : Registry :=
  { statusmap := registry.statusmap.insert id .STARTING
    ring_map := registry.ring_map.insert id (freshChannel registry.rings id)
    rings := match registry.ring_map.lookup id with
      | some replaced => replaced.drop (ringsStarted registry.rings id)
      | none => ringsStarted registry.rings id }

/-- All a start can do: fail and undo its creations, or enter the client. -/
theorem start_cases (registry : Registry) (tidy : registry.rings.Tidy) (id : UInt16)
    (outcome : Outcome) :
    (¬ Startable registry id outcome ∧ ∃ failure after,
        startClient registry id outcome =
          { result := .error failure, registry := { registry with rings := after }
            reply_sent := false } ∧
        Scratch registry.rings after ∧ after.Tidy) ∨
      (Startable registry id outcome ∧
        startClient registry id outcome =
          { result := .ok (), registry := startedRegistry registry id, reply_sent := true }) := by
  rcases ring_new_cases registry.rings id .RX (rxName id) PACKET_READ_SIZE outcome.rx_created with
    ⟨refused, rxRefused⟩ | ⟨rxFree, rxGranted, rxMade⟩
  -- the first creation fails before anything is made
  · refine Or.inl ⟨fun able => refused ⟨able.1, able.2.2.1⟩, .dpdk_error, registry.rings, ?_,
      scratch_refl _, tidy⟩
    simp [startClient, rxRefused]
  have rxTidy := created_tidy registry.rings tidy (rxName id) PACKET_READ_SIZE rxFree
  have rxEq := created_eq registry.rings (rxName id) PACKET_READ_SIZE rxFree
  have rxKnown : (registry.rings.created (rxName id) PACKET_READ_SIZE).Created registry.rings.next := by
    rw [rxEq]
    exact List.mem_cons_self
  rcases ring_new_cases (registry.rings.created (rxName id) PACKET_READ_SIZE) id .TX (txName id)
      PACKET_READ_SIZE outcome.tx_created with ⟨refused, txRefused⟩ | ⟨txFree, txGranted, txMade⟩
  -- the second one fails and the early return drops `rx_q`
  · refine Or.inl ⟨fun able => refused ⟨?_, able.2.2.2.1⟩, .dpdk_error, _, ?_,
      scratch_undo registry.rings _ tidy (rxName id) PACKET_READ_SIZE rxFree (scratch_refl _),
      free_tidy _ rxTidy _ rxKnown⟩
    · rw [rxEq]
      simpa [(rxName_ne_txName id id).symm] using able.2.1
    · simp [startClient, rxMade, txRefused, Ring.drop]
  have txTidy := created_tidy _ rxTidy (txName id) PACKET_READ_SIZE txFree
  have txEq := created_eq _ (txName id) PACKET_READ_SIZE txFree
  have txKnown : (ringsStarted registry.rings id).Created
      (registry.rings.created (rxName id) PACKET_READ_SIZE).next := by
    rw [ringsStarted, txEq]
    exact List.mem_cons_self
  have txFreeBefore : registry.rings.registry (txName id) = none := by
    rw [rxEq] at txFree
    simpa [(rxName_ne_txName id id).symm] using txFree
  cases replied : outcome.replied with
  | true =>
      refine Or.inr ⟨⟨rxFree, txFreeBefore, rxGranted, txGranted, replied⟩, ?_⟩
      simp only [startClient, rxMade, txMade, replied, ↓reduceIte, startedRegistry, freshChannel,
        ringsStarted]
  | false =>
      -- the reply fails: both rings go, the later one first, each undoing its creation
      have inner := scratch_undo _ _ rxTidy (txName id) PACKET_READ_SIZE txFree (scratch_refl _)
      have innerTidy := free_tidy _ txTidy _ txKnown
      have unsent : ¬ Startable registry id outcome := by simp [Startable, replied]
      refine Or.inl ⟨unsent, .zmq_error, _, ?_,
        scratch_undo registry.rings _ tidy (rxName id) PACKET_READ_SIZE rxFree inner,
        free_tidy _ innerTidy _ ?_⟩
      · simp [startClient, rxMade, txMade, replied, Ring.drop]
      · exact List.mem_cons_of_mem _ (by rw [txEq]; exact List.mem_cons_of_mem _ rxKnown)

end L2Switch.EngineRegistry
