import L2Switch.Histories
import L2Switch.RegistryHistory

/-!
The clients of an engine one by one. `set_client_status` works on two maps and on DPDK's
names for the rings, which all clients share; what one client sees of it is a machine that
knows its own status and nothing else.
-/
namespace L2Switch.ClientIsolation
open Histories DpdkRings EngineRegistry RegistryHistory RingChannel

structure Answer where
  result : Fallible Unit
  reply_sent : Bool

def refusal (failure : Failure) : Answer := { result := .error failure, reply_sent := false }

/-- A start is the only call that is replied to. -/
def startOwn (status : Option ClientStatus) (outcome : Outcome) : Option ClientStatus × Answer :=
  if status = none ∧ outcome.rx_created = true ∧ outcome.tx_created = true then
    if outcome.replied then (some .STARTING, { result := .ok (), reply_sent := true })
    else (none, refusal .zmq_error)
  else (status, refusal .dpdk_error)

def readyOwn (status : Option ClientStatus) : Option ClientStatus × Answer :=
  if status = none then (none, refusal (.message "Failed to get client"))
  else (some .READY, { result := .ok (), reply_sent := false })

def stopOwn (status : Option ClientStatus) : Option ClientStatus × Answer :=
  if status = none then (none, refusal (.message "Failed to remove client"))
  else (none, { result := .ok (), reply_sent := false })

/-- One client on its own: no names, no rings, nobody else. -/
def callOwn (status : Option ClientStatus) (call : Call) : Option ClientStatus × Answer :=
  if call.m = 0 then startOwn status call.outcome
  else if call.m = 1 then readyOwn status
  else if call.m = 2 then stopOwn status
  else (status, refusal (.message "Unknown client status"))

/-- A call on the engine that is done with, whatever it returned. -/
def engineCall (registry : Registry) (call : Call) : Registry × Answer :=
  let handled := setClientStatus registry call.id call.m call.outcome
  (handled.registry, { result := handled.result, reply_sent := handled.reply_sent })

def statusIn (registry : Registry) (id : UInt16) : Option ClientStatus :=
  registry.statusmap.lookup id

/-- What a client is left with, and what its calls were told, is what it would be if it were
the only one; its rings can be looked up for as long as it has a status. -/
structure OnItsOwn (calls : List Call) (id : UInt16) : Prop where
  status : statusIn (final engineCall .new calls) id =
    final callOwn none (calls.filter fun call => call.id = id)
  told : (answers engineCall .new calls).filter (fun entry => entry.1.id = id) =
    answers callOwn none (calls.filter fun call => call.id = id)
  rings : ∀ name, name = rxName id ∨ name = txName id →
    (rteRingLookup (final engineCall .new calls).rings name).isSome =
      (statusIn (final engineCall .new calls) id).isSome

/-- The names of a client are taken exactly while it has a status. -/
theorem name_taken_iff (registry : Registry) (sound : Sound registry) (id : UInt16) (name : String)
    (named : name = rxName id ∨ name = txName id) :
    (registry.rings.registry name).isSome = (statusIn registry id).isSome := by
  rw [statusIn, sound.keys id]
  cases mapped : registry.ring_map.lookup id with
  | some channel =>
      obtain ⟨tx, rx⟩ := sound.wrapped id channel mapped
      rcases named with rfl | rfl
      · rw [rx]
        rfl
      · rw [tx]
        rfl
  | none =>
      cases taken : registry.rings.registry name with
      | none => rfl
      | some ring =>
          obtain ⟨owner, held, same⟩ := sound.owned name ring taken
          have mine : owner = id := by
            rcases named with rfl | rfl <;> rcases same with same | same
            · exact absurd same (rxName_ne_txName id owner)
            · exact (rxName_inj id owner same).symm
            · exact (txName_inj id owner same).symm
            · exact absurd same.symm (rxName_ne_txName owner id)
          rw [mine, mapped] at held
          cases held

/-- Both names are free and both rings can be made. -/
def Creatable (registry : Registry) (id : UInt16) (outcome : Outcome) : Prop :=
  registry.rings.registry (rxName id) = none ∧ registry.rings.registry (txName id) = none ∧
    outcome.rx_created = true ∧ outcome.tx_created = true

/-- A start says whether its rings or its reply stood in the way. -/
theorem start_told (registry : Registry) (id : UInt16) (outcome : Outcome) :
    (¬ Creatable registry id outcome ∧ ∃ rings, startClient registry id outcome =
        { result := .error .dpdk_error, registry := { registry with rings }, reply_sent := false }) ∨
      (Creatable registry id outcome ∧ outcome.replied = false ∧
        ∃ rings, startClient registry id outcome =
          { result := .error .zmq_error, registry := { registry with rings }, reply_sent := false }) ∨
      (Creatable registry id outcome ∧ outcome.replied = true ∧
        ∃ ring_map rings, startClient registry id outcome =
          { result := .ok ()
            registry := { statusmap := registry.statusmap.insert id .STARTING, ring_map, rings }
            reply_sent := true }) := by
  rcases ring_new_cases registry.rings id .RX (rxName id) PACKET_READ_SIZE outcome.rx_created with
    ⟨refused, rxRefused⟩ | ⟨rxFree, rxGranted, rxMade⟩
  · refine Or.inl ⟨fun able => refused ⟨able.1, able.2.2.1⟩, ?_⟩
    simp only [startClient, rxRefused]
    exact ⟨_, rfl⟩
  have apart : (registry.rings.created (rxName id) PACKET_READ_SIZE).registry (txName id) =
      registry.rings.registry (txName id) := by
    rw [created_eq registry.rings (rxName id) PACKET_READ_SIZE rxFree]
    simp [(rxName_ne_txName id id).symm]
  rcases ring_new_cases (registry.rings.created (rxName id) PACKET_READ_SIZE) id .TX (txName id)
      PACKET_READ_SIZE outcome.tx_created with ⟨refused, txRefused⟩ | ⟨txFree, txGranted, txMade⟩
  · refine Or.inl ⟨fun able => refused ⟨apart.trans able.2.1, able.2.2.2⟩, ?_⟩
    simp only [startClient, rxMade, txRefused]
    exact ⟨_, rfl⟩
  have able : Creatable registry id outcome := ⟨rxFree, apart.symm.trans txFree, rxGranted, txGranted⟩
  cases replied : outcome.replied with
  | false =>
      refine Or.inr (Or.inl ⟨able, rfl, ?_⟩)
      simp only [startClient, rxMade, txMade, replied]
      exact ⟨_, rfl⟩
  | true =>
      refine Or.inr (Or.inr ⟨able, rfl, ?_⟩)
      simp only [startClient, rxMade, txMade, replied]
      exact ⟨_, _, rfl⟩

/-- In a sound registry the names of a client stand for its status. -/
theorem creatable_iff (registry : Registry) (sound : Sound registry) (id : UInt16)
    (outcome : Outcome) : Creatable registry id outcome ↔
      statusIn registry id = none ∧ outcome.rx_created = true ∧ outcome.tx_created = true := by
  have rxTaken := name_taken_iff registry sound id (rxName id) (Or.inl rfl)
  have txTaken := name_taken_iff registry sound id (txName id) (Or.inr rfl)
  rw [Creatable, ← Option.isNone_iff_eq_none, ← Option.isNone_iff_eq_none,
    ← Option.isNone_iff_eq_none, ← Option.not_isSome, ← Option.not_isSome, ← Option.not_isSome,
    rxTaken, txTaken]
  tauto

theorem start_here (registry : Registry) (sound : Sound registry) (id : UInt16) (outcome : Outcome) :
    (statusIn (startClient registry id outcome).registry id,
        ({ result := (startClient registry id outcome).result
           reply_sent := (startClient registry id outcome).reply_sent } : Answer)) =
      startOwn (statusIn registry id) outcome := by
  have creatable := creatable_iff registry sound id outcome
  rcases start_told registry id outcome with
    ⟨unable, rings, told⟩ | ⟨able, replied, rings, told⟩ | ⟨able, replied, ring_map, rings, told⟩
  · rw [creatable] at unable
    rw [told, startOwn, if_neg unable]
    rfl
  · rw [creatable] at able
    rw [told, startOwn, if_pos able, replied]
    exact congrArg (·, refusal .zmq_error) able.1
  · rw [creatable] at able
    rw [told, startOwn, if_pos able, replied]
    simp [statusIn]

theorem stop_here (registry : Registry) (sound : Sound registry) (id : UInt16) :
    (statusIn (stopClient registry id).registry id,
        ({ result := (stopClient registry id).result
           reply_sent := (stopClient registry id).reply_sent } : Answer)) =
      stopOwn (statusIn registry id) := by
  have together := sound.keys id
  cases known : registry.statusmap.lookup id with
  | none => simp [stopClient, known, stopOwn, statusIn, refusal]
  | some status =>
      cases mapped : registry.ring_map.lookup id with
      | none => simp [known, mapped] at together
      | some removed => simp [stopClient, known, mapped, stopOwn, statusIn]

/-- The engine's two maps and DPDK's names come apart into the clients. -/
theorem engineCall_separable : Separable engineCall callOwn Call.id statusIn Sound where
  kept registry call sound := status_sound registry sound call.id call.m call.outcome
  others registry call other sound different :=
    ((sound_atomic registry sound call).others other different).1
  here registry call sound := by
    simp only [engineCall, setClientStatus, callOwn]
    split
    · exact start_here registry sound call.id call.outcome
    split
    · cases known : registry.statusmap.lookup call.id <;>
        simp [readyClient, known, readyOwn, statusIn, refusal]
    split
    · exact stop_here registry sound call.id
    · rfl

/-- Whatever the other clients do in between, and whatever becomes of it. -/
theorem on_its_own (calls : List Call) (id : UInt16) : OnItsOwn calls id :=
  { status := final_view engineCall_separable .new new_sound calls id
    told := answers_view engineCall_separable .new new_sound calls id
    rings := name_taken_iff _ (final_kept engineCall_separable .new new_sound calls) id }

end L2Switch.ClientIsolation
