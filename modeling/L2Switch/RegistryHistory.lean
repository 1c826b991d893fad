import L2Switch.EngineRegistry
import L2Switch.Histories

/-!
Whole histories of `set_client_status` on an engine that is the only owner of its
rings. `Sound` ties the two maps to DPDK's registry of names; every call either
fails and leaves all three as they were, or moves them together.
-/
namespace L2Switch.RegistryHistory
open Histories DpdkRings RingChannel EngineRegistry

structure Sound (registry : Registry) : Prop where
  tidy : registry.rings.Tidy
  keys : ∀ id, (registry.statusmap.lookup id).isSome = (registry.ring_map.lookup id).isSome
  wrapped : ∀ id channel, registry.ring_map.lookup id = some channel →
    registry.rings.registry (txName id) = some channel.tx_q.raw ∧
      registry.rings.registry (rxName id) = some channel.rx_q.raw
  owned : ∀ name ring, registry.rings.registry name = some ring →
    ∃ id, (registry.ring_map.lookup id).isSome ∧ (name = txName id ∨ name = rxName id)

theorem new_sound : Sound Registry.new :=
  { tidy := none_tidy
    keys := fun id => by simp [Registry.new]
    wrapped := fun id channel found => by simp [Registry.new] at found
    owned := fun name ring found => by simp [Registry.new, Rings.none] at found }

def stoppedRegistry (registry : Registry) (id : UInt16) (removed : Channel) : Registry :=
  { statusmap := registry.statusmap.erase id, ring_map := registry.ring_map.erase id
    rings := removed.drop registry.rings }

theorem stop_mapped (registry : Registry) (id : UInt16) (outcome : Outcome) (removed : Channel)
    (known : (registry.statusmap.lookup id).isSome)
    (mapped : registry.ring_map.lookup id = some removed) :
    setClientStatus registry id 2 outcome =
      { result := .ok (), registry := stoppedRegistry registry id removed, reply_sent := false } := by
  obtain ⟨status, entry⟩ := Option.isSome_iff_exists.mp known
  simp [setClientStatus, stopClient, entry, mapped, stoppedRegistry]

/-- A call failed: it returned an error, replied nothing and left only scratch. -/
def Failed (registry : Registry) (handled : Handled) : Prop :=
  ∃ failure after, handled =
      { result := .error failure, registry := { registry with rings := after }
        reply_sent := false } ∧
    Scratch registry.rings after ∧ after.Tidy

theorem refused_failed (registry : Registry) (tidy : registry.rings.Tidy) (failure : Failure)
    (handled : Handled)
    (refused : handled = { result := .error failure, registry, reply_sent := false }) :
    Failed registry handled :=
  ⟨failure, registry.rings, refused, scratch_refl _, tidy⟩

theorem startable_unknown (registry : Registry) (sound : Sound registry) (id : UInt16)
    (outcome : Outcome) (able : Startable registry id outcome) :
    registry.ring_map.lookup id = none := by
  cases known : registry.ring_map.lookup id with
  | none => rfl
  | some channel =>
      have taken := (sound.wrapped id channel known).1
      simp [able.2.1] at taken

/-- All one call can do to a sound registry. -/
theorem status_cases (registry : Registry) (sound : Sound registry) (id : UInt16) (m : UInt64)
    (outcome : Outcome) :
    (¬ (m = 0 ∧ Startable registry id outcome) ∧
        Failed registry (setClientStatus registry id m outcome)) ∨
      (m = 0 ∧ Startable registry id outcome ∧ registry.ring_map.lookup id = none ∧
        setClientStatus registry id m outcome =
          { result := .ok (), registry := startedRegistry registry id, reply_sent := true }) ∨
      (m = 1 ∧ (registry.statusmap.lookup id).isSome ∧
        setClientStatus registry id m outcome =
          { result := .ok ()
            registry := { registry with statusmap := registry.statusmap.insert id .READY }
            reply_sent := false }) ∨
      (m = 2 ∧ ∃ removed, registry.ring_map.lookup id = some removed ∧
        setClientStatus registry id m outcome =
          { result := .ok (), registry := stoppedRegistry registry id removed
            reply_sent := false }) := by
  by_cases start : m = 0
  · subst start
    rcases start_cases registry sound.tidy id outcome with ⟨unable, failed⟩ | ⟨able, entered⟩
    · exact Or.inl ⟨fun both => unable both.2, failed⟩
    · exact Or.inr (Or.inl ⟨rfl, able, startable_unknown registry sound id outcome able, entered⟩)
  by_cases ready : m = 1
  · subst ready
    cases known : registry.statusmap.lookup id with
    | none =>
        refine Or.inl ⟨fun both => start both.1,
          refused_failed registry sound.tidy (.message "Failed to get client") _ ?_⟩
        simp only [setClientStatus, start, ↓reduceIte, readyClient, known]
    | some status =>
        refine Or.inr (Or.inr (Or.inl ⟨rfl, rfl, ?_⟩))
        simp only [setClientStatus, start, ↓reduceIte, readyClient, known]
  by_cases stop : m = 2
  · subst stop
    have together := sound.keys id
    cases known : registry.statusmap.lookup id with
    | none =>
        refine Or.inl ⟨fun both => start both.1,
          refused_failed registry sound.tidy (.message "Failed to remove client") _ ?_⟩
        simp only [setClientStatus, start, ready, ↓reduceIte, stopClient, known]
    | some status =>
        cases mapped : registry.ring_map.lookup id with
        -- a status without a channel would leave half a removal behind
        | none => simp [known, mapped] at together
        | some removed =>
            have stopped := stop_mapped registry id outcome removed (by simp [known]) mapped
            exact Or.inr (Or.inr (Or.inr ⟨rfl, removed, rfl, stopped⟩))
  · refine Or.inl ⟨fun both => start both.1,
      refused_failed registry sound.tidy (.message "Unknown client status") _ ?_⟩
    simp only [setClientStatus, start, ready, stop, ↓reduceIte]

theorem failed_sound (registry : Registry) (sound : Sound registry) (handled : Handled)
    (failed : Failed registry handled) : Sound handled.registry := by
  obtain ⟨failure, after, rfl, scratch, tidy⟩ := failed
  exact { tidy, keys := sound.keys
          wrapped := fun id channel found => by
            simpa only [scratch.registry] using sound.wrapped id channel found
          owned := fun name ring found => sound.owned name ring (by rwa [← scratch.registry]) }

theorem started_free (registry : Registry) (id : UInt16) (outcome : Outcome)
    (able : Startable registry id outcome) :
    (registry.rings.created (rxName id) PACKET_READ_SIZE).registry (txName id) = none := by
  rw [created_eq registry.rings (rxName id) PACKET_READ_SIZE able.1]
  simpa [(rxName_ne_txName id id).symm] using able.2.1

theorem started_registry (registry : Registry) (id : UInt16) (outcome : Outcome)
    (able : Startable registry id outcome) :
    (ringsStarted registry.rings id).registry =
      Function.update
        (Function.update registry.rings.registry (rxName id) (some (freshChannel registry.rings id).rx_q.raw))
        (txName id) (some (freshChannel registry.rings id).tx_q.raw) := by
  have rxEq := created_eq registry.rings (rxName id) PACKET_READ_SIZE able.1
  rw [ringsStarted, created_eq _ (txName id) PACKET_READ_SIZE (started_free registry id outcome able)]
  simp only [freshChannel, rxEq]

theorem started_tidy (registry : Registry) (tidy : registry.rings.Tidy) (id : UInt16)
    (outcome : Outcome) (able : Startable registry id outcome) :
    (ringsStarted registry.rings id).Tidy :=
  created_tidy _ (created_tidy _ tidy _ _ able.1) _ _ (started_free registry id outcome able)

theorem started_sound (registry : Registry) (sound : Sound registry) (id : UInt16)
    (outcome : Outcome) (able : Startable registry id outcome) :
    Sound (startedRegistry registry id) := by
  have unknown := startable_unknown registry sound id outcome able
  have entries := started_registry registry id outcome able
  have rings : (startedRegistry registry id).rings = ringsStarted registry.rings id := by
    simp [startedRegistry, unknown]
  constructor
  · rw [rings]
    exact started_tidy registry sound.tidy id outcome able
  · intro other
    by_cases same : other = id
    · subst same
      simp [startedRegistry]
    · simpa [startedRegistry, same] using sound.keys other
  · intro other channel found
    rw [rings, entries]
    by_cases same : other = id
    · subst same
      obtain rfl : freshChannel registry.rings other = channel := by
        simpa [startedRegistry] using found
      simp [rxName_ne_txName]
    · have before := sound.wrapped other channel (by simpa [startedRegistry, same] using found)
      obtain ⟨txApart, rxApart⟩ := names_apart other id same
      simpa [txApart, rxApart, rxName_ne_txName, (rxName_ne_txName _ _).symm] using before
  · intro name ring found
    rw [rings, entries] at found
    by_cases tx : name = txName id
    · exact ⟨id, by simp [startedRegistry], Or.inl tx⟩
    by_cases rx : name = rxName id
    · exact ⟨id, by simp [startedRegistry], Or.inr rx⟩
    · obtain ⟨owner, mapped, named⟩ := sound.owned name ring (by simpa [tx, rx] using found)
      refine ⟨owner, ?_, named⟩
      by_cases same : owner = id
      · subst same
        simp [startedRegistry]
      · simpa [startedRegistry, same] using mapped

theorem stopped_sound (registry : Registry) (sound : Sound registry) (id : UInt16)
    (removed : Channel) (mapped : registry.ring_map.lookup id = some removed) :
    Sound (stoppedRegistry registry id removed) := by
  obtain ⟨tx, rx⟩ := sound.wrapped id removed mapped
  obtain ⟨entries, tidy⟩ := channel_drop_registry registry.rings sound.tidy removed (txName id)
    (rxName id) (rxName_ne_txName id id).symm tx rx
  constructor
  · exact tidy
  · intro other
    by_cases same : other = id
    · subst same
      simp [stoppedRegistry]
    · simpa [stoppedRegistry, same] using sound.keys other
  · intro other channel found
    have different : other ≠ id := by
      rintro rfl
      simp [stoppedRegistry] at found
    have before := sound.wrapped other channel (by simpa [stoppedRegistry, different] using found)
    obtain ⟨txApart, rxApart⟩ := names_apart other id different
    simp only [stoppedRegistry]
    rw [entries]
    simpa [txApart, rxApart, rxName_ne_txName, (rxName_ne_txName _ _).symm] using before
  · intro name ring found
    simp only [stoppedRegistry] at found
    rw [entries] at found
    have tx : name ≠ txName id := by
      rintro rfl
      simp [(rxName_ne_txName id id).symm] at found
    have rx : name ≠ rxName id := by
      rintro rfl
      simp at found
    obtain ⟨owner, present, named⟩ := sound.owned name ring (by simpa [tx, rx] using found)
    have different : owner ≠ id := by
      rintro rfl
      exact named.elim tx rx
    exact ⟨owner, by simpa [stoppedRegistry, different] using present, named⟩

theorem status_sound (registry : Registry) (sound : Sound registry) (id : UInt16) (m : UInt64)
    (outcome : Outcome) : Sound (setClientStatus registry id m outcome).registry := by
  rcases status_cases registry sound id m outcome with
    ⟨_, failed⟩ | ⟨_, able, _, entered⟩ | ⟨_, known, ready⟩ | ⟨_, removed, mapped, stopped⟩
  · exact failed_sound registry sound _ failed
  · rw [entered]
    exact started_sound registry sound id outcome able
  · rw [ready]
    refine { tidy := sound.tidy, keys := fun other => ?_, wrapped := sound.wrapped, owned := sound.owned }
    by_cases same : other = id
    · subst same
      simpa [known] using sound.keys other
    · simpa [same] using sound.keys other
  · rw [stopped]
    exact stopped_sound registry sound id removed mapped

theorem mapped_live (registry : Registry) (sound : Sound registry) (id : UInt16)
    (channel : Channel) (mapped : registry.ring_map.lookup id = some channel) (ring : RingPtr)
    (wraps : ring ∈ channel.raws) : registry.rings.Live ring := by
  obtain ⟨tx, rx⟩ := sound.wrapped id channel mapped
  simp only [Channel.raws, List.mem_cons, List.not_mem_nil, or_false] at wraps
  rcases wraps with rfl | rfl
  · exact registered_live _ sound.tidy _ _ tx
  · exact registered_live _ sound.tidy _ _ rx

theorem live_mapped (registry : Registry) (sound : Sound registry) (ring : RingPtr)
    (live : registry.rings.Live ring) :
    ∃ id channel, registry.ring_map.lookup id = some channel ∧ ring ∈ channel.raws := by
  have entry := (sound.tidy.live_iff ring).mp live
  obtain ⟨id, mapped, named⟩ := sound.owned _ ring entry
  obtain ⟨channel, found⟩ := Option.isSome_iff_exists.mp mapped
  obtain ⟨tx, rx⟩ := sound.wrapped id channel found
  refine ⟨id, channel, found, ?_⟩
  rcases named with same | same
  · rw [same, tx] at entry
    simp [Channel.raws, Option.some_inj.mp entry]
  · rw [same, rx] at entry
    simp [Channel.raws, Option.some_inj.mp entry]

theorem mapped_apart (registry : Registry) (sound : Sound registry) (id : UInt16)
    (channel : Channel) (mapped : registry.ring_map.lookup id = some channel) :
    channel.tx_q.raw ≠ channel.rx_q.raw := by
  obtain ⟨tx, rx⟩ := sound.wrapped id channel mapped
  intro same
  have txEntry := sound.tidy.registered _ _ tx
  rw [same, sound.tidy.registered _ _ rx] at txEntry
  exact rxName_ne_txName id id txEntry

theorem status_unused (registry : Registry) (sound : Sound registry) (id : UInt16) (m : UInt64)
    (outcome : Outcome) (unused : registry.rings.Unused (PACKET_READ_SIZE - 1)) :
    (setClientStatus registry id m outcome).registry.rings.Unused (PACKET_READ_SIZE - 1) := by
  rcases status_cases registry sound id m outcome with
    ⟨_, failure, after, failed, scratch, _⟩ | ⟨_, able, unknown, entered⟩ | ⟨_, _, ready⟩ |
      ⟨_, removed, _, stopped⟩
  · rw [failed]
    exact scratch_unused registry.rings after sound.tidy scratch _ unused
  · have rings : (startedRegistry registry id).rings = ringsStarted registry.rings id := by
      simp [startedRegistry, unknown]
    have first := created_unused registry.rings sound.tidy (rxName id) PACKET_READ_SIZE able.1 unused
    have tidy := created_tidy registry.rings sound.tidy (rxName id) PACKET_READ_SIZE able.1
    rw [entered]
    simp only [rings]
    exact created_unused _ tidy (txName id) PACKET_READ_SIZE (started_free registry id outcome able)
      first
  · rw [ready]
    exact unused
  · rw [stopped]
    exact free_unused _ _ _ (free_unused _ _ _ unused)

structure Call where
  id : UInt16
  m : UInt64
  outcome : Outcome

/-- The registry with the successful calls that led to it, newest first. -/
structure Past where
  registry : Registry
  succeeded : List (UInt16 × UInt64)

def Past.new : Past := { registry := .new, succeeded := [] }

def callStep (past : Past) (call : Call) : Option Past :=
  let handled := setClientStatus past.registry call.id call.m call.outcome
  match handled.result with
  | .ok _ =>
      some { registry := handled.registry, succeeded := (call.id, call.m) :: past.succeeded }
  | .error _ => some { past with registry := handled.registry }

def codesOf (id : UInt16) (succeeded : List (UInt16 × UInt64)) : List UInt64 :=
  (succeeded.filter fun entry => entry.1 = id).map Prod.snd

def sinceStart (codes : List UInt64) : List UInt64 := codes.takeWhile fun code => code ≠ 0

/-- The last successful start has been followed by a successful ready and no
successful stop. -/
def ReadySinceStart (codes : List UInt64) : Prop :=
  0 ∈ codes ∧ 1 ∈ sinceStart codes ∧ 2 ∉ sinceStart codes

/-- A refused call changes neither map nor the live rings, and no call touches
another client's entries. -/
structure Atomic (registry : Registry) (call : Call) : Prop where
  refused : ∀ failure,
    (setClientStatus registry call.id call.m call.outcome).result = .error failure →
      (setClientStatus registry call.id call.m call.outcome).registry.statusmap = registry.statusmap ∧
      (setClientStatus registry call.id call.m call.outcome).registry.ring_map = registry.ring_map ∧
      ∀ ring, (setClientStatus registry call.id call.m call.outcome).registry.rings.Live ring ↔
        registry.rings.Live ring
  others : ∀ other, other ≠ call.id →
    (setClientStatus registry call.id call.m call.outcome).registry.statusmap.lookup other =
        registry.statusmap.lookup other ∧
      (setClientStatus registry call.id call.m call.outcome).registry.ring_map.lookup other =
        registry.ring_map.lookup other

structure Lawful (past : Past) : Prop where
  keys : ∀ id, id ∈ past.registry.statusmap ↔ id ∈ past.registry.ring_map
  live : ∀ name, (∃ ring, past.registry.rings.Live ring ∧ past.registry.rings.name ring = name) ↔
    ∃ id, id ∈ past.registry.ring_map ∧ (name = rxName id ∨ name = txName id)
  one_each : ∀ ring other, past.registry.rings.Live ring → past.registry.rings.Live other →
    past.registry.rings.name ring = past.registry.rings.name other → ring = other
  ready : ∀ id, past.registry.statusmap.lookup id = some .READY ↔
    ReadySinceStart (codesOf id past.succeeded)
  atomic : ∀ call, Atomic past.registry call

/-- The status that a list of successful codes leaves behind. -/
def statusOf : List UInt64 → Option ClientStatus
  | [] => none
  | code :: earlier =>
      if code = 0 then some .STARTING
      else if code = 1 then (statusOf earlier).map fun _ => .READY
      else if code = 2 then none
      else statusOf earlier

theorem statusOf_none_iff (codes : List UInt64) :
    statusOf codes = none ↔ 0 ∉ codes ∨ 2 ∈ sinceStart codes := by
  induction codes with
  | nil => simp [statusOf]
  | cons code earlier ih =>
      unfold statusOf
      split
      · next start => simp [start, sinceStart]
      · next other =>
          split
          · next ready => simpa [ready, sinceStart] using ih
          · split
            · next stop => simp [stop, sinceStart]
            · next unready unstopped =>
                simpa [sinceStart, other, unready, unstopped, Ne.symm other, Ne.symm unstopped] using ih

theorem statusOf_ready_iff (codes : List UInt64) :
    statusOf codes = some .READY ↔ ReadySinceStart codes := by
  induction codes with
  | nil => simp [statusOf, ReadySinceStart]
  | cons code earlier ih =>
      unfold statusOf
      split
      · next start => simp [start, sinceStart, ReadySinceStart]
      · next other =>
          split
          · next ready =>
              -- a ready that succeeded found the client, so a start stands behind it
              have unknown := statusOf_none_iff earlier
              cases status : statusOf earlier <;>
                simp [status, ready, sinceStart, ReadySinceStart] at unknown ⊢ <;> tauto
          · split
            · next stop => simp [stop, sinceStart, ReadySinceStart]
            · next unready unstopped =>
                simpa [sinceStart, ReadySinceStart, other, unready, unstopped, Ne.symm other,
                  Ne.symm unready, Ne.symm unstopped] using ih

/-- A sound registry whose statuses are those the successful calls leave. -/
structure Tracked (past : Past) : Prop where
  sound : Sound past.registry
  statuses : ∀ id, past.registry.statusmap.lookup id = statusOf (codesOf id past.succeeded)

theorem codesOf_same (id : UInt16) (m : UInt64) (succeeded : List (UInt16 × UInt64)) :
    codesOf id ((id, m) :: succeeded) = m :: codesOf id succeeded := by
  simp [codesOf]

theorem codesOf_other (id other : UInt16) (different : other ≠ id) (m : UInt64)
    (succeeded : List (UInt16 × UInt64)) :
    codesOf other ((id, m) :: succeeded) = codesOf other succeeded := by
  simp [codesOf, Ne.symm different]

theorem call_tracked (past next : Past) (call : Call) (tracked : Tracked past)
    (stepped : callStep past call = some next) : Tracked next := by
  have sound := status_sound past.registry tracked.sound call.id call.m call.outcome
  have cases_of := status_cases past.registry tracked.sound call.id call.m call.outcome
  simp only [callStep] at stepped
  rcases cases_of with
    ⟨_, failure, after, failed, _⟩ | ⟨start, _, _, entered⟩ | ⟨code, known, ready⟩ |
      ⟨code, removed, _, stopped⟩
  · rw [failed] at stepped sound
    cases stepped
    exact { sound, statuses := tracked.statuses }
  · rw [entered] at stepped sound
    cases stepped
    refine { sound, statuses := fun id => ?_ }
    by_cases same : id = call.id
    · subst same
      rw [codesOf_same, start]
      simp [startedRegistry, statusOf]
    · rw [codesOf_other call.id id same]
      simpa [startedRegistry, same] using tracked.statuses id
  · rw [ready] at stepped sound
    cases stepped
    refine { sound, statuses := fun id => ?_ }
    by_cases same : id = call.id
    · subst same
      have before := tracked.statuses call.id
      rw [codesOf_same, code]
      cases status : statusOf (codesOf call.id past.succeeded) with
      | none => simp [before, status] at known
      | some earlier => simp [statusOf, status]
    · rw [codesOf_other call.id id same]
      simpa [same] using tracked.statuses id
  · rw [stopped] at stepped sound
    cases stepped
    refine { sound, statuses := fun id => ?_ }
    by_cases same : id = call.id
    · subst same
      rw [codesOf_same, code]
      simp [stoppedRegistry, statusOf]
    · rw [codesOf_other call.id id same]
      simpa [stoppedRegistry, same] using tracked.statuses id

theorem call_unused (past : Past) (call : Call) (next : Past)
    (kept : Tracked past ∧ past.registry.rings.Unused (PACKET_READ_SIZE - 1))
    (stepped : callStep past call = some next) :
    Tracked next ∧ next.registry.rings.Unused (PACKET_READ_SIZE - 1) := by
  obtain ⟨tracked, unused⟩ := kept
  refine ⟨call_tracked past next call tracked stepped, ?_⟩
  have after := status_unused past.registry tracked.sound call.id call.m call.outcome unused
  simp only [callStep] at stepped
  split at stepped <;> cases stepped <;> exact after

theorem sound_atomic (registry : Registry) (sound : Sound registry) (call : Call) :
    Atomic registry call := by
  rcases status_cases registry sound call.id call.m call.outcome with
    ⟨_, failure, after, failed, scratch, tidy⟩ | ⟨_, _, _, entered⟩ | ⟨_, _, ready⟩ |
      ⟨_, removed, _, stopped⟩
  · constructor
    · rw [failed]
      exact fun _ _ => ⟨rfl, rfl, scratch_live registry.rings after sound.tidy tidy scratch⟩
    · rw [failed]
      exact fun _ _ => ⟨rfl, rfl⟩
  · constructor
    · rw [entered]
      intro failure refused
      cases refused
    · rw [entered]
      intro other different
      simp [startedRegistry, different]
  · constructor
    · rw [ready]
      intro failure refused
      cases refused
    · rw [ready]
      intro other different
      simp [different]
  · constructor
    · rw [stopped]
      intro failure refused
      cases refused
    · rw [stopped]
      intro other different
      simp [stoppedRegistry, different]

theorem sound_live (registry : Registry) (sound : Sound registry) (name : String) :
    (∃ ring, registry.rings.Live ring ∧ registry.rings.name ring = name) ↔
      ∃ id, id ∈ registry.ring_map ∧ (name = rxName id ∨ name = txName id) := by
  constructor
  · rintro ⟨ring, live, rfl⟩
    obtain ⟨id, mapped, named⟩ := sound.owned _ ring ((sound.tidy.live_iff ring).mp live)
    exact ⟨id, AList.lookup_isSome.mp mapped, named.symm⟩
  · rintro ⟨id, mapped, named⟩
    obtain ⟨channel, found⟩ := Option.isSome_iff_exists.mp (AList.lookup_isSome.mpr mapped)
    obtain ⟨tx, rx⟩ := sound.wrapped id channel found
    rcases named with rfl | rfl
    · exact ⟨_, registered_live _ sound.tidy _ _ rx, sound.tidy.registered _ _ rx⟩
    · exact ⟨_, registered_live _ sound.tidy _ _ tx, sound.tidy.registered _ _ tx⟩

theorem tracked_lawful (past : Past) (tracked : Tracked past) : Lawful past := by
  have tidy := tracked.sound.tidy
  refine { keys := fun id => ?_, live := sound_live past.registry tracked.sound
           one_each := fun ring other here there same => ?_
           ready := fun id => ?_, atomic := sound_atomic past.registry tracked.sound }
  · rw [← AList.lookup_isSome, ← AList.lookup_isSome, tracked.sound.keys id]
  · have first := (tidy.live_iff ring).mp here
    rw [same, (tidy.live_iff other).mp there] at first
    exact (Option.some_inj.mp first).symm
  · rw [tracked.statuses id, statusOf_ready_iff]

theorem new_tracked : Tracked Past.new :=
  { sound := new_sound, statuses := fun id => by simp [Past.new, Registry.new, codesOf, statusOf] }

theorem history_unused (calls : List Call) (past : Past)
    (history : run callStep Past.new calls = some past) :
    Tracked past ∧ past.registry.rings.Unused (PACKET_READ_SIZE - 1) := by
  have unused : Past.new.registry.rings.Unused (PACKET_READ_SIZE - 1) := by
    intro name ring found
    simp [Past.new, Registry.new, Rings.none] at found
  exact run_invariant callStep _ call_unused Past.new past calls ⟨new_tracked, unused⟩ history

/-- Whatever calls a new engine handles and however creations and replies turn
out, maps, live rings and statuses stay together and every call is atomic. -/
theorem registry_lawful_along (calls : List Call) : Always callStep Lawful Past.new calls :=
  always_of_invariant callStep Tracked Lawful
    (fun past call next tracked stepped => call_tracked past next call tracked stepped)
    tracked_lawful Past.new calls new_tracked

end L2Switch.RegistryHistory
