import L2Switch.MessageJournal

/-!
How a run of the registration socket ends. Only a start that succeeds is answered, so
the first request of any other kind is the last one the engine ever takes: the socket
goes on owing its reply and neither call of the engine does anything any more.
-/
namespace L2Switch.LastRequest
open Histories EngineRegistry RegistryHistory EngineMessages RequestReply MessageJournal

variable (from_str : String → Option Json.Value)

/-- The requests are starts of distinct clients, and these are all the clients there are. -/
def StartsOnly (requests : List ByteArray) (statusmap : StatusMap) : Prop :=
  ∃ ids : List UInt16, requests.map (decode from_str) = ids.map (fun id => .ok (id, 0)) ∧
    ids.Nodup ∧ ∀ id, statusmap.lookup id = if id ∈ ids then some .STARTING else none

/-- A reply is owed and no message is left that could be answered. -/
def Deaf (journal : Journal) : Prop :=
  journal.engine.socket.state = .replying ∧ journal.engine.new_msg = none

/-- The requests taken so far, less the one whose reply is owed. -/
def settled (journal : Journal) : List ByteArray :=
  match journal.engine.socket.state with
  | .listening => journal.taken
  | .replying => journal.taken.dropLast

def Registered (journal : Journal) (id : UInt16) : Prop :=
  (journal.engine.registry.statusmap.lookup id).isSome ∨ (id, 2) ∈ journal.handed

/-- Every request but the last one started a client of its own; where a client is ready
or a stop was handled, that was the last one, and from then on nothing ever changes. -/
structure LastDiffers (journal : Journal) : Prop where
  starts : ∃ ids : List UInt16, ids.Nodup ∧
    (settled journal).map (decode from_str) = ids.map (fun id => .ok (id, 0)) ∧
    ∀ id ∈ ids, Registered journal id
  one_ready : ∀ id other, journal.engine.registry.statusmap.lookup id = some .READY →
    journal.engine.registry.statusmap.lookup other = some .READY → id = other
  ready_deaf : ∀ id, journal.engine.registry.statusmap.lookup id = some .READY → Deaf journal
  handed_deaf : ∀ id m, (id, m) ∈ journal.handed → m ≠ 0 → Deaf journal
  final : Deaf journal → ∀ later, run (journalStep from_str) journal later = some journal

inductive Phase (journal : Journal) : Prop where
  | listening (state : journal.engine.socket.state = .listening)
      (empty : journal.engine.new_msg = none)
      (served : StartsOnly from_str journal.taken journal.engine.registry.statusmap)
  | pending (state : journal.engine.socket.state = .replying) (earlier : List ByteArray)
      (last : ByteArray) (taken : journal.taken = earlier ++ [last])
      (served : StartsOnly from_str earlier journal.engine.registry.statusmap)
      (msg : UInt16 × UInt64) (full : journal.engine.new_msg = some msg)
      (understood : decode from_str last = .ok msg)
  | deaf (state : journal.engine.socket.state = .replying)
      (empty : journal.engine.new_msg = none) (earlier : List ByteArray) (last : ByteArray)
      (taken : journal.taken = earlier ++ [last]) (before : StatusMap)
      (served : StartsOnly from_str earlier before) (id : UInt16)
      (others : ∀ other, other ≠ id →
        journal.engine.registry.statusmap.lookup other ≠ some .READY)
      (known : ∀ other, (before.lookup other).isSome → Registered journal other)

structure Reached (journal : Journal) : Prop where
  kept : Kept from_str journal
  sound : Sound journal.engine.registry
  balanced : journal.engine.socket.Balanced
  phase : Phase from_str journal

theorem startsOnly_starting (requests : List ByteArray) (statusmap : StatusMap)
    (served : StartsOnly from_str requests statusmap) (id : UInt16) :
    statusmap.lookup id ≠ some .READY := by
  obtain ⟨ids, _, _, statuses⟩ := served
  rw [statuses]
  split <;> decide

theorem startsOnly_start (requests : List ByteArray) (statusmap : StatusMap)
    (served : StartsOnly from_str requests statusmap) (last : ByteArray) (id : UInt16)
    (understood : decode from_str last = .ok (id, 0)) (unknown : statusmap.lookup id = none) :
    StartsOnly from_str (requests ++ [last]) (statusmap.insert id .STARTING) := by
  obtain ⟨ids, decoded, distinct, statuses⟩ := served
  have fresh : id ∉ ids := by
    intro member
    rw [statuses, if_pos member] at unknown
    cases unknown
  refine ⟨ids ++ [id], by simp [decoded, understood], ?_, fun other => ?_⟩
  · rw [List.nodup_append]
    exact ⟨distinct, List.nodup_singleton id, fun left inside right single same =>
      fresh (by simp_all)⟩
  · by_cases same : other = id
    · subst same
      simp
    · simp [same, statuses]

theorem new_reached : Reached from_str .new :=
  { kept := new_kept from_str, sound := new_sound, balanced := rfl
    phase := .listening rfl rfl
      ⟨[], rfl, List.nodup_nil, fun id => by simp [Journal.new, Engine.new, Registry.new]⟩ }

/-- Nothing is taken off a socket that owes a reply. -/
theorem getMsg_replying (journal : Journal) (polled : Polled)
    (state : journal.engine.socket.state = .replying) :
    journalStep from_str journal (.getMsg polled) = some journal := by
  rcases getMsg_cases from_str journal.engine polled with ⟨same, unready⟩ | ⟨_, _, listening, _⟩
  · simp only [journalStep, Journal.after, same, takes_nothing journal.engine polled unready,
      List.append_nil]
  · rw [state] at listening
    cases listening

theorem checkNSet_empty (journal : Journal) (outcome : Outcome)
    (empty : journal.engine.new_msg = none) :
    journalStep from_str journal (.checkNSet outcome) = some journal := by
  simp [journalStep, Journal.after, checkNSet_idle journal.engine outcome empty]

theorem deaf_stays (journal : Journal) (deaf : Deaf journal) (acts : List EngineAct) :
    run (journalStep from_str) journal acts = some journal := by
  induction acts with
  | nil => rfl
  | cons act rest ih =>
      have stepped : journalStep from_str journal act = some journal := by
        cases act with
        | getMsg polled => exact getMsg_replying from_str journal polled deaf.1
        | checkNSet outcome => exact checkNSet_empty from_str journal outcome deaf.2
      rw [run_cons, stepped]
      exact ih

theorem getMsg_phase (journal next : Journal) (polled : Polled)
    (phase : Phase from_str journal)
    (stepped : journalStep from_str journal (.getMsg polled) = some next) :
    Phase from_str next := by
  cases phase with
  | pending state earlier last taken served msg full understood =>
      rw [getMsg_replying from_str journal polled state] at stepped
      cases stepped
      exact .pending state earlier last taken served msg full understood
  | deaf state empty earlier last taken before served id others known =>
      rw [getMsg_replying from_str journal polled state] at stepped
      cases stepped
      exact .deaf state empty earlier last taken before served id others known
  | listening state empty served =>
      cases stepped
      rcases getMsg_cases from_str journal.engine polled with
        ⟨same, unready⟩ | ⟨request, rfl, listening, result⟩
      · rw [Journal.after, same, takes_nothing journal.engine polled unready, List.append_nil]
        exact .listening state empty served
      rcases result with ⟨msg, understood, result⟩ | ⟨failure, _, result⟩
      · rw [Journal.after, result, takes_listening journal.engine request listening]
        exact .pending (recv_replying journal.engine.socket listening) journal.taken request rfl
          served msg rfl understood
      · rw [Journal.after, result, takes_listening journal.engine request listening]
        exact .deaf (recv_replying journal.engine.socket listening) empty journal.taken request rfl
          _ served 0 (fun other _ => startsOnly_starting from_str _ _ served other)
          (fun other here => Or.inl here)

/-- Whatever becomes of one message, at most its own client is ready afterwards. -/
theorem status_others (registry : Registry) (sound : Sound registry) (id : UInt16) (m : UInt64)
    (outcome : Outcome) (none_ready : ∀ other, registry.statusmap.lookup other ≠ some .READY)
    (other : UInt16) (different : other ≠ id) :
    (setClientStatus registry id m outcome).registry.statusmap.lookup other ≠ some .READY := by
  rcases status_cases registry sound id m outcome with
    ⟨_, failure, after, failed, _⟩ | ⟨_, _, _, entered⟩ | ⟨_, _, ready⟩ | ⟨_, removed, _, stopped⟩
  · simpa [failed] using none_ready other
  · simpa [entered, startedRegistry, different] using none_ready other
  · simpa [ready, different] using none_ready other
  · simpa [stopped, stoppedRegistry, different] using none_ready other

theorem status_known (registry : Registry) (sound : Sound registry) (id : UInt16) (m : UInt64)
    (outcome : Outcome) (other : UInt16) (here : (registry.statusmap.lookup other).isSome) :
    ((setClientStatus registry id m outcome).registry.statusmap.lookup other).isSome ∨
      (other, 2) = (id, m) := by
  by_cases same : other = id
  · subst same
    rcases status_cases registry sound other m outcome with
      ⟨_, failure, after, failed, _⟩ | ⟨_, _, _, entered⟩ | ⟨_, _, ready⟩ | ⟨rfl, _⟩
    · exact Or.inl (by simpa [failed] using here)
    · exact Or.inl (by simp [entered, startedRegistry])
    · exact Or.inl (by simp [ready])
    · exact Or.inr rfl
  · refine Or.inl ?_
    rcases status_cases registry sound id m outcome with
      ⟨_, failure, after, failed, _⟩ | ⟨_, _, _, entered⟩ | ⟨_, _, ready⟩ | ⟨_, removed, _, stopped⟩
    · simpa [failed] using here
    · simpa [entered, startedRegistry, same] using here
    · simpa [ready, same] using here
    · simpa [stopped, stoppedRegistry, same] using here

theorem checkNSet_phase (journal next : Journal) (outcome : Outcome)
    (reached : Reached from_str journal) (stepped : journalStep from_str journal (.checkNSet outcome) = some next) :
    Phase from_str next := by
  cases reached.phase with
  | listening state empty served =>
      rw [checkNSet_empty from_str journal outcome empty] at stepped
      cases stepped
      exact .listening state empty served
  | deaf state empty earlier last taken before served id others known =>
      rw [checkNSet_empty from_str journal outcome empty] at stepped
      cases stepped
      exact .deaf state empty earlier last taken before served id others known
  | pending state earlier last taken served msg full understood =>
      obtain ⟨id, m⟩ := msg
      have inTurn : InTurn journal.engine :=
        { sound := reached.sound, balanced := reached.balanced, pending := by simp [state, full] }
      cases stepped
      -- only a start that is entered and answered gives the turn back
      rcases checkNSet_cases journal.engine outcome inTurn id m full with
        ⟨rfl, able, entered⟩ | ⟨_, socket, emptied⟩
      · have unknown : journal.engine.registry.statusmap.lookup id = none := by
          have unmapped := startable_unknown _ reached.sound id outcome able
          have together := reached.sound.keys id
          simpa [unmapped] using together
        simp only [Journal.after, entered]
        refine .listening ?_ rfl ?_
        · simp [RepSocket.send, state, able.2.2.2.2]
        · simp only [startedRegistry, taken]
          exact startsOnly_start from_str earlier _ served last id understood unknown
      · refine .deaf (by simp only [Journal.after, socket, state]) emptied earlier last taken _ served id ?_ ?_
        · intro other different
          simp only [Journal.after, checkNSet_handles journal.engine outcome id m full]
          exact status_others journal.engine.registry reached.sound id m _
            (startsOnly_starting from_str earlier _ served) other different
        · intro other here
          simp only [Registered, Journal.after, checkNSet_handles journal.engine outcome id m full]
          rcases status_known journal.engine.registry reached.sound id m _ other here with still | stop
          · exact Or.inl still
          · exact Or.inr (by simp [stop])

theorem step_sound (engine : Engine) (act : EngineAct) (next : Engine) (sound : Sound engine.registry)
    (balanced : engine.socket.Balanced) (stepped : engineStep from_str engine act = some next) :
    Sound next.registry ∧ next.socket.Balanced := by
  cases act with
  | getMsg polled =>
      cases stepped
      rcases getMsg_cases from_str engine polled with
        ⟨same, _⟩ | ⟨request, rfl, _, ⟨msg, _, taken⟩ | ⟨failure, _, taken⟩⟩
      · rw [same]
        exact ⟨sound, balanced⟩
      · rw [taken]
        exact ⟨sound, recv_balanced engine.socket balanced true⟩
      · rw [taken]
        exact ⟨sound, recv_balanced engine.socket balanced true⟩
  | checkNSet outcome =>
      cases stepped
      cases pending : engine.new_msg with
      | none => simpa [checkNSet_idle engine outcome pending] using ⟨sound, balanced⟩
      | some msg =>
          simp only [checkNSet_handles engine outcome msg.1 msg.2 pending, Engine.setClientStatus]
          refine ⟨status_sound engine.registry sound msg.1 msg.2 _, ?_⟩
          split
          · exact send_balanced engine.socket balanced outcome.replied
          · exact balanced

theorem step_reached (journal : Journal) (act : EngineAct) (next : Journal)
    (reached : Reached from_str journal)
    (stepped : journalStep from_str journal act = some next) : Reached from_str next := by
  have engine : engineStep from_str journal.engine act = some next.engine := by
    cases act <;> cases stepped <;> rfl
  obtain ⟨sound, balanced⟩ :=
    step_sound from_str journal.engine act next.engine reached.sound reached.balanced engine
  cases act with
  | getMsg polled =>
      exact { kept := getMsg_kept from_str journal polled reached.kept next stepped, sound, balanced
              phase := getMsg_phase from_str journal next polled reached.phase stepped }
  | checkNSet outcome =>
      exact { kept := checkNSet_kept from_str journal outcome reached.kept next stepped, sound
              balanced, phase := checkNSet_phase from_str journal next outcome reached stepped }

/-- What was handed on comes from the requests that were taken. -/
theorem handed_code (journal : Journal) (requests : List ByteArray) (statusmap : StatusMap)
    (served : StartsOnly from_str requests statusmap)
    (passed : ∀ msg ∈ journal.handed, msg ∈ decoded from_str requests)
    (id : UInt16) (m : UInt64) (handed : (id, m) ∈ journal.handed) : m = 0 := by
  obtain ⟨request, member, understood⟩ := List.mem_filterMap.mp (passed _ handed)
  obtain ⟨ids, alike, _⟩ := served
  have entry : decode from_str request ∈ ids.map fun id => (.ok (id, 0) : RingChannel.Fallible _) :=
    alike ▸ List.mem_map_of_mem member
  obtain ⟨owner, _, same⟩ := List.mem_map.mp entry
  rw [← same] at understood
  simp only [Except.toOption, Option.some.injEq, Prod.mk.injEq] at understood
  exact understood.2.symm

theorem startsOnly_known (requests : List ByteArray) (statusmap : StatusMap)
    (served : StartsOnly from_str requests statusmap) :
    ∃ ids : List UInt16, ids.Nodup ∧ requests.map (decode from_str) = ids.map (fun id => .ok (id, 0)) ∧
      ∀ id ∈ ids, (statusmap.lookup id).isSome := by
  obtain ⟨ids, alike, distinct, statuses⟩ := served
  exact ⟨ids, distinct, alike, fun id member => by simp [statuses, member]⟩

theorem reached_lastDiffers (journal : Journal) (reached : Reached from_str journal) :
    LastDiffers from_str journal := by
  have passed := reached.kept.whole.passed
  cases reached.phase with
  | listening state empty served =>
      rw [empty, Option.toList_none, List.append_nil] at passed
      have starting := startsOnly_starting from_str _ _ served
      refine { starts := ?_, one_ready := fun id _ ready => absurd ready (starting id)
               ready_deaf := fun id ready => absurd ready (starting id)
               handed_deaf := fun id m handed other => ?_
               final := fun deaf => deaf_stays from_str journal deaf }
      · obtain ⟨ids, distinct, alike, here⟩ := startsOnly_known from_str _ _ served
        exact ⟨ids, distinct, by simpa only [settled, state] using alike,
          fun id member => Or.inl (here id member)⟩
      · exact absurd (handed_code from_str journal _ _ served (fun msg member => passed ▸ member) id m
          handed) other
  | pending state earlier last taken served msg full understood =>
      have starting := startsOnly_starting from_str _ _ served
      refine { starts := ?_, one_ready := fun id _ ready => absurd ready (starting id)
               ready_deaf := fun id ready => absurd ready (starting id)
               handed_deaf := fun id m handed other => ?_
               final := fun deaf => deaf_stays from_str journal deaf }
      · obtain ⟨ids, distinct, alike, here⟩ := startsOnly_known from_str _ _ served
        exact ⟨ids, distinct, by simpa only [settled, state, taken, List.dropLast_concat] using alike,
          fun id member => Or.inl (here id member)⟩
      · -- the pending message is the one the last request decodes to
        have earlierOnly : journal.handed = decoded from_str earlier := by
          simpa [full, taken, decoded, understood, Except.toOption] using passed
        exact absurd (handed_code from_str journal _ _ served
          (fun msg member => earlierOnly ▸ member) id m handed) other
  | deaf state empty earlier last taken before served id others known =>
      refine { starts := ?_, one_ready := fun one another ready also => ?_
               ready_deaf := fun _ _ => ⟨state, empty⟩, handed_deaf := fun _ _ _ _ => ⟨state, empty⟩
               final := fun deaf => deaf_stays from_str journal deaf }
      · obtain ⟨ids, distinct, alike, here⟩ := startsOnly_known from_str _ _ served
        exact ⟨ids, distinct, by simpa only [settled, state, taken, List.dropLast_concat] using alike,
          fun id member => known id (here id member)⟩
      · have first : one = id := by_contra fun different => others one different ready
        have second : another = id := by_contra fun different => others another different also
        rw [first, second]

/-- Whatever arrives and however the two calls take turns. -/
theorem last_differs_along (acts : List EngineAct) :
    Always (journalStep from_str) (LastDiffers from_str) .new acts :=
  always_of_invariant (journalStep from_str) (Reached from_str) (LastDiffers from_str)
    (step_reached from_str) (reached_lastDiffers from_str) .new acts (new_reached from_str)

end L2Switch.LastRequest
