import L2Switch.Json
import L2Switch.RegistryHistory
import L2Switch.RequestReply

/-!
`get_msg` and `check_n_set_client_status` of runtime/engine.rs over the engine's
reply socket. `from_str` stands for serde_json's; a `Polled` holds what arrives
during one call and an `Outcome` what happens while a message is handled, each
handled message being one step.
-/
namespace L2Switch.EngineMessages
open Histories RingChannel EngineRegistry RegistryHistory RequestReply

structure Engine where
  registry : Registry
  socket : RepSocket
  new_msg : Option (UInt16 × UInt64)

def Engine.new : Engine := { registry := .new, socket := .new, new_msg := none }

/-- What poll finds: an error, nothing, or a request that the non-blocking recv
then gets hold of or not. -/
inductive Polled where
  | failed
  | quiet
  | readable (received : Bool) (request : ByteArray)

variable (from_str : String → Option Json.Value)

/-- The id is cut to 16 bits. -/
def decode (request : ByteArray) : Fallible (UInt16 × UInt64) :=
  match String.fromUTF8? request with
  | none => .error (.message "Unknown Message Format")
  | some smsg =>
      match from_str smsg with
      | none => .error .json_error
      | some data =>
          match (data.index "id").asU64 with
          | none => .error (.message "Unknown ID Format")
          | some id =>
              match (data.index "msg").asU64 with
              | none => .error (.message "Unknown Container Message")
              | some m => .ok (id.toUInt16, m)

/-- A socket that owes a reply does not poll readable. -/
def getMsg (engine : Engine) (polled : Polled) : Fallible Unit × Engine :=
  match polled, engine.socket.state with
  | .failed, _ => (.error .zmq_error, engine)
  | .quiet, _ => (.ok (), engine)
  | .readable _ _, .replying => (.ok (), engine)
  | .readable received request, .listening =>
      match engine.socket.recv received with
      | (false, socket) => (.error .zmq_error, { engine with socket })
      | (true, socket) =>
          match decode from_str request with
          -- every early return of the source comes after the recv
          | .error failure => (.error failure, { engine with socket })
          | .ok msg => (.ok (), { engine with socket, new_msg := some msg })

/-- What a call has left of the engine, the pairs that `set_client_status` was called with on
the way and whether a reply went out. -/
structure Called where
  engine : Engine
  handed : List (UInt16 × UInt64)
  replied : Bool

/-- The engine's own `set_client_status`; the reply goes out in the middle of a start, if it
gets that far. -/
def Engine.setClientStatus (engine : Engine) (id : UInt16) (m : UInt64) (outcome : Outcome) :
    Called :=
  let (replied, socket) := engine.socket.send outcome.replied
  let result := EngineRegistry.setClientStatus engine.registry id m { outcome with replied }
  { engine := { engine with
      registry := result.registry
      socket := if result.reply_sent then socket else engine.socket }
    handed := [(id, m)], replied := result.reply_sent }

def checkNSetClientStatus (engine : Engine) (outcome : Outcome) : Called :=
  match engine.new_msg with
  | none => { engine, handed := [], replied := false }
  | some (id, m) =>
      let called := engine.setClientStatus id m outcome
      { called with engine := { called.engine with new_msg := none } }

inductive EngineAct where
  | getMsg (polled : Polled)
  | checkNSet (outcome : Outcome)

def engineStep (engine : Engine) : EngineAct → Option Engine
  | .getMsg polled => some (getMsg from_str engine polled).2
  | .checkNSet outcome => some (checkNSetClientStatus engine outcome).engine

/-- With no accepted message pending the socket is ready for the next request, and
every request it took has been answered once. -/
def Attentive (engine : Engine) : Prop :=
  engine.new_msg = none →
    engine.socket.state = .listening ∧ engine.socket.answered = engine.socket.taken

/-- A request that is taken decodes, and a message that is handled is a start that
succeeds. -/
def Answers (engine : Engine) : EngineAct → Prop
  | .getMsg (.readable true request) =>
      engine.socket.state = .listening → ∃ msg, decode from_str request = .ok msg
  | .getMsg _ => True
  | .checkNSet outcome => ∀ id m, engine.new_msg = some (id, m) →
      m = 0 ∧ Startable engine.registry id outcome

/-- The socket owes a reply exactly while a message is pending. -/
structure InTurn (engine : Engine) : Prop where
  sound : Sound engine.registry
  balanced : engine.socket.Balanced
  pending : engine.socket.state = .replying ↔ engine.new_msg ≠ none

theorem new_inTurn : InTurn Engine.new :=
  { sound := new_sound, balanced := rfl, pending := by simp [Engine.new, RepSocket.new] }

theorem inTurn_attentive (engine : Engine) (inTurn : InTurn engine) : Attentive engine := by
  intro settled
  have listening : engine.socket.state = .listening := by
    cases state : engine.socket.state with
    | listening => rfl
    | replying => exact absurd settled (inTurn.pending.mp state)
  have balanced := inTurn.balanced
  simp only [RepSocket.Balanced, listening, reduceCtorEq, ↓reduceIte, Nat.add_zero] at balanced
  exact ⟨listening, balanced.symm⟩

/-- All one `get_msg` can do: nothing, or take a request and then either keep what
it decodes to or forget it. -/
theorem getMsg_cases (engine : Engine) (polled : Polled) :
    ((getMsg from_str engine polled).2 = engine ∧
        ∀ request, polled = .readable true request → engine.socket.state = .replying) ∨
      ∃ request, polled = .readable true request ∧ engine.socket.state = .listening ∧
        ((∃ msg, decode from_str request = .ok msg ∧
            (getMsg from_str engine polled) = (.ok (),
              { engine with socket := (engine.socket.recv true).2, new_msg := some msg })) ∨
          (∃ failure, decode from_str request = .error failure ∧
            (getMsg from_str engine polled) =
              (.error failure, { engine with socket := (engine.socket.recv true).2 }))) := by
  cases polled with
  | failed => exact Or.inl ⟨rfl, nofun⟩
  | quiet => exact Or.inl ⟨rfl, nofun⟩
  | readable received request =>
      cases state : engine.socket.state with
      | replying => exact Or.inl ⟨by simp [getMsg, state], fun _ _ => rfl⟩
      | listening =>
          cases received with
          | false => exact Or.inl ⟨by simp [getMsg, state, RepSocket.recv], nofun⟩
          | true =>
              refine Or.inr ⟨request, rfl, rfl, ?_⟩
              cases decoded : decode from_str request with
              | ok msg =>
                  exact Or.inl ⟨msg, rfl, by simp [getMsg, state, RepSocket.recv, decoded]⟩
              | error failure =>
                  exact Or.inr ⟨failure, rfl, by simp [getMsg, state, RepSocket.recv, decoded]⟩

/-- What a listening engine does with a request it gets hold of. -/
theorem getMsg_received (engine : Engine) (request : ByteArray)
    (listening : engine.socket.state = .listening) :
    (∃ msg, decode from_str request = .ok msg ∧
        getMsg from_str engine (.readable true request) = (.ok (),
          { engine with socket := (engine.socket.recv true).2, new_msg := some msg })) ∨
      ∃ failure, decode from_str request = .error failure ∧
        getMsg from_str engine (.readable true request) =
          (.error failure, { engine with socket := (engine.socket.recv true).2 }) := by
  rcases getMsg_cases from_str engine (.readable true request) with
    ⟨_, busy⟩ | ⟨_, same, _, result⟩
  · rw [busy request rfl] at listening
    cases listening
  · cases same
    exact result

theorem recv_replying (socket : RepSocket) (listening : socket.state = .listening) :
    (socket.recv true).2.state = .replying := by
  simp [RepSocket.recv, listening]

theorem send_replying (socket : RepSocket) (replying : socket.state = .replying)
    (delivered : Bool) : (socket.send delivered).1 = delivered := by
  cases delivered <;> simp [RepSocket.send, replying]

theorem getMsg_inTurn (engine : Engine) (polled : Polled) (inTurn : InTurn engine)
    (answers : Answers from_str engine (.getMsg polled)) :
    InTurn (getMsg from_str engine polled).2 := by
  rcases getMsg_cases from_str engine polled with
    ⟨same, _⟩ | ⟨request, rfl, listening, ⟨msg, decoded, taken⟩ | ⟨failure, decoded, taken⟩⟩
  · rw [same]
    exact inTurn
  · rw [taken]
    exact { sound := inTurn.sound
            balanced := recv_balanced engine.socket inTurn.balanced true
            pending := by simp [recv_replying engine.socket listening] }
  · obtain ⟨msg, understood⟩ := answers listening
    exact nomatch decoded.symm.trans understood

/-- A taken request that does not decode leaves the socket owing a reply for good. -/
theorem getMsg_spoils (engine : Engine) (polled : Polled) (inTurn : InTurn engine)
    (unanswered : ¬ Answers from_str engine (.getMsg polled)) :
    ¬ Attentive (getMsg from_str engine polled).2 := by
  cases polled with
  | failed => exact absurd trivial unanswered
  | quiet => exact absurd trivial unanswered
  | readable received request =>
      cases received with
      | false => exact absurd trivial unanswered
      | true =>
          simp only [Answers, Classical.not_imp, not_exists] at unanswered
          obtain ⟨listening, unreadable⟩ := unanswered
          have settled : engine.new_msg = none := by
            by_contra waiting
            rw [inTurn.pending.mpr waiting] at listening
            cases listening
          rcases getMsg_received from_str engine request listening with
            ⟨msg, decoded, _⟩ | ⟨failure, _, after⟩
          · exact absurd decoded (unreadable msg)
          · rw [after]
            intro attentive
            have state := (attentive settled).1
            rw [recv_replying engine.socket listening] at state
            cases state

theorem pending_replying (engine : Engine) (inTurn : InTurn engine) (msg : UInt16 × UInt64)
    (pending : engine.new_msg = some msg) : engine.socket.state = .replying :=
  inTurn.pending.mpr (by simp [pending])

theorem checkNSet_idle (engine : Engine) (outcome : Outcome) (empty : engine.new_msg = none) :
    checkNSetClientStatus engine outcome = { engine, handed := [], replied := false } := by
  simp only [checkNSetClientStatus, empty]

theorem checkNSet_handles (engine : Engine) (outcome : Outcome) (id : UInt16) (m : UInt64)
    (pending : engine.new_msg = some (id, m)) :
    checkNSetClientStatus engine outcome =
      { engine := { (engine.setClientStatus id m outcome).engine with new_msg := none }
        handed := [(id, m)], replied := (engine.setClientStatus id m outcome).replied } := by
  simp only [checkNSetClientStatus, pending, Engine.setClientStatus]

/-- What handling a pending message comes to: the reply sent and the client entered,
or no reply at all. -/
theorem checkNSet_cases (engine : Engine) (outcome : Outcome) (inTurn : InTurn engine)
    (id : UInt16) (m : UInt64) (pending : engine.new_msg = some (id, m)) :
    (m = 0 ∧ Startable engine.registry id outcome ∧
        (checkNSetClientStatus engine outcome).engine =
          { registry := startedRegistry engine.registry id
            socket := (engine.socket.send outcome.replied).2, new_msg := none }) ∨
      (¬ (m = 0 ∧ Startable engine.registry id outcome) ∧
        (checkNSetClientStatus engine outcome).engine.socket = engine.socket ∧
        (checkNSetClientStatus engine outcome).engine.new_msg = none) := by
  have replying := pending_replying engine inTurn _ pending
  have sent := send_replying engine.socket replying outcome.replied
  rcases status_cases engine.registry inTurn.sound id m outcome with
    ⟨unable, failure, after, failed, _⟩ | ⟨start, able, _, entered⟩ | ⟨code, _, ready⟩ |
      ⟨code, removed, _, stopped⟩
  · exact Or.inr ⟨unable, by simp [checkNSet_handles engine outcome id m pending, Engine.setClientStatus, sent, failed]⟩
  · exact Or.inl ⟨start, able, by simp [checkNSet_handles engine outcome id m pending, Engine.setClientStatus, sent, entered]⟩
  · refine Or.inr ⟨fun both => ?_, by simp [checkNSet_handles engine outcome id m pending, Engine.setClientStatus, sent, ready]⟩
    exact absurd (code.symm.trans both.1) (by decide)
  · refine Or.inr ⟨fun both => ?_, by simp [checkNSet_handles engine outcome id m pending, Engine.setClientStatus, sent, stopped]⟩
    exact absurd (code.symm.trans both.1) (by decide)

theorem checkNSet_inTurn (engine : Engine) (outcome : Outcome) (inTurn : InTurn engine)
    (answers : Answers from_str engine (.checkNSet outcome)) :
    InTurn (checkNSetClientStatus engine outcome).engine := by
  cases pending : engine.new_msg with
  | none => simpa [checkNSet_idle engine outcome pending] using inTurn
  | some msg =>
      obtain ⟨id, m⟩ := msg
      have able := answers id m pending
      rcases checkNSet_cases engine outcome inTurn id m pending with
        ⟨_, _, entered⟩ | ⟨unable, _⟩
      · have replying := pending_replying engine inTurn _ pending
        rw [entered]
        exact { sound := started_sound engine.registry inTurn.sound id outcome able.2
                balanced := send_balanced engine.socket inTurn.balanced outcome.replied
                pending := by simp [RepSocket.send, replying, able.2.2.2.2.2] }
      · exact absurd able unable

/-- A message that is handled without a reply leaves the socket owing it for good. -/
theorem checkNSet_spoils (engine : Engine) (outcome : Outcome) (inTurn : InTurn engine)
    (unanswered : ¬ Answers from_str engine (.checkNSet outcome)) :
    ¬ Attentive (checkNSetClientStatus engine outcome).engine := by
  simp only [Answers, not_forall] at unanswered
  obtain ⟨id, m, pending, unable⟩ := unanswered
  have replying := pending_replying engine inTurn _ pending
  rcases checkNSet_cases engine outcome inTurn id m pending with ⟨start, able, _⟩ | ⟨_, kept, done⟩
  · exact absurd ⟨start, able⟩ unable
  · intro attentive
    have state := (attentive done).1
    rw [kept, replying] at state
    cases state

/-- The engine is ready for the next request whenever nothing is pending exactly
along the runs in which every request decodes and asks for a start that succeeds. -/
theorem attentive_iff (acts : List EngineAct) :
    Always (engineStep from_str) Attentive Engine.new acts ↔
      Admits (engineStep from_str) (Answers from_str) Engine.new acts := by
  have total : ∀ engine act, (engineStep from_str engine act).isSome := by
    intro engine act
    cases act <;> rfl
  refine always_iff_admits (engineStep from_str) InTurn Attentive (Answers from_str) ?_
    inTurn_attentive ?_ Engine.new acts new_inTurn (run_isSome_of_total _ total Engine.new acts)
  · intro engine act next inTurn answers stepped
    cases act with
    | getMsg polled =>
        cases stepped
        exact getMsg_inTurn from_str engine polled inTurn answers
    | checkNSet outcome =>
        cases stepped
        exact checkNSet_inTurn from_str engine outcome inTurn answers
  · intro engine act next inTurn unanswered stepped
    cases act with
    | getMsg polled =>
        cases stepped
        exact getMsg_spoils from_str engine polled inTurn unanswered
    | checkNSet outcome =>
        cases stepped
        exact checkNSet_spoils from_str engine outcome inTurn unanswered

end L2Switch.EngineMessages
