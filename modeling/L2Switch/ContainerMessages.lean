import L2Switch.EngineMessages

/-!
The control-plane half of dockerlib/client_comm.rs: the message texts, and the
client's request socket with the calls made on it. `Attempts` says how the network
would take up to three connects and three sends of one message; a send out of turn
fails whatever the network does.
-/
namespace L2Switch.ContainerMessages
open Histories RingChannel EngineMessages RequestReply

inductive ContMsgType where
  | PodStarting
  | PodReady
  | PodStopping
  deriving DecidableEq

/-- `Display for ContMsgType`. -/
def ContMsgType.text : ContMsgType → String
  | .PodStarting => "0"
  | .PodReady => "1"
  | .PodStopping => "2"

/-- The code under which `set_client_status` handles the kind. -/
def ContMsgType.code : ContMsgType → UInt64
  | .PodStarting => 0
  | .PodReady => 1
  | .PodStopping => 2

structure ContainerMsg where
  id : UInt16
  msg : ContMsgType

def ContainerMsg.registration (id : UInt16) : ContainerMsg := { id, msg := .PodStarting }

def ContainerMsg.ready (id : UInt16) : ContainerMsg := { id, msg := .PodReady }

def ContainerMsg.terminating (id : UInt16) : ContainerMsg := { id, msg := .PodStopping }

def ContainerMsg.toJson (self : ContainerMsg) : String :=
  "\n        \x7b\n            'id': " ++ toString self.id.toNat ++
    ",\n            'msg': " ++ self.msg.text ++ ",\n        \x7d"

structure Attempts where
  connects : Fin 3 → Bool
  sends : Fin 3 → Bool

/-- The first try and the retries behind it. -/
def firstAndRetries (answers : Fin 3 → Bool) : Bool × List Bool :=
  (answers 0, [answers 1, answers 2])

inductive SocketCall where
  | connect (ok : Bool)
  | send (turn : Req) (text : String) (ok : Bool)
  | recv (ok : Bool)

/-- A request socket and the calls made on it, newest first. -/
structure ReqSocket where
  turn : Req
  calls : List SocketCall

def ReqSocket.new : ReqSocket := { turn := .idle, calls := [] }

def ReqSocket.connect (socket : ReqSocket) (ok : Bool) : Bool × ReqSocket :=
  (ok, { socket with calls := .connect ok :: socket.calls })

def ReqSocket.send (socket : ReqSocket) (text : String) (accepted : Bool) : Bool × ReqSocket :=
  let (ok, turn) := socket.turn.send accepted
  (ok, { turn, calls := .send socket.turn text ok :: socket.calls })

def ReqSocket.recv (socket : ReqSocket) (arrived : Bool) : Bool × ReqSocket :=
  let (ok, turn) := socket.turn.recv arrived
  (ok, { turn, calls := .recv ok :: socket.calls })

/-- `for _ in 0..2` with its break: one try after the other until one succeeds. -/
def retry (try_once : ReqSocket → Bool → Bool × ReqSocket) (socket : ReqSocket) :
    List Bool → Bool × ReqSocket
  | [] => (false, socket)
  | answer :: later =>
      match try_once socket answer with
      | (true, socket) => (true, socket)
      | (false, socket) => retry try_once socket later

def ContMsgType.about (msg : ContMsgType) (id : UInt16) : ContainerMsg :=
  match msg with
  | .PodStarting => .registration id
  | .PodReady => .ready id
  | .PodStopping => .terminating id

/-- A connection that took a retry is not used: nothing is sent on it. -/
def send (socket : ReqSocket) (id : UInt16) (msg : ContMsgType) (attempts : Attempts) :
    Fallible Unit × ReqSocket :=
  let cmsg := (msg.about id).toJson
  match socket.connect (attempts.connects 0) with
  | (false, socket) =>
      match retry ReqSocket.connect socket [attempts.connects 1, attempts.connects 2] with
      -- connected at last, and `Ok` without a send
      | (true, socket) => (.ok (), socket)
      | (false, socket) => (.error .zmq_error, socket)
  | (true, socket) =>
      match socket.send cmsg (attempts.sends 0) with
      | (true, socket) => (.ok (), socket)
      | (false, socket) =>
          match retry (·.send cmsg) socket [attempts.sends 1, attempts.sends 2] with
          | (true, socket) => (.ok (), socket)
          | (false, socket) => (.error .zmq_error, socket)

def register (socket : ReqSocket) (id : UInt16) (attempts : Attempts) (arrived : Bool) :
    Fallible Unit × ReqSocket :=
  match send socket id .PodStarting attempts with
  | (.error failure, socket) => (.error failure, socket)
  | (.ok _, socket) =>
      match socket.recv arrived with
      | (true, socket) => (.ok (), socket)
      | (false, socket) => (.error .zmq_error, socket)

def notify (socket : ReqSocket) (id : UInt16) (attempts : Attempts) : Fallible Unit × ReqSocket :=
  send socket id .PodReady attempts

def terminate (socket : ReqSocket) (id : UInt16) (attempts : Attempts) :
    Fallible Unit × ReqSocket :=
  send socket id .PodStopping attempts

/-- No send was called while the socket was waiting for a reply. -/
def Patient (socket : ReqSocket) : Prop :=
  ∀ call ∈ socket.calls, ∀ text ok, call ≠ .send .waiting text ok

/-- The first connect succeeds, which is when `send` is called on the socket. -/
def Attempts.Reaches (attempts : Attempts) : Prop := attempts.connects 0 = true

/-- The socket is reached and would take one of the three sends. -/
def Attempts.Transmits (attempts : Attempts) : Prop :=
  attempts.Reaches ∧ true ∈ [attempts.sends 0, attempts.sends 1, attempts.sends 2]

theorem patient_cons (turn : Req) (call : SocketCall) (calls : List SocketCall) :
    Patient { turn, calls := call :: calls } ↔
      (∀ text ok, call ≠ .send .waiting text ok) ∧ Patient { turn, calls } := by
  simp only [Patient, List.forall_mem_cons]

theorem retry_connect (socket : ReqSocket) (answers : List Bool) :
    (retry ReqSocket.connect socket answers).2.turn = socket.turn ∧
      (Patient (retry ReqSocket.connect socket answers).2 ↔ Patient socket) := by
  induction answers generalizing socket with
  | nil => exact ⟨rfl, Iff.rfl⟩
  | cons answer later ih =>
      have noted : Patient { socket with calls := .connect answer :: socket.calls } ↔
          Patient socket := by
        simp [patient_cons]
      cases answer with
      | true => exact ⟨rfl, noted⟩
      | false =>
          obtain ⟨turn, patient⟩ := ih { socket with calls := .connect false :: socket.calls }
          exact ⟨turn, patient.trans noted⟩

/-- However often it is tried, a send goes out only in turn, and is out of turn when
the socket waits. -/
theorem retry_send (socket : ReqSocket) (text : String) (answers : List Bool) :
    ((retry (·.send text) socket answers).1 = true ↔ socket.turn = .idle ∧ true ∈ answers) ∧
      ((retry (·.send text) socket answers).2.turn = .waiting ↔
        socket.turn = .waiting ∨ true ∈ answers) ∧
      (Patient (retry (·.send text) socket answers).2 ↔
        Patient socket ∧ (answers = [] ∨ socket.turn = .idle)) := by
  induction answers generalizing socket with
  | nil => simp [retry]
  | cons answer later ih =>
      obtain ⟨turn, calls⟩ := socket
      cases turn with
      | waiting =>
          -- out of turn, every try is refused and noted
          obtain ⟨result, still, patient⟩ :=
            ih { turn := .waiting, calls := .send .waiting text false :: calls }
          refine ⟨by simpa [retry, ReqSocket.send, Req.send] using result,
            by simpa [retry, ReqSocket.send, Req.send] using still, ?_⟩
          simp only [retry, ReqSocket.send, Req.send, patient, patient_cons]
          simp
      | idle =>
          cases answer with
          | true => simp [retry, ReqSocket.send, Req.send, Patient]
          | false =>
              obtain ⟨result, after, patient⟩ :=
                ih { turn := .idle, calls := .send .idle text false :: calls }
              refine ⟨by simpa [retry, ReqSocket.send, Req.send] using result,
                by simpa [retry, ReqSocket.send, Req.send] using after, ?_⟩
              simp only [retry, ReqSocket.send, Req.send, Bool.false_eq_true, ↓reduceIte, patient,
                patient_cons]
              simp

def resultOf (tried : Bool × ReqSocket) : Fallible Unit × ReqSocket :=
  (if tried.1 then .ok () else .error .zmq_error, tried.2)

/-- The first try and the loop behind it are three tries. -/
theorem send_reached (socket : ReqSocket) (id : UInt16) (msg : ContMsgType) (attempts : Attempts)
    (reaches : attempts.Reaches) :
    send socket id msg attempts =
      resultOf (retry (·.send (msg.about id).toJson) (socket.connect true).2
        [attempts.sends 0, attempts.sends 1, attempts.sends 2]) := by
  have connected : attempts.connects 0 = true := reaches
  simp only [send, connected, ReqSocket.connect]
  rw [retry.eq_def _ _ [attempts.sends 0, attempts.sends 1, attempts.sends 2]]
  dsimp only
  split
  · next after sent => simp [sent, resultOf]
  · next after refused =>
      simp only [refused]
      split <;> simp [*, resultOf]

theorem send_unreached (socket : ReqSocket) (id : UInt16) (msg : ContMsgType)
    (attempts : Attempts) (unreached : ¬ attempts.Reaches) :
    send socket id msg attempts =
      resultOf (retry ReqSocket.connect (socket.connect false).2
        [attempts.connects 1, attempts.connects 2]) := by
  have refused : attempts.connects 0 = false := by simpa [Attempts.Reaches] using unreached
  simp only [send, refused, ReqSocket.connect]
  split <;> simp [*, resultOf]

theorem send_effect (socket : ReqSocket) (id : UInt16) (msg : ContMsgType) (attempts : Attempts) :
    ((send socket id msg attempts).2.turn = .waiting ↔
        socket.turn = .waiting ∨ attempts.Transmits) ∧
      (Patient (send socket id msg attempts).2 ↔
        Patient socket ∧ ¬ (socket.turn = .waiting ∧ attempts.Reaches)) := by
  have noted : ∀ ok, Patient (socket.connect ok).2 ↔ Patient socket := by
    simp [ReqSocket.connect, patient_cons]
  by_cases reaches : attempts.Reaches
  · obtain ⟨_, turn, patient⟩ := retry_send (socket.connect true).2 (msg.about id).toJson
      [attempts.sends 0, attempts.sends 1, attempts.sends 2]
    simp only [send_reached socket id msg attempts reaches, resultOf, turn, patient, noted]
    cases its : socket.turn <;> simp [ReqSocket.connect, Attempts.Transmits, reaches, its]
  · obtain ⟨turn, patient⟩ := retry_connect (socket.connect false).2
      [attempts.connects 1, attempts.connects 2]
    simp only [send_unreached socket id msg attempts reaches, resultOf, turn, patient, noted]
    simp [ReqSocket.connect, Attempts.Transmits, reaches]

/-- A send that returns an error has not changed whose turn it is. -/
theorem send_error (socket after : ReqSocket) (id : UInt16) (msg : ContMsgType)
    (attempts : Attempts) (failure : Failure)
    (refused : send socket id msg attempts = (.error failure, after)) (idle : socket.turn = .idle) :
    ¬ attempts.Transmits := by
  rintro ⟨reaches, accepted⟩
  obtain ⟨result, _, _⟩ := retry_send (socket.connect true).2 (msg.about id).toJson
    [attempts.sends 0, attempts.sends 1, attempts.sends 2]
  have succeeded := result.mpr ⟨idle, accepted⟩
  rw [send_reached socket id msg attempts reaches] at refused
  have first := congrArg Prod.fst refused
  simp only [succeeded, resultOf, ↓reduceIte] at first
  cases first

/-- A client's three calls, made one after the other whatever they return. -/
structure Life where
  starting : Attempts
  registered : Bool
  ready : Attempts
  stopping : Attempts

def Life.socket (life : Life) (id : UInt16) : ReqSocket :=
  let socket := (register .new id life.starting life.registered).2
  let socket := (notify socket id life.ready).2
  (terminate socket id life.stopping).2

/-- The start went out and `register` got no reply to it. -/
def Life.Unanswered (life : Life) : Prop := life.starting.Transmits ∧ life.registered = false

/-- After a message whose reply was not received the socket is not reached again. -/
def Life.Timely (life : Life) : Prop :=
  (life.Unanswered → ¬ life.ready.Reaches) ∧
    (life.Unanswered ∨ life.ready.Transmits → ¬ life.stopping.Reaches)

theorem register_effect (id : UInt16) (attempts : Attempts) (arrived : Bool) :
    ((register .new id attempts arrived).2.turn = .waiting ↔
        attempts.Transmits ∧ arrived = false) ∧
      Patient (register .new id attempts arrived).2 := by
  obtain ⟨turn, patient⟩ := send_effect .new id .PodStarting attempts
  have idle : ReqSocket.new.turn = .idle := rfl
  have fresh : Patient ReqSocket.new := by simp [Patient, ReqSocket.new]
  simp only [idle, reduceCtorEq, false_or, false_and, not_false_eq_true, and_true] at turn patient
  unfold register
  split
  · next failure after refused =>
      have untransmitted := send_error .new after id .PodStarting attempts failure refused rfl
      rw [refused] at turn patient
      exact ⟨by simpa [untransmitted] using turn, patient.mpr fresh⟩
  · next result after sent =>
      rw [sent] at turn patient
      have before := patient.mpr fresh
      obtain ⟨state, calls⟩ := after
      cases state <;> cases arrived <;>
        simp_all [ReqSocket.recv, Req.recv, Patient]

/-- `notify` and `terminate` never read a reply, so they are in turn only when the
one before them has not got through. -/
theorem patient_iff_timely (id : UInt16) (life : Life) : Patient (life.socket id) ↔ life.Timely := by
  obtain ⟨afterStart, startPatient⟩ := register_effect id life.starting life.registered
  obtain ⟨afterReady, readyPatient⟩ :=
    send_effect (register .new id life.starting life.registered).2 id .PodReady life.ready
  have stopPatient := (send_effect
    (send (register .new id life.starting life.registered).2 id .PodReady life.ready).2 id
    .PodStopping life.stopping).2
  rw [readyPatient, afterReady, afterStart] at stopPatient
  refine stopPatient.trans ?_
  constructor
  · rintro ⟨⟨_, notReady⟩, notStopping⟩
    exact ⟨fun unanswered reached => notReady ⟨unanswered, reached⟩,
      fun waiting reached => notStopping ⟨waiting, reached⟩⟩
  · rintro ⟨notReady, notStopping⟩
    exact ⟨⟨startPatient, fun both => notReady both.1 both.2⟩,
      fun both => notStopping both.1 both.2⟩

/-- Both ends of the registration keep their turn: the engine exactly along runs of
starts that succeed, the client exactly when nothing follows a message whose reply it
did not read. -/
theorem registration_in_turn_iff (from_str : String → Option Json.Value) (acts : List EngineAct)
    (id : UInt16) (life : Life) :
    (Always (engineStep from_str) Attentive Engine.new acts ↔
        Admits (engineStep from_str) (Answers from_str) Engine.new acts) ∧
      (Patient (life.socket id) ↔ life.Timely) :=
  ⟨attentive_iff from_str acts, patient_iff_timely id life⟩

/-- The bytes of the message that carries a text. -/
def messageOf (text : String) : ByteArray := text.toByteArray

theorem fromUTF8_messageOf (text : String) :
    String.fromUTF8? (messageOf text) = some text := by
  simp [messageOf, String.fromUTF8?, text.isValidUTF8, String.fromUTF8]

def smooth : Attempts := { connects := fun _ => true, sends := fun _ => true }

/-- One request that is no JSON is never answered, and a client with a network that
does all it is asked terminates out of turn. -/
theorem registration_out_of_turn :
    (¬ ∀ acts, Always (engineStep Json.parse) Attentive Engine.new acts) ∧
      ¬ ∀ id life, Patient (Life.socket life id) := by
  constructor
  · intro claimed
    have unreadable : decode Json.parse (messageOf "hello") = .error .json_error := by
      have rejected : Json.parse "hello" = none := by decide
      simp [decode, fromUTF8_messageOf, rejected]
    have unanswered : ¬ Answers Json.parse Engine.new
        (.getMsg (.readable true (messageOf "hello"))) := by
      intro answers
      obtain ⟨msg, decoded⟩ := answers rfl
      exact nomatch unreadable.symm.trans decoded
    have along := claimed [.getMsg (.readable true (messageOf "hello"))]
    exact getMsg_spoils Json.parse Engine.new _ new_inTurn unanswered (along.2 _ rfl)
  · intro claimed
    have patient := claimed 0
      { starting := smooth, registered := true, ready := smooth, stopping := smooth }
    have timely := (patient_iff_timely _ _).mp patient
    exact timely.2 (Or.inr ⟨rfl, by decide⟩) rfl

theorem toJson_opening (self : ContainerMsg) : ∃ tail, self.toJson =
    "\n        \x7b\n            'id': " ++ tail := by
  have assoc : ∀ a b c d e : String, a ++ b ++ c ++ d ++ e = a ++ (b ++ c ++ d ++ e) := by
    intro a b c d e
    simp only [String.append_assoc]
  exact ⟨_, assoc _ _ _ _ _⟩

/-- The first name is in single quotes, so no text of `to_json` is strict JSON. -/
theorem toJson_rejected (self : ContainerMsg) : Json.parse self.toJson = none := by
  obtain ⟨tail, opens⟩ := toJson_opening self
  have opened := Json.skipSpace_append "\n        \x7b\n            'id': ".toList tail.toList
    '\x7b' "\n            'id': ".toList (by decide)
  have quoted := Json.skipSpace_append "\n            'id': ".toList tail.toList '\''
    "id': ".toList (by decide)
  rw [opens]
  exact Json.parse_brace_none _ _ '\'' _ ((congrArg Json.skipSpace String.toList_append).trans opened)
    quoted (by decide) (by decide) (by decide)

/-- `get_msg` takes the text of `self` and sets `new_msg` to its id and code. -/
def Understood (from_str : String → Option Json.Value) (engine : Engine) (self : ContainerMsg) :
    Prop :=
  let got := getMsg from_str engine (.readable true (messageOf self.toJson))
  got.1 = .ok () ∧ got.2.new_msg = some (self.id, self.msg.code)

/-- An engine that reads strict JSON understands no client at all. -/
theorem never_understood (from_str : String → Option Json.Value)
    (strict : ∀ text, (from_str text).isSome = (Json.parse text).isSome)
    (engine : Engine) (listening : engine.socket.state = .listening) (self : ContainerMsg) :
    ¬ Understood from_str engine self := by
  have rejected : from_str self.toJson = none := by
    rw [← Option.not_isSome_iff_eq_none, strict, toJson_rejected]
    exact Bool.false_ne_true
  have failed : decode from_str (messageOf self.toJson) = .error .json_error := by
    simp [decode, fromUTF8_messageOf, rejected]
  rintro ⟨accepted, _⟩
  rcases getMsg_received from_str engine (messageOf self.toJson) listening with
    ⟨msg, decoded, _⟩ | ⟨failure, _, taken⟩
  · exact nomatch failed.symm.trans decoded
  · rw [taken] at accepted
    cases accepted

theorem first_ready_never_understood : ¬ Understood Json.parse Engine.new (.ready 1) :=
  never_understood Json.parse (fun _ => rfl) Engine.new rfl (.ready 1)

/-- The message of the documented example is turned away. -/
theorem documented_example_refused :
    ¬ ∀ (engine : Engine) (self : ContainerMsg), engine.socket.state = .listening →
      Understood Json.parse engine self := by
  intro claimed
  have accepted := (claimed Engine.new (.ready 1) rfl).1
  have failed : decode Json.parse (messageOf (ContainerMsg.ready 1).toJson) =
      .error .json_error := by
    simp [decode, fromUTF8_messageOf, toJson_rejected]
  simp [getMsg, Engine.new, RepSocket.new, RepSocket.recv, failed] at accepted

end L2Switch.ContainerMessages
