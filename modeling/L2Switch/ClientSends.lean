import L2Switch.ContainerMessages

/-!
What `ContainerClient::send` says about its message and what became of it. `send` runs
over any socket that can connect and send; the request socket of `ContainerMessages` is
one, and `Wire` is one whose answers the network alone decides.
-/
namespace L2Switch.ClientSends
open ContainerMessages RequestReply RingChannel

structure SocketOps (Socket : Type) where
  connect : Socket → Bool → Bool × Socket
  send : Socket → String → Bool → Bool × Socket

section AnySocket
variable {Socket : Type}

def retryOn (try_once : Socket → Bool → Bool × Socket) (socket : Socket) : List Bool → Bool × Socket
  | [] => (false, socket)
  | answer :: later =>
      match try_once socket answer with
      | (true, socket) => (true, socket)
      | (false, socket) => retryOn try_once socket later

def sendOn (ops : SocketOps Socket) (socket : Socket) (id : UInt16) (msg : ContMsgType)
    (attempts : Attempts) : Fallible Unit × Socket :=
  let cmsg := (msg.about id).toJson
  match ops.connect socket (firstAndRetries attempts.connects).1 with
  | (false, socket) =>
      match retryOn ops.connect socket (firstAndRetries attempts.connects).2 with
      -- connected at last, but past the branch that sends
      | (true, socket) => (.ok (), socket)
      | (false, socket) => (.error .zmq_error, socket)
  | (true, socket) =>
      match ops.send socket cmsg (firstAndRetries attempts.sends).1 with
      | (true, socket) => (.ok (), socket)
      | (false, socket) =>
          match retryOn (ops.send · cmsg) socket (firstAndRetries attempts.sends).2 with
          | (true, socket) => (.ok (), socket)
          | (false, socket) => (.error .zmq_error, socket)

def resultOn (tried : Bool × Socket) : Fallible Unit × Socket :=
  (if tried.1 then .ok () else .error .zmq_error, tried.2)

section Retrying
variable (try_once : Socket → Bool → Bool × Socket)

/-- Where a try does as the network answers, one good answer is enough. -/
theorem retryOn_succeeds (obeys : ∀ socket answer, (try_once socket answer).1 = answer)
    (socket : Socket) (answers : List Bool) :
    (retryOn try_once socket answers).1 = true ↔ true ∈ answers := by
  induction answers generalizing socket with
  | nil => simp [retryOn]
  | cons answer later ih =>
      rcases tried : try_once socket answer with ⟨ok, after⟩
      obtain rfl : ok = answer := by
        simpa only [tried] using obeys socket answer
      cases ok with
      | true => simp [retryOn, tried]
      | false => simp [retryOn, tried, ih after]

theorem retryOn_keeps {Field : Type} (read : Socket → Field)
    (kept : ∀ socket answer, read (try_once socket answer).2 = read socket)
    (socket : Socket) (answers : List Bool) :
    read (retryOn try_once socket answers).2 = read socket := by
  induction answers generalizing socket with
  | nil => rfl
  | cons answer later ih =>
      rcases tried : try_once socket answer with ⟨ok, after⟩
      have first : read after = read socket := by
        simpa only [tried] using kept socket answer
      cases ok with
      | true => simpa [retryOn, tried] using first
      | false => simpa [retryOn, tried, ih after] using first

theorem retryOn_tries (count : Socket → Nat)
    (once : ∀ socket answer, count (try_once socket answer).2 = count socket + 1)
    (socket : Socket) (answers : List Bool) :
    count (retryOn try_once socket answers).2 ≤ count socket + answers.length := by
  induction answers generalizing socket with
  | nil => exact Nat.le_refl _
  | cons answer later ih =>
      rcases tried : try_once socket answer with ⟨ok, after⟩
      have first : count after = count socket + 1 := by
        simpa only [tried] using once socket answer
      have rest := ih after
      cases ok with
      | true =>
          simp only [retryOn, tried, List.length_cons]
          omega
      | false =>
          simp only [retryOn, tried, List.length_cons]
          omega

end Retrying

/-- What connecting and sending keep, `send` keeps. -/
theorem sendOn_keeps {Field : Type} (ops : SocketOps Socket) (read : Socket → Field)
    (connects : ∀ socket ok, read (ops.connect socket ok).2 = read socket)
    (sends : ∀ socket text ok, read (ops.send socket text ok).2 = read socket)
    (socket : Socket) (id : UInt16) (msg : ContMsgType) (attempts : Attempts) :
    read (sendOn ops socket id msg attempts).2 = read socket := by
  simp only [sendOn]
  rcases tried : ops.connect socket (firstAndRetries attempts.connects).1 with ⟨connected, reached⟩
  have first : read reached = read socket := by
    simpa only [tried] using connects socket (firstAndRetries attempts.connects).1
  cases connected with
  | false =>
      have again := retryOn_keeps ops.connect read connects reached
        (firstAndRetries attempts.connects).2
      simp only
      split <;> next late => exact (late ▸ again).trans first
  | true =>
      let cmsg := (msg.about id).toJson
      simp only
      rcases posted : ops.send reached cmsg (firstAndRetries attempts.sends).1 with ⟨sent, after⟩
      have second : read after = read reached := by
        simpa only [posted] using sends reached cmsg (firstAndRetries attempts.sends).1
      cases sent with
      | true => exact second.trans first
      | false =>
          have again := retryOn_keeps (ops.send · cmsg) read
            (fun socket ok => sends socket cmsg ok) after (firstAndRetries attempts.sends).2
          simp only
          split <;> next late => exact (late ▸ again).trans (second.trans first)

theorem resultOn_isOk (tried : Bool × Socket) :
    (resultOn tried).1.isOk = true ↔ tried.1 = true := by
  cases ok : tried.1 <;> simp [resultOn, ok, Except.isOk, Except.toBool]

end AnySocket

def reqOps : SocketOps ReqSocket := { connect := ReqSocket.connect, send := ReqSocket.send }

theorem retryOn_req (try_once : ReqSocket → Bool → Bool × ReqSocket) (socket : ReqSocket)
    (answers : List Bool) : retryOn try_once socket answers = retry try_once socket answers := by
  induction answers generalizing socket with
  | nil => rfl
  | cons answer later ih =>
      simp only [retryOn, retry]
      rcases try_once socket answer with ⟨ok, after⟩
      cases ok with
      | true => rfl
      | false => exact ih after

/-- On the request socket this is the `send` of the turns. -/
theorem sendOn_req (socket : ReqSocket) (id : UInt16) (msg : ContMsgType) (attempts : Attempts) :
    sendOn reqOps socket id msg attempts = send socket id msg attempts := by
  simp only [sendOn, send, retryOn_req, reqOps, firstAndRetries]
  rcases socket.connect (attempts.connects 0) with ⟨connected, reached⟩
  cases connected with
  | false =>
      simp only
      rcases retry ReqSocket.connect reached [attempts.connects 1, attempts.connects 2] with ⟨ok, after⟩
      cases ok <;> rfl
  | true =>
      simp only
      rcases reached.send (msg.about id).toJson (attempts.sends 0) with ⟨sent, refused⟩
      cases sent with
      | true => rfl
      | false =>
          simp only
          rcases retry (·.send (msg.about id).toJson) refused
            [attempts.sends 1, attempts.sends 2] with ⟨ok, after⟩
          cases ok <;> rfl

/-- What the network took, and how often it was asked. -/
structure Wire where
  accepted : List String
  connects : Nat
  sends : Nat

def Wire.new : Wire := { accepted := [], connects := 0, sends := 0 }

def Wire.connect (wire : Wire) (ok : Bool) : Bool × Wire :=
  (ok, { wire with connects := wire.connects + 1 })

def Wire.send (wire : Wire) (text : String) (ok : Bool) : Bool × Wire :=
  (ok, { wire with accepted := if ok then wire.accepted ++ [text] else wire.accepted
                   sends := wire.sends + 1 })

def wireOps : SocketOps Wire := { connect := Wire.connect, send := Wire.send }

/-- One call of `send` as its caller sees it, with the wire before and after it. -/
structure Report where
  text : String
  result : Fallible Unit
  before : Wire
  after : Wire

abbrev SendCall := ContMsgType × Attempts

def report (id : UInt16) (wire : Wire) (call : SendCall) : Report :=
  let sent := sendOn wireOps wire id call.1 call.2
  { text := (call.1.about id).toJson, result := sent.1, before := wire, after := sent.2 }

def sendAll (id : UInt16) : Wire → List SendCall → List Report × Wire
  | wire, [] => ([], wire)
  | wire, call :: later =>
      let first := report id wire call
      let rest := sendAll id first.after later
      (first :: rest.1, rest.2)

/-- The messages whose call returned `Ok(())`. -/
def reported (reports : List Report) : List String :=
  (reports.filter fun report => report.result.isOk).map Report.text

structure TellsTruth (wire : Wire) (sent : List Report × Wire) : Prop where
  delivered : sent.2.accepted = wire.accepted ++ reported sent.1
  refused : ∀ report ∈ sent.1, report.result.isOk = false →
    report.after.accepted = report.before.accepted
  tries : ∀ report ∈ sent.1, report.after.connects ≤ report.before.connects + 3 ∧
    report.after.sends ≤ report.before.sends + 3

/-- The first connect fails and a later one does not. -/
def ConnectsLate (attempts : Attempts) : Prop :=
  (firstAndRetries attempts.connects).1 = false ∧ true ∈ (firstAndRetries attempts.connects).2

instance (attempts : Attempts) : Decidable (ConnectsLate attempts) :=
  inferInstanceAs (Decidable (_ ∧ _))

instance (attempts : Attempts) : Decidable attempts.Transmits :=
  inferInstanceAs (Decidable (_ = true ∧ _))

theorem retryOn_connect (wire : Wire) (answers : List Bool) :
    ((retryOn Wire.connect wire answers).1 = true ↔ true ∈ answers) ∧
      (retryOn Wire.connect wire answers).2.accepted = wire.accepted ∧
      (retryOn Wire.connect wire answers).2.sends = wire.sends ∧
      (retryOn Wire.connect wire answers).2.connects ≤ wire.connects + answers.length :=
  ⟨retryOn_succeeds _ (fun _ _ => rfl) wire answers,
    retryOn_keeps _ Wire.accepted (fun _ _ => rfl) wire answers,
    retryOn_keeps _ Wire.sends (fun _ _ => rfl) wire answers,
    retryOn_tries _ Wire.connects (fun _ _ => rfl) wire answers⟩

/-- Trying again after a failed send puts the text on the wire at most once. -/
theorem retryOn_accepted (wire : Wire) (text : String) (answers : List Bool) :
    (retryOn (Wire.send · text) wire answers).2.accepted =
      wire.accepted ++ (if true ∈ answers then [text] else []) := by
  induction answers generalizing wire with
  | nil => simp [retryOn]
  | cons answer later ih =>
      cases answer with
      | true => simp [retryOn, Wire.send]
      | false => exact (ih { wire with sends := wire.sends + 1 }).trans (by simp)

theorem retryOn_send (wire : Wire) (text : String) (answers : List Bool) :
    ((retryOn (Wire.send · text) wire answers).1 = true ↔ true ∈ answers) ∧
      (retryOn (Wire.send · text) wire answers).2.accepted =
        wire.accepted ++ (if true ∈ answers then [text] else []) ∧
      (retryOn (Wire.send · text) wire answers).2.connects = wire.connects ∧
      (retryOn (Wire.send · text) wire answers).2.sends ≤ wire.sends + answers.length :=
  ⟨retryOn_succeeds _ (fun _ _ => rfl) wire answers, retryOn_accepted wire text answers,
    retryOn_keeps _ Wire.connects (fun _ _ => rfl) wire answers,
    retryOn_tries _ Wire.sends (fun _ _ => rfl) wire answers⟩

theorem sendOn_reached (wire : Wire) (id : UInt16) (msg : ContMsgType) (attempts : Attempts)
    (reaches : attempts.Reaches) :
    sendOn wireOps wire id msg attempts =
      resultOn (retryOn (Wire.send · (msg.about id).toJson)
        { wire with connects := wire.connects + 1 }
        [attempts.sends 0, attempts.sends 1, attempts.sends 2]) := by
  have connected : attempts.connects 0 = true := reaches
  simp only [sendOn, wireOps, firstAndRetries, connected, Wire.connect]
  rw [retryOn.eq_def _ _ [attempts.sends 0, attempts.sends 1, attempts.sends 2]]
  cases attempts.sends 0 with
  | true => rfl
  | false =>
      simp only [Wire.send, Bool.false_eq_true, ↓reduceIte]
      split <;> simp [*, resultOn]

theorem sendOn_unreached (wire : Wire) (id : UInt16) (msg : ContMsgType) (attempts : Attempts)
    (unreached : ¬ attempts.Reaches) :
    sendOn wireOps wire id msg attempts =
      resultOn (retryOn Wire.connect { wire with connects := wire.connects + 1 }
        [attempts.connects 1, attempts.connects 2]) := by
  have refused : attempts.connects 0 = false := by simpa [Attempts.Reaches] using unreached
  simp only [sendOn, wireOps, firstAndRetries, refused, Wire.connect]
  split <;> simp [*, resultOn]

/-- One call: what it says, what it puts on the wire and how often it tries. -/
theorem sendOn_effect (wire : Wire) (id : UInt16) (msg : ContMsgType) (attempts : Attempts) :
    ((sendOn wireOps wire id msg attempts).1.isOk = true ↔
        attempts.Transmits ∨ ConnectsLate attempts) ∧
      (sendOn wireOps wire id msg attempts).2.accepted =
        wire.accepted ++ (if attempts.Transmits then [(msg.about id).toJson] else []) ∧
      (sendOn wireOps wire id msg attempts).2.connects ≤ wire.connects + 3 ∧
      (sendOn wireOps wire id msg attempts).2.sends ≤ wire.sends + 3 := by
  by_cases reaches : attempts.Reaches
  · obtain ⟨succeeds, accepted, connects, sends⟩ :=
      retryOn_send { wire with connects := wire.connects + 1 } (msg.about id).toJson
        [attempts.sends 0, attempts.sends 1, attempts.sends 2]
    have timely : ¬ ConnectsLate attempts := fun late =>
      Bool.false_ne_true (late.1.symm.trans reaches)
    rw [sendOn_reached wire id msg attempts reaches]
    refine ⟨?_, ?_, ?_, sends⟩
    · rw [resultOn_isOk, succeeds]
      simp [Attempts.Transmits, reaches, timely]
    · simp only [resultOn, accepted, Attempts.Transmits, reaches, true_and]
    · simp only [resultOn, connects]
      omega
  · obtain ⟨succeeds, accepted, sends, connects⟩ :=
      retryOn_connect { wire with connects := wire.connects + 1 }
        [attempts.connects 1, attempts.connects 2]
    have refused : attempts.connects 0 = false := by simpa [Attempts.Reaches] using reaches
    rw [sendOn_unreached wire id msg attempts reaches]
    refine ⟨?_, ?_, ?_, ?_⟩
    · rw [resultOn_isOk, succeeds]
      simp only [Attempts.Transmits, ConnectsLate, firstAndRetries, refused, reaches, false_and,
        true_and, false_or]
    · simp [resultOn, accepted, Attempts.Transmits, reaches]
    · simp only [resultOn]
      simp only [List.length_cons, List.length_nil] at connects
      omega
    · simp only [resultOn, sends]
      omega

/-- What the wire took of a sequence of calls. -/
theorem sendAll_accepted (id : UInt16) (wire : Wire) (calls : List SendCall) :
    (sendAll id wire calls).2.accepted = wire.accepted ++
      (calls.filter fun call => call.2.Transmits).map fun call => (call.1.about id).toJson := by
  induction calls generalizing wire with
  | nil => simp [sendAll]
  | cons call later ih =>
      have first := (sendOn_effect wire id call.1 call.2).2.1
      simp only [sendAll, ih, report, first, List.append_assoc]
      by_cases transmits : call.2.Transmits <;> simp [transmits]

/-- What a sequence of calls says of itself. -/
theorem sendAll_reported (id : UInt16) (wire : Wire) (calls : List SendCall) :
    reported (sendAll id wire calls).1 =
      (calls.filter fun call => call.2.Transmits ∨ ConnectsLate call.2).map
        fun call => (call.1.about id).toJson := by
  induction calls generalizing wire with
  | nil => rfl
  | cons call later ih =>
      have first := (sendOn_effect wire id call.1 call.2).1
      have rest := ih (report id wire call).after
      simp only [reported] at rest
      by_cases succeeds : call.2.Transmits ∨ ConnectsLate call.2
      · simp only [reported, sendAll, report, List.filter_cons, first.mpr succeeds, succeeds,
          decide_true, ↓reduceIte, List.map_cons]
        exact congrArg _ rest
      · have fails : (sendOn wireOps wire id call.1 call.2).1.isOk = false := by
          simpa [succeeds] using first
        simp only [reported, sendAll, report, List.filter_cons, fails, succeeds, decide_false,
          Bool.false_eq_true, ↓reduceIte]
        exact rest

theorem mem_sendAll (id : UInt16) (wire : Wire) (calls : List SendCall) (entry : Report)
    (listed : entry ∈ (sendAll id wire calls).1) :
    ∃ before, ∃ call ∈ calls, entry = report id before call := by
  induction calls generalizing wire with
  | nil => cases listed
  | cons call later ih =>
      cases List.mem_cons.mp listed with
      | inl first => exact ⟨wire, call, List.mem_cons_self, first⟩
      | inr rest =>
          obtain ⟨before, other, member, same⟩ := ih _ rest
          exact ⟨before, other, List.mem_cons_of_mem _ member, same⟩

/-- A call that connects only on a retry says it has sent what it never did, and nothing
else makes a sequence of calls untruthful. -/
theorem tells_truth_iff (id : UInt16) (wire : Wire) (calls : List SendCall) :
    TellsTruth wire (sendAll id wire calls) ↔ ∀ call ∈ calls, ¬ ConnectsLate call.2 := by
  constructor
  · rintro ⟨delivered, _, _⟩ call member late
    rw [sendAll_accepted, sendAll_reported, List.append_cancel_left_eq] at delivered
    have fewer : calls.filter (fun call => call.2.Transmits) =
        calls.filter (fun call => call.2.Transmits ∨ ConnectsLate call.2) := by
      refine List.Sublist.eq_of_length ?_ ?_
      · exact List.monotone_filter_right _ fun call transmits => by simp_all
      · simpa using congrArg List.length delivered
    have said : call ∈ calls.filter (fun call => call.2.Transmits ∨ ConnectsLate call.2) := by
      simp [member, late]
    rw [← fewer] at said
    have reached : call.2.connects 0 = true := by
      have transmits : call.2.Transmits := by simpa [member] using said
      exact transmits.1
    have refused : call.2.connects 0 = false := late.1
    rw [refused] at reached
    cases reached
  · intro timely
    refine ⟨?_, ?_, ?_⟩
    · rw [sendAll_accepted, sendAll_reported]
      congr 2
      refine List.filter_congr fun call member => ?_
      simp [timely call member]
    · intro entry listed refused
      obtain ⟨before, call, _, rfl⟩ := mem_sendAll id wire calls entry listed
      obtain ⟨succeeds, accepted, _⟩ := sendOn_effect before id call.1 call.2
      have silent : ¬ call.2.Transmits := fun transmits =>
        Bool.false_ne_true (refused.symm.trans (succeeds.mpr (Or.inl transmits)))
      exact accepted.trans (by simp [silent, report])
    · intro entry listed
      obtain ⟨before, call, _, rfl⟩ := mem_sendAll id wire calls entry listed
      exact (sendOn_effect before id call.1 call.2).2.2

/-- Refused once, connected on the second try: `Ok(())` with nothing sent. -/
theorem late_connection_unsent :
    ¬ TellsTruth .new (sendAll 1 .new
      [(.PodReady, { connects := fun turn => turn != 0, sends := fun _ => true })]) := by
  rintro ⟨delivered, _, _⟩
  revert delivered
  decide

end L2Switch.ClientSends
