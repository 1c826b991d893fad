import L2Switch.ClientSends
import L2Switch.MeetingPoints
import L2Switch.RegistrationProtocol

/-!
Where the engine and its clients meet. `Engine::new` connects its reply socket to SOCKET,
and `ContainerClient::send` connects its request socket to the same address; neither binds
it. Other programs may, and may send whatever they like.
-/
namespace L2Switch.Rendezvous
open Histories EngineRegistry EngineMessages RequestReply MessageJournal RegistrationProtocol
  ContainerMessages ClientSends MeetingPoints

inductive Party (Stranger : Type) where
  | engine
  | client (peer : Nat)
  | stranger (stranger : Stranger)
  deriving DecidableEq

variable {Stranger : Type}

abbrev Letter (Stranger : Type) := Parcel (Party Stranger) ByteArray

/-- The engine is there once `Engine::new` has succeeded; `heard` lists what clients received. -/
structure World (Stranger : Type) where
  meeting : Meeting (Party Stranger) ByteArray
  journal : Option Journal
  turns : Nat → Req
  heard : List (Letter Stranger)

def World.start : World Stranger :=
  { meeting := .new, journal := none, turns := fun _ => .idle, heard := [] }

/-- The request socket of one client, as `send` uses it. -/
abbrev ClientSide (Stranger : Type) := Meeting (Party Stranger) ByteArray × Req

def clientOps (peer : Nat) : SocketOps (ClientSide Stranger) where
  connect side ok := (ok, if ok then (side.1.connect (.client peer), side.2) else side)
  send side text accepted :=
    let (ok, turn) := side.2.send accepted
    (ok, (if ok then side.1.post (.client peer) text.toUTF8 else side.1, turn))

inductive Found (Stranger : Type) where
  | failed
  | quiet
  | readable (received : Bool) (letter : Letter Stranger)

def Found.polled : Found Stranger → Polled
  | .failed => .failed
  | .quiet => .quiet
  | .readable received letter => .readable received letter.message

inductive WorldAct (Stranger : Type) where
  | newEngine (connected : Bool)
  | dropEngine
  | getMsg (found : Found Stranger)
  | checkNSet (outcome : Outcome)
  | send (peer : Nat) (msg : ContMsgType) (attempts : Attempts)
  | recv (peer : Nat) (letter : Letter Stranger)
  | dropClient (peer : Nat)
  | binds (stranger : Stranger)
  | connects (stranger : Stranger)
  | posts (stranger : Stranger) (message : ByteArray)
  | leaves (stranger : Stranger)
  | deliver (letter : Letter Stranger)

variable (from_str : String → Option Json.Value) (idOf : Nat → UInt16)

section Stepping

variable [DecidableEq Stranger]

/-- What poll finds has arrived at the engine, and leaves the network when it is taken. -/
def World.poll (world : World Stranger) (journal : Journal) :
    Found Stranger → Option (World Stranger)
  | .readable received letter =>
      let found : Found Stranger := .readable received letter
      if letter.receiver = .engine then
        (world.meeting.take letter).bind fun taken =>
          (journalStep from_str journal (.getMsg found.polled)).map fun journal' =>
            { world with
              meeting := if (takes journal.engine found.polled).isEmpty then world.meeting else taken
              journal := some journal' }
      else none
  | found =>
      (journalStep from_str journal (.getMsg found.polled)).map fun journal' =>
        { world with journal := some journal' }

def worldStep (world : World Stranger) : WorldAct Stranger → Option (World Stranger)
  | .newEngine connected =>
      match world.journal with
      | some _ => none
      | none =>
          some (if connected then
            { world with journal := some .new, meeting := world.meeting.connect .engine }
          else world)
  | .dropEngine => some { world with journal := none, meeting := world.meeting.leave .engine }
  | .getMsg found => world.journal.bind fun journal => world.poll from_str journal found
  | .checkNSet outcome =>
      world.journal.bind fun journal =>
        (journalStep from_str journal (.checkNSet outcome)).map fun journal' =>
          { world with
            journal := some journal'
            meeting := if (checkNSetClientStatus journal.engine outcome).replied then
              world.meeting.post .engine "1".toUTF8 else world.meeting }
  | .send peer msg attempts =>
      let side := (sendOn (clientOps peer) (world.meeting, world.turns peer) (idOf peer) msg
        attempts).2
      some { world with meeting := side.1, turns := Function.update world.turns peer side.2 }
  | .recv peer letter =>
      if letter.receiver = .client peer then
        (world.meeting.take letter).bind fun meeting =>
          match (world.turns peer).recv true with
          | (true, turn) =>
              some { world with
                meeting, turns := Function.update world.turns peer turn
                heard := world.heard ++ [letter] }
          | (false, _) => none
      else none
  | .dropClient peer =>
      some { world with
        meeting := world.meeting.leave (.client peer)
        turns := Function.update world.turns peer .idle }
  | .binds stranger =>
      (world.meeting.bind (.stranger stranger)).map fun meeting => { world with meeting }
  | .connects stranger =>
      some { world with meeting := world.meeting.connect (.stranger stranger) }
  | .posts stranger message =>
      some { world with meeting := world.meeting.post (.stranger stranger) message }
  | .leaves stranger => some { world with meeting := world.meeting.leave (.stranger stranger) }
  | .deliver letter => (world.meeting.deliver letter).map fun meeting => { world with meeting }

end Stepping

/-- Whatever the engine or a client takes comes from a stranger that has bound the address;
as long as nobody has, the engine knows no client and no client hears anything. -/
structure Mediated (world : World Stranger) : Prop where
  between : ∀ letter ∈ world.meeting.delivered, ∃ stranger,
    .stranger stranger ∈ world.meeting.binders ∧
      (letter.sender = .stranger stranger ∨ letter.receiver = .stranger stranger)
  taken : ∀ journal ∈ world.journal, ∀ request ∈ journal.taken, ∃ stranger,
    .stranger stranger ∈ world.meeting.binders ∧
      { sender := .stranger stranger, receiver := .engine, message := request } ∈
        world.meeting.delivered
  heard : ∀ letter ∈ world.heard, ∃ stranger,
    .stranger stranger ∈ world.meeting.binders ∧ letter.sender = .stranger stranger
  alone : world.meeting.binders = [] →
    (∀ journal ∈ world.journal, journal = .new) ∧ world.heard = []

def IsStranger (party : Party Stranger) : Prop := ∃ stranger, party = .stranger stranger

structure Settled (world : World Stranger) : Prop where
  brokered : Brokered world.meeting
  strangers : ∀ party ∈ world.meeting.binders, IsStranger party
  requests : ∀ journal ∈ world.journal, ∀ request ∈ journal.taken,
    ∃ letter ∈ world.meeting.delivered, letter.receiver = .engine ∧ letter.message = request
  fresh : ∀ journal ∈ world.journal, journal.taken = [] → journal = .new
  heard : ∀ letter ∈ world.heard,
    letter ∈ world.meeting.delivered ∧ ∃ peer, letter.receiver = .client peer

theorem start_settled : Settled (World.start : World Stranger) :=
  { brokered := new_brokered, strangers := fun _ member => (nomatch member)
    requests := fun _ there => (nomatch there), fresh := fun _ there => (nomatch there)
    heard := fun _ member => nomatch member }

/-- One end of what was delivered is a stranger; the other, if it is not one, is not it. -/
theorem settled_sender (world : World Stranger) (settled : Settled world)
    (letter : Letter Stranger) (passed : letter ∈ world.meeting.delivered)
    (own : ¬ IsStranger letter.receiver) :
    ∃ stranger, .stranger stranger ∈ world.meeting.binders ∧
      letter.sender = .stranger stranger := by
  rcases settled.brokered.between letter passed with sent | received
  · obtain ⟨stranger, same⟩ := settled.strangers letter.sender sent
    exact ⟨stranger, same ▸ sent, same⟩
  · exact absurd (settled.strangers letter.receiver received) own

theorem settled_mediated (world : World Stranger) (settled : Settled world) : Mediated world where
  between letter passed := by
    rcases settled.brokered.between letter passed with sent | received
    · obtain ⟨stranger, same⟩ := settled.strangers letter.sender sent
      exact ⟨stranger, same ▸ sent, Or.inl same⟩
    · obtain ⟨stranger, same⟩ := settled.strangers letter.receiver received
      exact ⟨stranger, same ▸ received, Or.inr same⟩
  taken journal there request member := by
    obtain ⟨letter, passed, receiver, message⟩ := settled.requests journal there request member
    obtain ⟨stranger, bound, sender⟩ := settled_sender world settled letter passed
      fun ⟨_, other⟩ => nomatch receiver.symm.trans other
    refine ⟨stranger, bound, ?_⟩
    rwa [← sender, ← receiver, ← message]
  heard letter member := by
    obtain ⟨passed, peer, receiver⟩ := settled.heard letter member
    exact settled_sender world settled letter passed
      fun ⟨_, other⟩ => nomatch receiver.symm.trans other
  alone none_bound := by
    have silent : ∀ letter, letter ∉ world.meeting.delivered := by
      intro letter passed
      have joined := settled.brokered.between letter passed
      simp [none_bound] at joined
    constructor
    · intro journal there
      refine settled.fresh journal there (List.eq_nil_iff_forall_not_mem.mpr ?_)
      intro request member
      obtain ⟨letter, passed, _⟩ := settled.requests journal there request member
      exact silent letter passed
    · exact List.eq_nil_iff_forall_not_mem.mpr
        fun letter member => silent letter (settled.heard letter member).1

/-- Where the meeting goes on, all else may stay as it is. -/
theorem goes_settled (world : World Stranger) (settled : Settled world)
    (meeting : Meeting (Party Stranger) ByteArray) (turns : Nat → Req)
    (goes : Goes IsStranger world.meeting meeting) :
    Settled { world with meeting, turns } where
  brokered := goes.brokered
  strangers party member := (goes.binders party member).elim (settled.strangers party) id
  requests journal there request member := by
    obtain ⟨letter, passed, same⟩ := settled.requests journal there request member
    exact ⟨letter, goes.delivered letter passed, same⟩
  fresh := settled.fresh
  heard letter member := (settled.heard letter member).imp (goes.delivered letter) id

theorem journal_settled (world : World Stranger) (settled : Settled world)
    (journal : Option Journal)
    (requests : ∀ journal' ∈ journal, ∀ request ∈ journal'.taken,
      ∃ letter ∈ world.meeting.delivered, letter.receiver = .engine ∧ letter.message = request)
    (fresh : ∀ journal' ∈ journal, journal'.taken = [] → journal' = .new) :
    Settled { world with journal } :=
  { brokered := settled.brokered, strangers := settled.strangers, requests := requests
    fresh := fresh, heard := settled.heard }

/-- Nothing taken, nothing done. -/
theorem getMsg_idle (engine : Engine) (polled : Polled) (nothing : takes engine polled = []) :
    (getMsg from_str engine polled).2 = engine := by
  cases polled with
  | failed => rfl
  | quiet => rfl
  | readable received request =>
      cases state : engine.socket.state with
      | replying => simp [getMsg, state]
      | listening =>
          cases received with
          | true => simp [takes_listening engine request state] at nothing
          | false => simp [getMsg, state, RepSocket.recv]

theorem clientOps_record (peer : Nat) (side : ClientSide Stranger) (id : UInt16)
    (msg : ContMsgType) (attempts : Attempts) :
    (sendOn (clientOps peer) side id msg attempts).2.1.record = side.1.record := by
  apply sendOn_keeps (clientOps peer) (fun side => side.1.record)
  · intro side ok
    cases ok <;> rfl
  · intro side text ok
    cases sent : (side.2.send ok).1 <;> simp [clientOps, sent]

/-- What one call of `get_msg` leaves, told by what it took. -/
theorem polled_settled (world : World Stranger) (settled : Settled world)
    (journal journal' : Journal) (there : world.journal = some journal) (polled : Polled)
    (stepped : journalStep from_str journal (.getMsg polled) = some journal')
    (arrived : ∀ request ∈ takes journal.engine polled,
      ∃ letter ∈ world.meeting.delivered, letter.receiver = .engine ∧ letter.message = request) :
    Settled { world with journal := some journal' } := by
  cases stepped
  refine journal_settled world settled _ (fun journal' same => ?_) (fun journal' same => ?_)
  · obtain rfl := Option.some.inj same
    intro request member
    rcases List.mem_append.mp member with earlier | last
    · exact settled.requests journal there request earlier
    · exact arrived request last
  · obtain rfl := Option.some.inj same
    intro nothing
    obtain ⟨before, now⟩ := List.append_eq_nil_iff.mp nothing
    have new := settled.fresh journal there before
    rw [Journal.after, getMsg_idle from_str journal.engine polled now, now, List.append_nil]
    exact new

theorem checked_settled (world : World Stranger) (settled : Settled world)
    (journal journal' : Journal) (there : world.journal = some journal) (outcome : Outcome)
    (stepped : journalStep from_str journal (.checkNSet outcome) = some journal') :
    Settled { world with journal := some journal' } := by
  cases stepped
  refine journal_settled world settled _ (fun journal' same => ?_) (fun journal' same => ?_)
  · obtain rfl := Option.some.inj same
    exact settled.requests journal there
  · obtain rfl := Option.some.inj same
    intro nothing
    rw [settled.fresh journal there nothing]
    rfl

variable [DecidableEq Stranger]

theorem poll_settled (world next : World Stranger) (settled : Settled world) (journal : Journal)
    (there : world.journal = some journal) (found : Found Stranger)
    (stepped : world.poll from_str journal found = some next) : Settled next := by
  cases found with
  | failed | quiet =>
      cases stepped
      exact polled_settled from_str world settled journal _ there _ rfl
        fun _ member => absurd member List.not_mem_nil
  | readable received letter =>
      simp only [World.poll, Option.ite_none_right_eq_some] at stepped
      obtain ⟨receiver, stepped⟩ := stepped
      obtain ⟨taken, took, stepped⟩ := Option.bind_eq_some_iff.mp stepped
      obtain ⟨journal', polled, rfl⟩ := Option.map_eq_some_iff.mp stepped
      obtain ⟨goes, passed⟩ := take_goes IsStranger world.meeting taken letter settled.brokered took
      have moved := polled_settled from_str world settled journal journal' there _ polled ?_
      · split
        · exact moved
        · exact goes_settled _ moved taken world.turns goes
      · intro request member
        refine ⟨letter, passed, receiver, ?_⟩
        -- the one thing a call can take is what poll found
        simp only [Found.polled, takes] at member
        split at member
        · split at member
          · exact (List.mem_singleton.mp member).symm
          · cases member
        · cases member

theorem step_settled (world : World Stranger) (act : WorldAct Stranger) (next : World Stranger)
    (settled : Settled world) (stepped : worldStep from_str idOf world act = some next) :
    Settled next := by
  have brokered := settled.brokered
  cases act with
  | newEngine connected =>
      simp only [worldStep] at stepped
      split at stepped <;> cases stepped
      split
      · have joined := goes_settled world settled (world.meeting.connect .engine) world.turns
          (goes_of_record IsStranger _ _ brokered rfl)
        exact journal_settled _ joined _
          (fun journal same request member => by cases same; nomatch member)
          (fun journal same _ => (Option.some.inj same).symm)
      · exact settled
  | dropEngine =>
      cases stepped
      have left := goes_settled world settled (world.meeting.leave .engine) world.turns
        (leave_goes IsStranger _ _ brokered)
      exact journal_settled _ left none (fun _ same => nomatch same) (fun _ same => nomatch same)
  | getMsg found =>
      obtain ⟨journal, there, polled⟩ := Option.bind_eq_some_iff.mp stepped
      exact poll_settled from_str world next settled journal there found polled
  | checkNSet outcome =>
      obtain ⟨journal, there, stepped⟩ := Option.bind_eq_some_iff.mp stepped
      obtain ⟨journal', checked, rfl⟩ := Option.map_eq_some_iff.mp stepped
      have moved := checked_settled from_str world settled journal journal' there outcome checked
      refine goes_settled _ moved _ world.turns (goes_of_record IsStranger _ _ brokered ?_)
      split <;> rfl
  | send peer msg attempts =>
      cases stepped
      exact goes_settled world settled _ _ (goes_of_record IsStranger _ _ brokered
        (clientOps_record peer (world.meeting, world.turns peer) (idOf peer) msg attempts))
  | recv peer letter =>
      simp only [worldStep, Option.ite_none_right_eq_some] at stepped
      obtain ⟨receiver, stepped⟩ := stepped
      obtain ⟨taken, took, stepped⟩ := Option.bind_eq_some_iff.mp stepped
      obtain ⟨goes, passed⟩ := take_goes IsStranger world.meeting taken letter brokered took
      split at stepped
      · next turn _ =>
          cases stepped
          have moved := goes_settled world settled taken (Function.update world.turns peer turn) goes
          refine { moved with heard := fun other member => ?_ }
          rcases List.mem_append.mp member with earlier | last
          · exact moved.heard other earlier
          · obtain rfl := List.mem_singleton.mp last
            exact ⟨goes.delivered other passed, peer, receiver⟩
      · cases stepped
  | dropClient peer =>
      cases stepped
      exact goes_settled world settled _ _ (leave_goes IsStranger _ _ brokered)
  | binds stranger =>
      obtain ⟨meeting, bound, rfl⟩ := Option.map_eq_some_iff.mp stepped
      exact goes_settled world settled meeting world.turns
        (bind_goes IsStranger _ _ _ brokered ⟨stranger, rfl⟩ bound)
  | connects stranger | posts stranger message =>
      cases stepped
      exact goes_settled world settled _ world.turns (goes_of_record IsStranger _ _ brokered rfl)
  | leaves stranger =>
      cases stepped
      exact goes_settled world settled _ world.turns (leave_goes IsStranger _ _ brokered)
  | deliver letter =>
      obtain ⟨meeting, delivered, rfl⟩ := Option.map_eq_some_iff.mp stepped
      exact goes_settled world settled meeting world.turns
        (deliver_goes IsStranger _ _ letter brokered delivered)

/-- No client ever reaches the engine by itself, nor the engine a client: along every run,
a program that is neither and has bound SOCKET stands between them. -/
theorem mediated_along (acts : List (WorldAct Stranger)) :
    Always (worldStep from_str idOf) Mediated (World.start : World Stranger) acts :=
  always_of_invariant (worldStep from_str idOf) Settled Mediated
    (step_settled from_str idOf) settled_mediated _ acts start_settled

end L2Switch.Rendezvous
