import L2Switch.ContainerMessages
import L2Switch.LastRequest
import L2Switch.RequestReply

/-!
The registration protocol as a whole: any number of peers that ask over their request
sockets, requests and replies that are on their way for as long as they like, and the
engine's two calls. A peer may ask anything; what a container client asks is one of the
texts of `to_json`.
-/
namespace L2Switch.RegistrationProtocol
open Histories DpdkRings EngineRegistry RegistryHistory EngineMessages RequestReply MessageJournal
  LastRequest ContainerMessages

abbrev Asked := Nat × ByteArray

/-- Requests are compared byte by byte. -/
instance decEqRequest : DecidableEq ByteArray := ByteArray.decEq

/-- `answered` lists the requests a reply was sent to, oldest first. -/
structure Protocol where
  journal : Journal
  net : Net Nat ByteArray
  answered : List Asked

def Protocol.start : Protocol := { journal := .new, net := .quiet, answered := [] }

/-- What one poll finds, a request being one of those that have arrived. -/
inductive Arrival where
  | failed
  | quiet
  | readable (received : Bool) (entry : Asked)

def Arrival.polled : Arrival → Polled
  | .failed => .failed
  | .quiet => .quiet
  | .readable received entry => .readable received entry.2

inductive ProtocolAct where
  | ask (peer : Nat) (request : ByteArray)
  | getMsg (arrival : Arrival)
  | checkNSet (outcome : Outcome)
  | hear (entry : Asked)

variable (from_str : String → Option Json.Value)

def protocolStep (protocol : Protocol) : ProtocolAct → Option Protocol
  | .ask peer request =>
      (protocol.net.ask peer request).map fun net => { protocol with net }
  | .getMsg (.readable received entry) =>
      if protocol.net.arrived entry then
        let journal := protocol.journal.after from_str (.getMsg (.readable received entry.2))
        -- the request leaves the network when the socket gets hold of it
        if (takes protocol.journal.engine (.readable received entry.2)).isEmpty then
          some { protocol with journal }
        else (protocol.net.take entry).map fun net => { protocol with journal, net }
      else none
  | .getMsg arrival =>
      some { protocol with journal := protocol.journal.after from_str (.getMsg arrival.polled) }
  | .checkNSet outcome =>
      let journal := protocol.journal.after from_str (.checkNSet outcome)
      if (checkNSetClientStatus protocol.journal.engine outcome).replied then
        protocol.net.answer.map fun net =>
          { journal, net, answered := protocol.answered ++ protocol.net.owed.toList }
      else some { protocol with journal }
  | .hear entry => (protocol.net.hear entry).map fun net => { protocol with net }

/-- The request started this client, whose rings can be looked up unless it was stopped. -/
def Started (journal : Journal) (request : ByteArray) : Prop :=
  ∃ id, decode from_str request = .ok (id, 0) ∧
    ((id, 2) ∈ journal.handed ∨
      ((rteRingLookup journal.engine.registry.rings (txName id)).isSome ∧
        (rteRingLookup journal.engine.registry.rings (rxName id)).isSome))

/-- Nobody waits for anything but its own one request, whoever was answered started a
client of its own, and a reply comes from an answer. -/
structure Agreed (protocol : Protocol) : Prop where
  exact : protocol.net.Exact
  started : ∀ entry ∈ protocol.answered, Started from_str protocol.journal entry.2
  apart : (protocol.answered.map fun entry => decode from_str entry.2).Nodup
  replies : ∀ entry ∈ protocol.net.replies, entry ∈ protocol.answered

structure Linked (protocol : Protocol) : Prop where
  reached : Reached from_str protocol.journal
  exact : protocol.net.Exact
  owing : protocol.journal.engine.socket.state = .replying ↔ protocol.net.owed ≠ none
  account : protocol.journal.taken =
    protocol.answered.map Prod.snd ++ (protocol.net.owed.map Prod.snd).toList
  replies : ∀ entry ∈ protocol.net.replies, entry ∈ protocol.answered

theorem start_linked : Linked from_str .start :=
  { reached := new_reached from_str, exact := quiet_exact
    owing := by simp [Protocol.start, Journal.new, Engine.new, RepSocket.new, Net.quiet]
    account := rfl, replies := fun _ member => nomatch member }

theorem linked_settled (protocol : Protocol) (linked : Linked from_str protocol) :
    settled protocol.journal = protocol.answered.map Prod.snd := by
  have account := linked.account
  have owing := linked.owing
  cases owed : protocol.net.owed with
  | none =>
      have listening : protocol.journal.engine.socket.state = .listening := by
        cases state : protocol.journal.engine.socket.state with
        | listening => rfl
        | replying => exact absurd owed (owing.mp state)
      simpa [settled, listening, owed] using account
  | some entry =>
      have replying := owing.mpr (by simp [owed])
      simp only [owed, Option.map_some, Option.toList_some] at account
      simp only [settled, replying, account, List.dropLast_concat]

theorem registered_found (journal : Journal) (sound : Sound journal.engine.registry) (id : UInt16)
    (known : (journal.engine.registry.statusmap.lookup id).isSome) :
    (rteRingLookup journal.engine.registry.rings (txName id)).isSome ∧
      (rteRingLookup journal.engine.registry.rings (rxName id)).isSome := by
  rw [sound.keys id] at known
  obtain ⟨channel, mapped⟩ := Option.isSome_iff_exists.mp known
  obtain ⟨tx, rx⟩ := sound.wrapped id channel mapped
  exact ⟨by simp [rteRingLookup, tx], by simp [rteRingLookup, rx]⟩

theorem linked_agreed (protocol : Protocol) (linked : Linked from_str protocol) :
    Agreed from_str protocol := by
  obtain ⟨ids, distinct, alike, known⟩ :=
    (reached_lastDiffers from_str protocol.journal linked.reached).starts
  rw [linked_settled from_str protocol linked, List.map_map] at alike
  refine { exact := linked.exact, started := fun entry member => ?_, apart := ?_
           replies := linked.replies }
  · have decoded : decode from_str entry.2 ∈
        ids.map fun id => (.ok (id, 0) : RingChannel.Fallible (UInt16 × UInt64)) :=
      alike ▸ List.mem_map_of_mem (f := decode from_str ∘ Prod.snd) member
    obtain ⟨id, inside, same⟩ := List.mem_map.mp decoded
    refine ⟨id, same.symm, ?_⟩
    rcases known id inside with here | stopped
    · exact Or.inr (registered_found protocol.journal linked.reached.sound id here)
    · exact Or.inl stopped
  · change (protocol.answered.map (decode from_str ∘ Prod.snd)).Nodup
    rw [alike]
    apply distinct.map
    intro left right same
    simpa using same

/-- With a message pending, a reply goes out exactly for a start that succeeds. -/
theorem replied_iff (engine : Engine) (outcome : Outcome) (inTurn : InTurn engine) (id : UInt16)
    (m : UInt64) (pending : engine.new_msg = some (id, m)) :
    (checkNSetClientStatus engine outcome).replied = true ↔
      m = 0 ∧ Startable engine.registry id outcome := by
  have replying := pending_replying engine inTurn _ pending
  have sent := send_replying engine.socket replying outcome.replied
  rw [checkNSet_handles engine outcome id m pending]
  simp only [Engine.setClientStatus, sent]
  rcases status_cases engine.registry inTurn.sound id m outcome with
    ⟨unable, failure, after, failed, _⟩ | ⟨rfl, able, _, entered⟩ | ⟨rfl, _, ready⟩ |
      ⟨rfl, removed, _, stopped⟩
  · simp [failed, unable]
  · simp [entered, able]
  · simp [ready]
  · simp [stopped]

theorem ask_linked (protocol next : Protocol) (linked : Linked from_str protocol) (peer : Nat)
    (request : ByteArray) (stepped : protocolStep from_str protocol (.ask peer request) = some next) :
    Linked from_str next := by
  obtain ⟨net, asked, rfl⟩ := Option.map_eq_some_iff.mp stepped
  obtain ⟨owed, replies⟩ := ask_keeps protocol.net net peer request asked
  exact { reached := linked.reached
          exact := ask_exact protocol.net net linked.exact peer request asked
          owing := by simpa only [owed] using linked.owing
          account := by simpa only [owed] using linked.account
          replies := by simpa only [replies] using linked.replies }

theorem hear_linked (protocol next : Protocol) (linked : Linked from_str protocol) (entry : Asked)
    (stepped : protocolStep from_str protocol (.hear entry) = some next) :
    Linked from_str next := by
  obtain ⟨net, heard, rfl⟩ := Option.map_eq_some_iff.mp stepped
  obtain ⟨owed, replies⟩ := hear_keeps protocol.net net entry heard
  exact { reached := linked.reached
          exact := hear_exact protocol.net net linked.exact entry heard
          owing := by simpa only [owed] using linked.owing
          account := by simpa only [owed] using linked.account
          replies := fun other member => linked.replies other (replies other member) }

theorem after_idle (journal : Journal) (outcome : Outcome) (empty : journal.engine.new_msg = none) :
    journal.after from_str (.checkNSet outcome) = journal :=
  Option.some.inj (checkNSet_empty from_str journal outcome empty)

theorem after_reached (journal : Journal) (reached : Reached from_str journal) (act : EngineAct) :
    Reached from_str (journal.after from_str act) :=
  step_reached from_str journal act _ reached rfl

/-- A poll that takes nothing leaves the engine and its account alone. -/
theorem nothing_taken_linked (protocol : Protocol) (linked : Linked from_str protocol)
    (arrival : Arrival)
    (nothing : takes protocol.journal.engine arrival.polled = []) :
    Linked from_str
      { protocol with journal := protocol.journal.after from_str (.getMsg arrival.polled) } := by
  have engine : (getMsg from_str protocol.journal.engine arrival.polled).2 =
      protocol.journal.engine := by
    rcases getMsg_cases from_str protocol.journal.engine arrival.polled with
      ⟨same, _⟩ | ⟨request, polled, listening, _⟩
    · exact same
    · rw [polled, takes_listening protocol.journal.engine request listening] at nothing
      cases nothing
  refine { reached := after_reached from_str protocol.journal linked.reached (.getMsg arrival.polled)
           exact := linked.exact, owing := ?_, account := ?_, replies := linked.replies }
  · simpa only [Journal.after, engine] using linked.owing
  · simpa only [Journal.after, nothing, List.append_nil] using linked.account

theorem taken_linked (protocol : Protocol) (linked : Linked from_str protocol) (received : Bool)
    (entry : Asked) (net : Net Nat ByteArray)
    (something : takes protocol.journal.engine (.readable received entry.2) ≠ [])
    (taken : protocol.net.take entry = some net) :
    Linked from_str { protocol with
      journal := protocol.journal.after from_str (.getMsg (.readable received entry.2)), net } := by
  obtain ⟨free, owed, replies⟩ := take_owes protocol.net net entry taken
  rcases getMsg_cases from_str protocol.journal.engine (.readable received entry.2) with
    ⟨_, unready⟩ | ⟨request, polled, listening, result⟩
  · exact absurd (takes_nothing protocol.journal.engine _ unready) something
  obtain ⟨rfl, rfl⟩ : received = true ∧ entry.2 = request := by simpa using polled
  have account := linked.account
  simp only [free, Option.map_none, Option.toList_none, List.append_nil] at account
  refine { reached := after_reached from_str protocol.journal linked.reached
             (.getMsg (.readable true entry.2))
           exact := take_exact protocol.net net linked.exact entry taken
           owing := ?_, account := ?_, replies := by simpa only [replies] using linked.replies }
  · have replying := recv_replying protocol.journal.engine.socket listening
    rcases result with ⟨msg, _, result⟩ | ⟨failure, _, result⟩ <;>
      simp [Journal.after, result, replying, owed]
  · simp only [Journal.after, takes_listening protocol.journal.engine entry.2 listening,
      owed, Option.map_some, Option.toList_some, account]

theorem getMsg_linked (protocol next : Protocol) (linked : Linked from_str protocol)
    (arrival : Arrival) (stepped : protocolStep from_str protocol (.getMsg arrival) = some next) :
    Linked from_str next := by
  cases arrival with
  | failed =>
      cases stepped
      exact nothing_taken_linked from_str protocol linked .failed rfl
  | quiet =>
      cases stepped
      exact nothing_taken_linked from_str protocol linked .quiet rfl
  | readable received entry =>
      simp only [protocolStep, Option.ite_none_right_eq_some] at stepped
      obtain ⟨_, stepped⟩ := stepped
      split at stepped
      · next nothing =>
          cases stepped
          exact nothing_taken_linked from_str protocol linked (.readable received entry)
            (List.isEmpty_iff.mp nothing)
      · next something =>
          obtain ⟨net, taken, rfl⟩ := Option.map_eq_some_iff.mp stepped
          refine taken_linked from_str protocol linked received entry net ?_ taken
          simpa using something

theorem linked_inTurn (protocol : Protocol) (linked : Linked from_str protocol) (id : UInt16)
    (m : UInt64) (full : protocol.journal.engine.new_msg = some (id, m)) :
    InTurn protocol.journal.engine := by
  have replying := linked.reached.kept.owed (by simp [full])
  exact { sound := linked.reached.sound, balanced := linked.reached.balanced
          pending := by simp [replying, full] }

theorem checkNSet_linked (protocol next : Protocol) (linked : Linked from_str protocol)
    (outcome : Outcome)
    (stepped : protocolStep from_str protocol (.checkNSet outcome) = some next) :
    Linked from_str next := by
  have reached := after_reached from_str protocol.journal linked.reached (.checkNSet outcome)
  simp only [protocolStep] at stepped
  cases full : protocol.journal.engine.new_msg with
  | none =>
      rw [checkNSet_idle protocol.journal.engine outcome full, if_neg Bool.false_ne_true,
        after_idle from_str protocol.journal outcome full] at stepped
      cases stepped
      exact linked
  | some msg =>
      obtain ⟨id, m⟩ := msg
      have inTurn := linked_inTurn from_str protocol linked id m full
      have replied := replied_iff protocol.journal.engine outcome inTurn id m full
      rcases checkNSet_cases protocol.journal.engine outcome inTurn id m full with
        ⟨start, able, entered⟩ | ⟨unable, socket, _⟩
      · rw [if_pos (replied.mpr ⟨start, able⟩)] at stepped
        obtain ⟨net, answered, rfl⟩ := Option.map_eq_some_iff.mp stepped
        obtain ⟨entry, owed, free, replies⟩ := answer_moves protocol.net net answered
        have account := linked.account
        have replying := linked.owing.mpr (by simp [owed])
        refine { reached, exact := answer_exact protocol.net net linked.exact answered
                 owing := ?_, account := ?_, replies := fun other member => ?_ }
        · simp [Journal.after, entered, RepSocket.send, replying, able.2.2.2.2, free]
        · simp only [owed, Option.map_some, Option.toList_some] at account
          simp [Journal.after, account, owed, free]
        · rw [replies] at member
          rcases List.mem_append.mp member with before | last
          · exact List.mem_append_left _ (linked.replies other before)
          · exact List.mem_append_right _ (by simpa [owed] using last)
      · rw [if_neg fun sent => unable (replied.mp sent)] at stepped
        cases stepped
        exact { reached, exact := linked.exact
                owing := by simpa only [Journal.after, socket] using linked.owing
                account := linked.account, replies := linked.replies }

theorem step_linked (protocol : Protocol) (act : ProtocolAct) (next : Protocol)
    (linked : Linked from_str protocol)
    (stepped : protocolStep from_str protocol act = some next) : Linked from_str next := by
  cases act with
  | ask peer request => exact ask_linked from_str protocol next linked peer request stepped
  | getMsg arrival => exact getMsg_linked from_str protocol next linked arrival stepped
  | checkNSet outcome => exact checkNSet_linked from_str protocol next linked outcome stepped
  | hear entry => exact hear_linked from_str protocol next linked entry stepped

/-- Across every interleaving of peers, network and engine, and for every JSON reader. -/
theorem agreed_along (acts : List ProtocolAct) :
    Always (protocolStep from_str) (Agreed from_str) .start acts :=
  always_of_invariant (protocolStep from_str) (Linked from_str) (Agreed from_str)
    (step_linked from_str) (linked_agreed from_str) .start acts (start_linked from_str)

/-- What is asked is the text of a container client's message. -/
def ClientText (request : ByteArray) : Prop :=
  ∃ self : ContainerMsg, request = messageOf self.toJson

def ProtocolAct.FromClient : ProtocolAct → Prop
  | .ask _ request => ClientText request
  | _ => True

/-- No client is known, no ring was made, nobody was answered and at most one request was
ever looked at. -/
structure NobodyRegistered (protocol : Protocol) : Prop where
  registry : protocol.journal.engine.registry = .new
  handed : protocol.journal.handed = []
  answered : protocol.answered = []
  unheard : protocol.net.replies = []
  taken : protocol.journal.taken.length ≤ 1

structure Misread (protocol : Protocol) : Prop where
  linked : Linked from_str protocol
  registry : protocol.journal.engine.registry = .new
  handed : protocol.journal.handed = []
  empty : protocol.journal.engine.new_msg = none
  asked : ∀ entry ∈ protocol.net.asked, ClientText entry.2
  taken : ∀ request ∈ protocol.journal.taken, ClientText request

theorem clientText_rejected (strict : ∀ text, (from_str text).isSome → (Json.parse text).isSome)
    (request : ByteArray) (text : ClientText request) :
    decode from_str request = .error .json_error := by
  obtain ⟨self, rfl⟩ := text
  have rejected : from_str self.toJson = none := by
    by_contra accepted
    have parsed := strict self.toJson (Option.isSome_iff_ne_none.mpr accepted)
    rw [toJson_rejected] at parsed
    exact Bool.false_ne_true parsed
  simp [decode, fromUTF8_messageOf, rejected]

theorem misread_nobody (strict : ∀ text, (from_str text).isSome → (Json.parse text).isSome)
    (protocol : Protocol) (misread : Misread from_str protocol) : NobodyRegistered protocol := by
  have account := misread.linked.account
  -- whoever was answered had asked something that decodes
  have answered : protocol.answered = [] := by
    apply List.eq_nil_iff_forall_not_mem.mpr
    intro entry member
    obtain ⟨id, understood, _⟩ := (linked_agreed from_str protocol misread.linked).started entry member
    have text : ClientText entry.2 := by
      apply misread.taken
      rw [account]
      exact List.mem_append_left _ (List.mem_map_of_mem member)
    rw [clientText_rejected from_str strict entry.2 text] at understood
    cases understood
  refine { registry := misread.registry, handed := misread.handed, answered, unheard := ?_
           taken := ?_ }
  · apply List.eq_nil_iff_forall_not_mem.mpr
    intro entry member
    have before := misread.linked.replies entry member
    rw [answered] at before
    cases before
  · rw [account, answered]
    cases protocol.net.owed <;> simp

/-- A poll that finds nothing readable, or a client's text, brings the engine no message. -/
theorem getMsg_misread (journal : Journal) (arrival : Arrival)
    (strict : ∀ text, (from_str text).isSome → (Json.parse text).isSome)
    (text : ∀ received entry, arrival = .readable received entry → ClientText entry.2)
    (taken : ∀ request ∈ journal.taken, ClientText request) :
    (journal.after from_str (.getMsg arrival.polled)).engine.registry = journal.engine.registry ∧
      (journal.after from_str (.getMsg arrival.polled)).engine.new_msg = journal.engine.new_msg ∧
      ∀ request ∈ (journal.after from_str (.getMsg arrival.polled)).taken, ClientText request := by
  rcases getMsg_cases from_str journal.engine arrival.polled with
    ⟨same, unready⟩ | ⟨request, polled, listening, result⟩
  · have nothing := takes_nothing journal.engine arrival.polled unready
    simp only [Journal.after, same, nothing, List.append_nil, true_and]
    exact taken
  cases arrival with
  | failed | quiet => cases polled
  | readable received entry =>
      obtain ⟨rfl, rfl⟩ : received = true ∧ entry.2 = request := by
        simpa [Arrival.polled] using polled
      have mine := text true entry rfl
      have rejected := clientText_rejected from_str strict entry.2 mine
      rcases result with ⟨msg, understood, _⟩ | ⟨failure, _, result⟩
      · rw [rejected] at understood
        cases understood
      · simp only [Arrival.polled] at result
        simp only [Journal.after, Arrival.polled, result, true_and,
          takes_listening journal.engine entry.2 listening]
        intro request member
        rcases List.mem_append.mp member with before | last
        · exact taken request before
        · obtain rfl := List.mem_singleton.mp last
          exact mine

theorem step_misread (strict : ∀ text, (from_str text).isSome → (Json.parse text).isSome)
    (protocol : Protocol) (act : ProtocolAct) (next : Protocol) (misread : Misread from_str protocol)
    (client : act.FromClient) (stepped : protocolStep from_str protocol act = some next) :
    Misread from_str next := by
  have linked := step_linked from_str protocol act next misread.linked stepped
  cases act with
  | ask peer request =>
      obtain ⟨net, asked, rfl⟩ := Option.map_eq_some_iff.mp stepped
      refine { linked, registry := misread.registry, handed := misread.handed, empty := misread.empty
               asked := fun entry member => ?_, taken := misread.taken }
      rcases ask_arrives protocol.net net peer request asked entry member with before | rfl
      · exact misread.asked entry before
      · exact client
  | hear entry =>
      obtain ⟨net, heard, rfl⟩ := Option.map_eq_some_iff.mp stepped
      exact { linked, registry := misread.registry, handed := misread.handed, empty := misread.empty
              asked := fun other member => misread.asked other
                ((hear_asked protocol.net net entry heard) ▸ member)
              taken := misread.taken }
  | checkNSet outcome =>
      simp only [protocolStep, checkNSet_idle protocol.journal.engine outcome misread.empty,
        Bool.false_eq_true, ↓reduceIte, after_idle from_str protocol.journal outcome misread.empty,
        Option.some.injEq] at stepped
      subst stepped
      exact misread
  | getMsg arrival =>
      cases arrival with
      | failed =>
          cases stepped
          exact { linked, registry := misread.registry, handed := misread.handed
                  empty := misread.empty, asked := misread.asked
                  taken := by simpa [Journal.after, Arrival.polled, takes] using misread.taken }
      | quiet =>
          cases stepped
          exact { linked, registry := misread.registry, handed := misread.handed
                  empty := misread.empty, asked := misread.asked
                  taken := by simpa [Journal.after, Arrival.polled, takes] using misread.taken }
      | readable received entry =>
          simp only [protocolStep, Option.ite_none_right_eq_some] at stepped
          obtain ⟨arrived, stepped⟩ := stepped
          have mine : ClientText entry.2 :=
            misread.asked entry (by simpa [Net.arrived] using arrived)
          obtain ⟨registry, new_msg, taken⟩ := getMsg_misread from_str protocol.journal
            (.readable received entry) strict
            (fun _ other same => by cases same; exact mine) misread.taken
          split at stepped
          · cases stepped
            exact { linked, registry := registry.trans misread.registry, handed := misread.handed
                    empty := new_msg.trans misread.empty, asked := misread.asked, taken }
          · obtain ⟨net, moved, rfl⟩ := Option.map_eq_some_iff.mp stepped
            have left := (take_arrived protocol.net net entry moved).2
            exact { linked, registry := registry.trans misread.registry, handed := misread.handed
                    empty := new_msg.trans misread.empty, taken
                    asked := fun other member => misread.asked other (left other member) }

theorem start_misread : Misread from_str .start :=
  { linked := start_linked from_str, registry := rfl, handed := rfl, empty := rfl
    asked := fun _ member => nomatch member
    taken := fun _ member => nomatch member }

/-- However many container clients call what they can call, an engine that reads strict
JSON registers none of them. -/
theorem nobody_registered_along
    (strict : ∀ text, (from_str text).isSome → (Json.parse text).isSome)
    (acts : List ProtocolAct) (clients : ∀ act ∈ acts, act.FromClient) :
    Always (protocolStep from_str) NobodyRegistered .start acts :=
  always_of_admits (protocolStep from_str) (Misread from_str) NobodyRegistered
    (fun _ act => act.FromClient) (step_misread from_str strict) (misread_nobody from_str strict)
    .start acts (start_misread from_str)
    (admits_of_acts (protocolStep from_str) ProtocolAct.FromClient Protocol.start acts clients)

def firstText : ByteArray := messageOf (ContainerMsg.registration 1).toJson

def firstRegistration : List ProtocolAct :=
  [.ask 0 firstText, .getMsg (.readable true (0, firstText)), .checkNSet .granted]

theorem first_registration_unheard :
    Always (protocolStep Json.parse) NobodyRegistered .start firstRegistration :=
  nobody_registered_along Json.parse (fun _ => id) firstRegistration (by
    intro act member
    simp only [firstRegistration, List.mem_cons, List.not_mem_nil, or_false] at member
    rcases member with rfl | rfl | rfl
    · exact ⟨_, rfl⟩
    · trivial
    · trivial)

end L2Switch.RegistrationProtocol
