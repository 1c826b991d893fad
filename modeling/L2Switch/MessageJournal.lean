import L2Switch.EngineMessages

/-!
The engine together with what went through its one-place cell: the requests `get_msg`
took off the socket and the pairs that `set_client_status` was called with, oldest first.
Nothing in the cell keeps a second message out; the reply that is still owed does.
-/
namespace L2Switch.MessageJournal
open Histories EngineMessages RequestReply

structure Journal where
  engine : Engine
  taken : List ByteArray
  handed : List (UInt16 × UInt64)

def Journal.new : Journal := { engine := .new, taken := [], handed := [] }

variable (from_str : String → Option Json.Value)

/-- The request that one call of `get_msg` takes off the socket, if any. -/
def takes (engine : Engine) : Polled → List ByteArray
  | .readable received request =>
      match engine.socket.state with
      | .listening => if (engine.socket.recv received).1 then [request] else []
      | .replying => []
  | _ => []

def Journal.after (journal : Journal) : EngineAct → Journal
  | .getMsg polled =>
      { engine := (getMsg from_str journal.engine polled).2
        taken := journal.taken ++ takes journal.engine polled
        handed := journal.handed }
  | .checkNSet outcome =>
      let called := checkNSetClientStatus journal.engine outcome
      { engine := called.engine, taken := journal.taken
        handed := journal.handed ++ called.handed }

def journalStep (journal : Journal) (act : EngineAct) : Option Journal :=
  some (journal.after from_str act)

/-- The pairs `get_msg` decoded from the requests, one for each that decodes. -/
def decoded (requests : List ByteArray) : List (UInt16 × UInt64) :=
  requests.filterMap fun request => (decode from_str request).toOption

/-- What was handed on and what is pending is what was decoded, in order. -/
structure NothingLost (journal : Journal) : Prop where
  passed : journal.handed ++ journal.engine.new_msg.toList = decoded from_str journal.taken
  counted : journal.taken.length = journal.engine.socket.taken

/-- While the cell is full the socket owes a reply. -/
structure Kept (journal : Journal) : Prop where
  whole : NothingLost from_str journal
  owed : journal.engine.new_msg ≠ none → journal.engine.socket.state = .replying

theorem takes_listening (engine : Engine) (request : ByteArray)
    (listening : engine.socket.state = .listening) :
    takes engine (.readable true request) = [request] := by
  simp [takes, listening, RepSocket.recv]

theorem takes_nothing (engine : Engine) (polled : Polled)
    (unready : ∀ request, polled = .readable true request → engine.socket.state = .replying) :
    takes engine polled = [] := by
  cases polled with
  | failed => rfl
  | quiet => rfl
  | readable received request =>
      cases received with
      | true => simp [takes, unready request rfl]
      | false => cases state : engine.socket.state <;> simp [takes, state, RepSocket.recv]

theorem recv_taken (socket : RepSocket) (listening : socket.state = .listening) :
    (socket.recv true).2.taken = socket.taken + 1 := by
  simp [RepSocket.recv, listening]

theorem send_taken (socket : RepSocket) (delivered : Bool) :
    (socket.send delivered).2.taken = socket.taken := by
  cases state : socket.state <;> cases delivered <;> simp [RepSocket.send, state]

theorem new_kept : Kept from_str .new :=
  { whole := { passed := rfl, counted := rfl }, owed := fun full => absurd rfl full }

theorem getMsg_kept (journal : Journal) (polled : Polled) (kept : Kept from_str journal)
    (next : Journal) (stepped : journalStep from_str journal (.getMsg polled) = some next) :
    Kept from_str next := by
  cases stepped
  rcases getMsg_cases from_str journal.engine polled with
    ⟨same, unready⟩ | ⟨request, rfl, listening, result⟩
  · simpa only [Journal.after, same, takes_nothing journal.engine polled unready, List.append_nil]
      using kept
  · -- the socket was listening, so the cell was empty
    have empty : journal.engine.new_msg = none := by
      by_contra full
      rw [kept.owed full] at listening
      cases listening
    have counted := kept.whole.counted
    have passed := kept.whole.passed
    rw [empty, Option.toList_none, List.append_nil] at passed
    rcases result with ⟨msg, understood, taken⟩ | ⟨failure, refused, taken⟩
    · rw [Journal.after, taken, takes_listening journal.engine request listening]
      exact { whole := { passed := by simp [decoded, passed, understood, Except.toOption]
                         counted := by simp [counted, recv_taken journal.engine.socket listening] }
              owed := fun _ => recv_replying journal.engine.socket listening }
    · rw [Journal.after, taken, takes_listening journal.engine request listening]
      exact { whole := { passed := by simp [decoded, passed, refused, empty, Except.toOption]
                         counted := by simp [counted, recv_taken journal.engine.socket listening] }
              owed := fun _ => recv_replying journal.engine.socket listening }

/-- The pending message is handed on, once, and the cell is empty after it. -/
theorem checkNSet_empties (engine : Engine) (outcome : EngineRegistry.Outcome) :
    (checkNSetClientStatus engine outcome).handed = engine.new_msg.toList ∧
      (checkNSetClientStatus engine outcome).engine.new_msg = none ∧
      (checkNSetClientStatus engine outcome).engine.socket.taken = engine.socket.taken := by
  cases pending : engine.new_msg with
  | none => simp [checkNSet_idle engine outcome pending, pending]
  | some msg =>
      rw [checkNSet_handles engine outcome msg.1 msg.2 pending]
      refine ⟨rfl, rfl, ?_⟩
      simp only [Engine.setClientStatus]
      split
      · exact send_taken engine.socket outcome.replied
      · rfl

theorem checkNSet_kept (journal : Journal) (outcome : EngineRegistry.Outcome)
    (kept : Kept from_str journal) (next : Journal)
    (stepped : journalStep from_str journal (.checkNSet outcome) = some next) :
    Kept from_str next := by
  cases stepped
  obtain ⟨handed, emptied, counted⟩ := checkNSet_empties journal.engine outcome
  exact { whole := { passed := by simp [Journal.after, handed, emptied, kept.whole.passed]
                     counted := by
                       simp only [Journal.after, counted]
                       exact kept.whole.counted }
          owed := fun full => absurd emptied full }

/-- Whatever arrives, and however the two calls take turns, no accepted message is
overwritten and none is handed on twice. -/
theorem nothing_lost_along (acts : List EngineAct) :
    Always (journalStep from_str) (NothingLost from_str) .new acts := by
  refine always_of_invariant (journalStep from_str) (Kept from_str) (NothingLost from_str) ?_
    (fun _ kept => kept.whole) .new acts (new_kept from_str)
  intro journal act next kept stepped
  cases act with
  | getMsg polled => exact getMsg_kept from_str journal polled kept next stepped
  | checkNSet outcome => exact checkNSet_kept from_str journal outcome kept next stepped

end L2Switch.MessageJournal
