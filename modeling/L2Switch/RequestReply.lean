import Mathlib.Data.List.Perm.Basic
import Mathlib.Data.List.Nodup
import Mathlib.Logic.Function.Basic

/-!
The lockstep of ZeroMQ's request and reply sockets, and a network of them. A reply socket
that has taken a request owes one reply before it can take the next; a request socket that
has sent one must receive the reply before it can send again. A call out of turn fails and
changes nothing; a call in turn still depends on the network, where requests and replies
may be on their way for as long as they like, and each remembers who asked what.
-/
namespace L2Switch.RequestReply

inductive Rep where
  | listening
  | replying
  deriving DecidableEq

/-- A reply socket with the requests it took and the replies it sent. -/
structure RepSocket where
  state : Rep
  taken : Nat
  answered : Nat

def RepSocket.new : RepSocket := { state := .listening, taken := 0, answered := 0 }

def RepSocket.recv (socket : RepSocket) (arrived : Bool) : Bool × RepSocket :=
  match socket.state with
  | .listening =>
      if arrived then (true, { socket with state := .replying, taken := socket.taken + 1 })
      else (false, socket)
  | .replying => (false, socket)

def RepSocket.send (socket : RepSocket) (delivered : Bool) : Bool × RepSocket :=
  match socket.state with
  | .replying =>
      if delivered then (true, { socket with state := .listening, answered := socket.answered + 1 })
      else (false, socket)
  | .listening => (false, socket)

/-- Every request but the one being worked on has been answered once. -/
def RepSocket.Balanced (socket : RepSocket) : Prop :=
  socket.taken = socket.answered + if socket.state = .replying then 1 else 0

theorem recv_balanced (socket : RepSocket) (balanced : socket.Balanced) (arrived : Bool) :
    (socket.recv arrived).2.Balanced := by
  unfold RepSocket.recv
  unfold RepSocket.Balanced at balanced
  cases state : socket.state <;> cases arrived <;> simp_all [RepSocket.Balanced]

theorem send_balanced (socket : RepSocket) (balanced : socket.Balanced) (delivered : Bool) :
    (socket.send delivered).2.Balanced := by
  unfold RepSocket.send
  unfold RepSocket.Balanced at balanced
  cases state : socket.state <;> cases delivered <;> simp_all [RepSocket.Balanced]

inductive Req where
  | idle
  | waiting
  deriving DecidableEq

def Req.send (socket : Req) (accepted : Bool) : Bool × Req :=
  match socket with
  | .idle => if accepted then (true, .waiting) else (false, .idle)
  | .waiting => (false, .waiting)

def Req.recv (socket : Req) (arrived : Bool) : Bool × Req :=
  match socket with
  | .idle => (false, .idle)
  | .waiting => if arrived then (true, .idle) else (false, .waiting)

/-! Many requesters around one replier, which takes any of the requests that have arrived. -/

variable {Peer Request : Type}

structure Net (Peer Request : Type) where
  waiting : Peer → Option Request
  asked : List (Peer × Request)
  owed : Option (Peer × Request)
  replies : List (Peer × Request)

def Net.quiet : Net Peer Request :=
  { waiting := fun _ => none, asked := [], owed := none, replies := [] }

/-- Every request that has been asked and whose reply has not been heard. -/
def Net.underway (net : Net Peer Request) : List (Peer × Request) :=
  net.asked ++ (net.owed.toList ++ net.replies)

/-- Each waiting peer has exactly one thing underway, its own request. -/
structure Net.Exact (net : Net Peer Request) : Prop where
  once : (net.underway.map Prod.fst).Nodup
  own : ∀ peer request, (peer, request) ∈ net.underway ↔ net.waiting peer = some request

theorem quiet_exact : (Net.quiet : Net Peer Request).Exact :=
  { once := List.nodup_nil, own := fun peer request => by simp [Net.quiet, Net.underway] }

/-- What is underway may change places as long as nobody starts or stops waiting. -/
theorem exact_of_perm (net next : Net Peer Request) (exact : net.Exact)
    (same : next.waiting = net.waiting) (moved : next.underway.Perm net.underway) : next.Exact :=
  { once := ((moved.map Prod.fst).nodup_iff).mpr exact.once
    own := fun peer request => by rw [moved.mem_iff, exact.own, same] }

def Net.answer (net : Net Peer Request) : Option (Net Peer Request) :=
  match net.owed with
  | some entry => some { net with owed := none, replies := net.replies ++ [entry] }
  | none => none

theorem answer_moves (net next : Net Peer Request) (stepped : net.answer = some next) :
    ∃ entry, net.owed = some entry ∧ next.owed = none ∧ next.replies = net.replies ++ [entry] := by
  unfold Net.answer at stepped
  split at stepped
  · next entry owes =>
      cases stepped
      exact ⟨entry, owes, rfl, rfl⟩
  · cases stepped

theorem answer_exact (net next : Net Peer Request) (exact : net.Exact)
    (stepped : net.answer = some next) : next.Exact := by
  unfold Net.answer at stepped
  split at stepped
  · next entry owes =>
      cases stepped
      refine exact_of_perm net _ exact rfl ?_
      have behind : (net.replies ++ [entry]).Perm (entry :: net.replies) :=
        List.perm_append_singleton entry net.replies
      simpa [Net.underway, owes] using behind.append_left net.asked
  · cases stepped

variable [DecidableEq Peer]

def Net.ask (net : Net Peer Request) (peer : Peer) (request : Request) :
    Option (Net Peer Request) :=
  match net.waiting peer with
  | some _ => none
  | none =>
      some { net with
        waiting := Function.update net.waiting peer (some request)
        asked := net.asked ++ [(peer, request)] }

theorem ask_keeps (net next : Net Peer Request) (peer : Peer) (request : Request)
    (stepped : net.ask peer request = some next) :
    next.owed = net.owed ∧ next.replies = net.replies := by
  unfold Net.ask at stepped
  split at stepped
  · cases stepped
  · cases stepped
    exact ⟨rfl, rfl⟩

theorem ask_arrives (net next : Net Peer Request) (peer : Peer) (request : Request)
    (stepped : net.ask peer request = some next) (entry : Peer × Request)
    (member : entry ∈ next.asked) : entry ∈ net.asked ∨ entry = (peer, request) := by
  unfold Net.ask at stepped
  split at stepped
  · cases stepped
  · cases stepped
    simpa using member

theorem ask_exact (net next : Net Peer Request) (exact : net.Exact) (peer : Peer)
    (request : Request) (stepped : net.ask peer request = some next) : next.Exact := by
  unfold Net.ask at stepped
  split at stepped
  · cases stepped
  · next idle =>
      cases stepped
      have absent : peer ∉ net.underway.map Prod.fst := by
        intro member
        obtain ⟨⟨_, other⟩, inside, rfl⟩ := List.mem_map.mp member
        have waits := (exact.own _ other).mp inside
        rw [idle] at waits
        cases waits
      have grown : (net.asked ++ [(peer, request)] ++ (net.owed.toList ++ net.replies)).Perm
          ((peer, request) :: net.underway) := by
        rw [List.append_assoc]
        exact List.perm_middle
      refine { once := ?_, own := fun other asked => ?_ }
      · apply ((grown.map Prod.fst).nodup_iff).mpr
        exact List.nodup_cons.mpr ⟨absent, exact.once⟩
      · have before := exact.own other asked
        change _ ∈ net.asked ++ [(peer, request)] ++ (net.owed.toList ++ net.replies) ↔
          Function.update net.waiting peer (some request) other = some asked
        rw [grown.mem_iff, List.mem_cons, before]
        by_cases same : other = peer
        · subst same
          simp [idle, eq_comm]
        · simp [same]

variable [DecidableEq Request]

def Net.arrived (net : Net Peer Request) (entry : Peer × Request) : Bool := entry ∈ net.asked

/-- The replier takes one of the requests that have arrived. -/
def Net.take (net : Net Peer Request) (entry : Peer × Request) : Option (Net Peer Request) :=
  if net.owed = none ∧ net.arrived entry then
    some { net with asked := net.asked.erase entry, owed := some entry }
  else none

theorem take_owes (net next : Net Peer Request) (entry : Peer × Request)
    (stepped : net.take entry = some next) :
    net.owed = none ∧ next.owed = some entry ∧ next.replies = net.replies := by
  simp only [Net.take, Option.ite_none_right_eq_some, Option.some.injEq] at stepped
  obtain ⟨⟨free, _⟩, rfl⟩ := stepped
  exact ⟨free, rfl, rfl⟩

theorem take_arrived (net next : Net Peer Request) (entry : Peer × Request)
    (stepped : net.take entry = some next) :
    entry ∈ net.asked ∧ ∀ other ∈ next.asked, other ∈ net.asked := by
  simp only [Net.take, Option.ite_none_right_eq_some, Option.some.injEq] at stepped
  obtain ⟨⟨_, arrived⟩, rfl⟩ := stepped
  exact ⟨by simpa [Net.arrived] using arrived, fun other member => List.mem_of_mem_erase member⟩

theorem take_exact (net next : Net Peer Request) (exact : net.Exact) (entry : Peer × Request)
    (stepped : net.take entry = some next) : next.Exact := by
  simp only [Net.take, Option.ite_none_right_eq_some, Option.some.injEq] at stepped
  obtain ⟨⟨free, arrived⟩, rfl⟩ := stepped
  simp only [Net.arrived, decide_eq_true_eq] at arrived
  refine exact_of_perm net _ exact rfl ?_
  have taken := (List.perm_cons_erase arrived).symm.append_right net.replies
  simpa [Net.underway, free] using List.perm_middle.trans taken

def Net.hear (net : Net Peer Request) (entry : Peer × Request) : Option (Net Peer Request) :=
  if entry ∈ net.replies then
    some { net with
      waiting := Function.update net.waiting entry.1 none
      replies := net.replies.erase entry }
  else none

theorem hear_keeps (net next : Net Peer Request) (entry : Peer × Request)
    (stepped : net.hear entry = some next) :
    next.owed = net.owed ∧ ∀ other ∈ next.replies, other ∈ net.replies := by
  simp only [Net.hear, Option.ite_none_right_eq_some, Option.some.injEq] at stepped
  obtain ⟨_, rfl⟩ := stepped
  exact ⟨rfl, fun other member => List.mem_of_mem_erase member⟩

theorem hear_asked (net next : Net Peer Request) (entry : Peer × Request)
    (stepped : net.hear entry = some next) : next.asked = net.asked := by
  simp only [Net.hear, Option.ite_none_right_eq_some, Option.some.injEq] at stepped
  obtain ⟨_, rfl⟩ := stepped
  rfl

theorem hear_exact (net next : Net Peer Request) (exact : net.Exact) (entry : Peer × Request)
    (stepped : net.hear entry = some next) : next.Exact := by
  simp only [Net.hear, Option.ite_none_right_eq_some, Option.some.injEq] at stepped
  obtain ⟨arrived, rfl⟩ := stepped
  have shrunk : net.underway.Perm
      (entry :: (net.asked ++ (net.owed.toList ++ net.replies.erase entry))) := by
    have heard := (List.perm_cons_erase arrived).append_left (net.asked ++ net.owed.toList)
    simpa [Net.underway] using heard.trans List.perm_middle
  have once := ((shrunk.map Prod.fst).nodup_iff).mp exact.once
  obtain ⟨gone, onceRest⟩ := List.nodup_cons.mp once
  refine { once := onceRest, own := fun other asked => ?_ }
  have before := (exact.own other asked).symm.trans shrunk.mem_iff
  change _ ∈ net.asked ++ (net.owed.toList ++ net.replies.erase entry) ↔
    Function.update net.waiting entry.1 none other = some asked
  by_cases same : other = entry.1
  · subst same
    -- whoever has heard its reply has nothing else underway
    have absent : (entry.1, asked) ∉ net.asked ++ (net.owed.toList ++ net.replies.erase entry) :=
      fun member => gone (List.mem_map.mpr ⟨_, member, rfl⟩)
    simp only [Function.update_self, reduceCtorEq, iff_false]
    exact absent
  · have different : (other, asked) ≠ entry := fun alike => same (congrArg Prod.fst alike)
    rw [Function.update_of_ne same, before, List.mem_cons]
    simp [different]

end L2Switch.RequestReply
