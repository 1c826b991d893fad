import Mathlib.Data.List.Perm.Subperm
import L2Switch.Histories
import L2Switch.RingChannel

/-!
The ids that `ContainerClient::new` gives out, over the creations and drops of a process.
A creation is two steps, so that threads come between them: the id is taken under the
lock, and the socket is made, or not, later. A thread that panics under the lock
poisons it, and everyone after it gets the id 0.
-/
namespace L2Switch.ClientIds
open Histories

/-- What an overflow does. -/
inductive Build where
  | wrapping
  | panicking

/-- `CLIENT_ID` -/
structure IdLock where
  value : UInt16
  poisoned : Bool

/-- None if the thread panics. -/
def getDockerclientId (build : Build) (lock : IdLock) : Option UInt16 × IdLock :=
  if lock.poisoned then (some 0, lock)
  else match build with
    | .wrapping => (some lock.value, { lock with value := lock.value + 1 })
    | .panicking =>
        if lock.value.toNat + 1 < UInt16.size then
          (some lock.value, { lock with value := lock.value + 1 })
        else (none, { lock with poisoned := true })

/-- `starting` are the ids of the threads that have yet to make their socket. -/
structure Process where
  lock : IdLock
  starting : List UInt16
  live : List ContainerClient

def Process.new : Process := { lock := { value := 0, poisoned := false }, starting := [], live := [] }

inductive ClientAct where
  | takeId
  | makeSocket (thread : Nat) (made : Bool)
  | drop (client : Nat)

def clientStep (build : Build) (process : Process) : ClientAct → Option Process
  | .takeId =>
      match getDockerclientId build process.lock with
      | (some id, lock) => some { process with lock, starting := process.starting ++ [id] }
      | (none, lock) => some { process with lock }
  | .makeSocket thread made =>
      match process.starting[thread]? with
      | none => some process
      | some id => some
          { process with
            starting := process.starting.eraseIdx thread
            live := if made then process.live ++ [{ id, channel := none }] else process.live }
  | .drop client => some { process with live := process.live.eraseIdx client }

def Distinct (process : Process) : Prop := (process.live.map ContainerClient.id).Nodup

def isCall : ClientAct → Bool
  | .takeId => true
  | _ => false

/-- How often a run calls `get_dockerclient_id`. -/
def calls (acts : List ClientAct) : Nat := acts.countP isCall

/-- The lock after so many calls, the one that overflows being the last. -/
def lockAfter (build : Build) (asked : Nat) : IdLock :=
  match build with
  | .wrapping => { value := UInt16.ofNat asked, poisoned := false }
  | .panicking =>
      if asked < UInt16.size then { value := UInt16.ofNat asked, poisoned := false }
      else { value := 65535, poisoned := true }

/-- Up to the overflow the calls number their callers. -/
theorem call_numbers (build : Build) (asked : Nat) (early : asked < UInt16.size) :
    (getDockerclientId build (lockAfter build asked)).2 = lockAfter build (asked + 1) ∧
      ((getDockerclientId build (lockAfter build asked)).1 = some (UInt16.ofNat asked) ∨
        (getDockerclientId build (lockAfter build asked)).1 = none) := by
  have value : (UInt16.ofNat asked).toNat = asked := UInt16.toNat_ofNat_of_lt' early
  cases build with
  | wrapping => simp [getDockerclientId, lockAfter]
  | panicking =>
      by_cases last : asked + 1 < UInt16.size
      · simp [getDockerclientId, lockAfter, early, last, value]
      · have full : asked = 65535 := by
          simp only [UInt16.size] at early last
          omega
        subst full
        simp [getDockerclientId, lockAfter, UInt16.size]

/-- All ids that are in use. -/
def inUse (process : Process) : List UInt16 := process.live.map ContainerClient.id ++ process.starting

structure Issued (build : Build) (asked : Nat) (process : Process) : Prop where
  lock : process.lock = lockAfter build asked
  unique : (inUse process).Nodup
  numbered : ∀ id ∈ inUse process, id.toNat < asked

theorem issued_distinct (build : Build) (asked : Nat) (process : Process)
    (issued : Issued build asked process) : Distinct process :=
  (List.nodup_append.mp issued.unique).1

/-- Fewer ids in use, in whatever order, are still distinct. -/
theorem issued_fewer (build : Build) (asked : Nat) (process next : Process)
    (issued : Issued build asked process) (lock : next.lock = process.lock)
    (fewer : List.Subperm (inUse next) (inUse process)) : Issued build asked next := by
  obtain ⟨kept, perm, sub⟩ := fewer
  exact { lock := lock.trans issued.lock
          unique := perm.nodup_iff.mp (issued.unique.sublist sub)
          numbered := fun id member => issued.numbered id (sub.subset (perm.mem_iff.mpr member)) }

theorem takeId_step (build : Build) (process : Process) :
    clientStep build process .takeId = some { process with
      lock := (getDockerclientId build process.lock).2
      starting := process.starting ++ (getDockerclientId build process.lock).1.toList } := by
  simp only [clientStep]
  rcases getDockerclientId build process.lock with ⟨answer, after⟩
  cases answer <;> simp

theorem takeId_issued (build : Build) (asked : Nat) (process next : Process)
    (issued : Issued build asked process) (early : asked < UInt16.size)
    (stepped : clientStep build process .takeId = some next) : Issued build (asked + 1) next := by
  rw [takeId_step] at stepped
  cases stepped
  obtain ⟨lock, answer⟩ := call_numbers build asked early
  rw [← issued.lock] at lock answer
  rcases answer with given | panicked
  · have value : (UInt16.ofNat asked).toNat = asked := UInt16.toNat_ofNat_of_lt' early
    have fresh : UInt16.ofNat asked ∉ inUse process := by
      intro member
      have below := issued.numbered _ member
      rw [value] at below
      exact Nat.lt_irrefl asked below
    have extended : inUse { process with
        lock := (getDockerclientId build process.lock).2
        starting := process.starting ++ [UInt16.ofNat asked] } =
          inUse process ++ [UInt16.ofNat asked] := by
      simp [inUse]
    rw [given]
    refine { lock, unique := ?_, numbered := ?_ }
    · rw [Option.toList_some, extended, ← List.concat_eq_append]
      exact issued.unique.concat fresh
    · intro id member
      rw [Option.toList_some, extended, List.mem_append, List.mem_singleton] at member
      rcases member with old | rfl
      · exact Nat.lt_succ_of_lt (issued.numbered id old)
      · rw [value]
        exact Nat.lt_succ_self asked
  · rw [panicked, Option.toList_none, List.append_nil]
    exact { lock, unique := issued.unique
            numbered := fun id member => Nat.lt_succ_of_lt (issued.numbered id member) }

theorem makeSocket_issued (build : Build) (asked : Nat) (process next : Process)
    (issued : Issued build asked process) (thread : Nat) (made : Bool)
    (stepped : clientStep build process (.makeSocket thread made) = some next) :
    Issued build asked next := by
  simp only [clientStep] at stepped
  cases waiting : process.starting[thread]? with
  | none =>
      rw [waiting] at stepped
      cases stepped
      exact issued
  | some id =>
      rw [waiting] at stepped
      cases stepped
      obtain ⟨inside, rfl⟩ := List.getElem?_eq_some_iff.mp waiting
      refine issued_fewer build asked process _ issued rfl ?_
      cases made with
      | true =>
          -- the id goes from the thread to its client
          have moved := (List.getElem_cons_eraseIdx_perm inside).append_left
            (process.live.map ContainerClient.id)
          exact (List.Perm.subperm (by simpa [inUse] using moved))
      | false =>
          exact (List.Sublist.append_left (List.eraseIdx_sublist _ thread) _).subperm

theorem drop_issued (build : Build) (asked : Nat) (process next : Process)
    (issued : Issued build asked process) (client : Nat)
    (stepped : clientStep build process (.drop client) = some next) :
    Issued build asked next := by
  cases stepped
  refine issued_fewer build asked process _ issued rfl (List.Sublist.subperm ?_)
  exact ((List.eraseIdx_sublist process.live client).map _).append_right _

/-- As long as no call comes after the one that overflows, live clients are told apart. -/
theorem distinct_along (build : Build) (acts : List ClientAct) (asked : Nat) (process : Process)
    (issued : Issued build asked process) (early : asked + calls acts ≤ UInt16.size) :
    Always (clientStep build) Distinct process acts := by
  induction acts generalizing asked process with
  | nil => exact issued_distinct build asked process issued
  | cons act rest ih =>
      refine ⟨issued_distinct build asked process issued, fun next stepped => ?_⟩
      cases act with
      | takeId =>
          have counted : calls (.takeId :: rest) = calls rest + 1 := List.countP_cons_of_pos rfl
          exact ih (asked + 1) next
            (takeId_issued build asked process next issued (by omega) stepped) (by omega)
      | makeSocket thread made =>
          have counted : calls (.makeSocket thread made :: rest) = calls rest :=
            List.countP_cons_of_neg Bool.false_ne_true
          exact ih asked next (makeSocket_issued build asked process next issued thread made stepped)
            (counted ▸ early)
      | drop client =>
          have counted : calls (.drop client :: rest) = calls rest :=
            List.countP_cons_of_neg Bool.false_ne_true
          exact ih asked next (drop_issued build asked process next issued client stepped)
            (counted ▸ early)

def create : List ClientAct := [.takeId, .makeSocket 0 true]

/-- A second client is created and dropped. -/
def comeAndGo : List ClientAct := create ++ [.drop 1]

def reuse : List ClientAct := create ++ (List.replicate 65535 comeAndGo).flatten ++ create

def firstClient : ContainerClient := { id := 0, channel := none }

/-- The first client is the only one, after so many calls. -/
def alone (build : Build) (asked : Nat) : Process :=
  { lock := lockAfter build asked, starting := [], live := [firstClient] }

theorem first_created (build : Build) : run (clientStep build) .new create = some (alone build 1) := by
  cases build <;> rfl

theorem come_and_gone (build : Build) (asked : Nat) (early : asked < UInt16.size) :
    run (clientStep build) (alone build asked) comeAndGo = some (alone build (asked + 1)) := by
  obtain ⟨lock, answer⟩ := call_numbers build asked early
  simp only [comeAndGo, create, List.cons_append, List.nil_append, run_cons, takeId_step, alone]
  rcases answer with given | panicked
  · simp [given, lock, clientStep]
  · simp [panicked, lock, clientStep]

theorem many_gone (build : Build) (times asked : Nat) (early : asked + times ≤ UInt16.size) :
    run (clientStep build) (alone build asked) (List.replicate times comeAndGo).flatten =
      some (alone build (asked + times)) := by
  induction times generalizing asked with
  | zero => rfl
  | succ times ih =>
      rw [List.replicate_succ, List.flatten_cons, run_append,
        come_and_gone build asked (by omega), Option.bind_some, ih (asked + 1) (by omega)]
      rw [Nat.succ_add_eq_add_succ]

def twins (build : Build) : Process :=
  { lock := (getDockerclientId build (lockAfter build UInt16.size)).2, starting := []
    live := [firstClient, firstClient] }

/-- The client after the overflow has the first one's id. -/
theorem reuse_reaches (build : Build) : run (clientStep build) .new reuse = some (twins build) := by
  have overflowed := many_gone build 65535 1 (Nat.le_refl _)
  have again : run (clientStep build) (alone build UInt16.size) create = some (twins build) := by
    cases build <;> rfl
  rw [reuse, run_append, run_append, first_created, Option.bind_some, overflowed, Option.bind_some]
  exact again

theorem twins_indistinct (build : Build) : ¬ Distinct (twins build) := by
  simp [Distinct, twins, firstClient]

theorem calls_append (before after : List ClientAct) :
    calls (before ++ after) = calls before + calls after := List.countP_append

theorem calls_gone (times : Nat) : calls (List.replicate times comeAndGo).flatten = times := by
  induction times with
  | zero => rfl
  | succ times ih =>
      rw [List.replicate_succ, List.flatten_cons, calls_append, ih]
      exact Nat.add_comm 1 times

theorem calls_reuse : calls reuse = UInt16.size + 1 := by
  rw [reuse, calls_append, calls_append, calls_gone]
  rfl

theorem reuse_spoils (build : Build) : ¬ Always (clientStep build) Distinct .new reuse := by
  intro always
  have visited := always_iff_prefix (clientStep build) Distinct .new reuse
  exact twins_indistinct build (visited.mp always reuse [] (twins build)
    (List.append_nil _).symm (reuse_reaches build))

/-- Live clients have distinct ids in all runs with so many calls exactly when the calls
are not more than there are ids, whatever an overflow does. -/
theorem distinct_iff (build : Build) (bound : Nat) :
    (∀ acts, calls acts ≤ bound → Always (clientStep build) Distinct .new acts) ↔
      bound ≤ UInt16.size := by
  constructor
  · intro claimed
    by_contra many
    exact reuse_spoils build (claimed reuse (by rw [calls_reuse]; omega))
  · intro enough acts within
    have fresh : Issued build 0 .new :=
      { lock := by cases build <;> rfl
        unique := List.nodup_nil
        numbered := fun id member => absurd member (List.not_mem_nil) }
    exact distinct_along build acts 0 .new fresh (by omega)

/-- Either build gives the first client's id to another one while it lives. -/
theorem live_clients_share_an_id :
    ¬ Always (clientStep .wrapping) Distinct .new reuse ∧
      ¬ Always (clientStep .panicking) Distinct .new reuse :=
  ⟨reuse_spoils .wrapping, reuse_spoils .panicking⟩

end L2Switch.ClientIds
