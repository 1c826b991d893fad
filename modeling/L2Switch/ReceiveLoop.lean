import L2Switch.BoundedLists
import L2Switch.ProcessPackets

/-!
`Engine::rx_main` of runtime/engine.rs one step at a time, each step being one test
or one turn of the innermost loop. The body has no await, so nothing but its end
stops it. What a port receives is given with the step.
-/
namespace L2Switch.ReceiveLoop
open PacketHeaders ProcessPackets

/-- The sending half of the oneshot channel: alive and silent, its message waiting,
or gone. -/
inductive Sender where
  | silent
  | sent
  | gone
  deriving DecidableEq

inductive Received where
  | Ok (message : Option Unit)
  | Canceled
  deriving DecidableEq

/-- A message is taken once; the sender is gone after it. -/
def Sender.tryRecv : Sender → Received × Sender
  | .silent => (.Ok none, .silent)
  | .sent => (.Ok (some ()), .gone)
  | .gone => (.Canceled, .gone)

/-- Where `rx_main` stands: before `try_recv`, before `is_full`, in the round over the
ports that are left, or past its end. -/
inductive RxPoint where
  | outer
  | inner
  | round (ports : List UInt16)
  | returned
  deriving DecidableEq

/-- `received` lists the batches taken from a NIC and `pushed` those that went into the
queue, oldest first. -/
structure Receiving where
  point : RxPoint
  sender : Sender
  mbufs : BoundedFifo PortIdMbuf
  received : List PortIdMbuf
  pushed : List PortIdMbuf

def Receiving.start (sender : Sender) (mbufs : BoundedFifo PortIdMbuf) : Receiving :=
  { point := .outer, sender, mbufs, received := mbufs.items, pushed := mbufs.items }

/-- A full queue refuses the batch, which is then only logged. -/
def Receiving.push (rx : Receiving) (batch : PortIdMbuf) : Receiving :=
  match rx.mbufs.push batch with
  | some mbufs =>
      { rx with mbufs, received := rx.received ++ [batch], pushed := rx.pushed ++ [batch] }
  | none => { rx with received := rx.received ++ [batch] }

def rxStep (ports : List UInt16) (rx : Receiving) (recvd : List RteMbuf) : Option Receiving :=
  match rx.point with
  | .outer =>
      match rx.sender.tryRecv with
      -- `Ok(None)`, nothing sent yet, matches `Ok(_)` as well
      | (.Ok _, sender) => some { rx with point := .returned, sender }
      | (.Canceled, sender) => some { rx with point := .inner, sender }
  | .inner =>
      if !rx.mbufs.isFull then some { rx with point := .round ports }
      else some { rx with point := .outer }
  -- fullness is looked at again only when every port has had its turn
  | .round [] => some { rx with point := .inner }
  | .round (port :: rest) =>
      some { rx.push { portid := port, buf := recvd } with point := .round rest }
  | .returned => none

theorem push_room (rx : Receiving) (batch : PortIdMbuf)
    (room : rx.mbufs.items.length < rx.mbufs.capacity) :
    ∃ mbufs, mbufs.items = rx.mbufs.items ++ [batch] ∧ mbufs.capacity = rx.mbufs.capacity ∧
      rx.push batch =
        { rx with mbufs, received := rx.received ++ [batch], pushed := rx.pushed ++ [batch] } := by
  obtain ⟨mbufs, pushed⟩ := Option.isSome_iff_exists.mp
    ((BoundedFifo.push_isSome_iff rx.mbufs batch).mpr room)
  obtain ⟨items, capacity⟩ := BoundedFifo.push_items rx.mbufs mbufs batch pushed
  exact ⟨mbufs, items, capacity, by simp only [Receiving.push, pushed]⟩

theorem push_full (rx : Receiving) (batch : PortIdMbuf)
    (full : ¬ rx.mbufs.items.length < rx.mbufs.capacity) :
    rx.push batch = { rx with received := rx.received ++ [batch] } := by
  rw [← BoundedFifo.push_isSome_iff rx.mbufs batch, Option.not_isSome_iff_eq_none] at full
  simp only [Receiving.push, full]

theorem push_sender (rx : Receiving) (batch : PortIdMbuf) : (rx.push batch).sender = rx.sender := by
  unfold Receiving.push
  split <;> rfl

theorem push_received (rx : Receiving) (batch : PortIdMbuf) :
    (rx.push batch).received = rx.received ++ [batch] := by
  unfold Receiving.push
  split <;> rfl

/-- All one step of `rx_main` can do. -/
theorem rxStep_cases (ports : List UInt16) (rx next : Receiving) (recvd : List RteMbuf)
    (stepped : rxStep ports rx recvd = some next) :
    (rx.point = .outer ∧ rx.sender ≠ .gone ∧
        next = { rx with point := .returned, sender := rx.sender.tryRecv.2 }) ∨
      (rx.point = .outer ∧ rx.sender = .gone ∧ next = { rx with point := .inner }) ∨
      (rx.point = .inner ∧
        next = { rx with point := if rx.mbufs.isFull then .outer else .round ports }) ∨
      (rx.point = .round [] ∧ next = { rx with point := .inner }) ∨
      ∃ port rest, rx.point = .round (port :: rest) ∧
        next = { rx.push { portid := port, buf := recvd } with point := .round rest } := by
  unfold rxStep at stepped
  cases point : rx.point with
  | outer =>
      cases sender : rx.sender with
      | silent | sent =>
          simp only [point, sender, Sender.tryRecv] at stepped
          cases stepped
          exact Or.inl ⟨rfl, by decide, rfl⟩
      | gone =>
          simp only [point, sender, Sender.tryRecv] at stepped
          cases stepped
          exact Or.inr (Or.inl ⟨rfl, rfl, rfl⟩)
  | inner =>
      cases full : rx.mbufs.isFull with
      | true =>
          simp only [point, full] at stepped
          cases stepped
          exact Or.inr (Or.inr (Or.inl ⟨rfl, rfl⟩))
      | false =>
          simp only [point, full] at stepped
          cases stepped
          exact Or.inr (Or.inr (Or.inl ⟨rfl, rfl⟩))
  | round ports =>
      cases ports with
      | nil =>
          simp only [point] at stepped
          cases stepped
          exact Or.inr (Or.inr (Or.inr (Or.inl ⟨rfl, rfl⟩)))
      | cons port rest =>
          simp only [point] at stepped
          cases stepped
          exact Or.inr (Or.inr (Or.inr (Or.inr ⟨port, rest, rfl, rfl⟩)))
  | returned => simp [point] at stepped

/-- Only a port that has its turn touches the queue and the accounts. -/
theorem rxStep_queue (ports : List UInt16) (rx next : Receiving) (recvd : List RteMbuf)
    (stepped : rxStep ports rx recvd = some next) :
    (next.mbufs = rx.mbufs ∧ next.received = rx.received ∧ next.pushed = rx.pushed) ∨
      ∃ port rest, rx.point = .round (port :: rest) ∧
        next = { rx.push { portid := port, buf := recvd } with point := .round rest } := by
  rcases rxStep_cases ports rx next recvd stepped with
    ⟨_, _, rfl⟩ | ⟨_, _, rfl⟩ | ⟨_, rfl⟩ | ⟨_, rfl⟩ | turn
  · exact Or.inl ⟨rfl, rfl, rfl⟩
  · exact Or.inl ⟨rfl, rfl, rfl⟩
  · exact Or.inl ⟨rfl, rfl, rfl⟩
  · exact Or.inl ⟨rfl, rfl, rfl⟩
  · exact Or.inr turn

/-- What `rx_main` adds to the queue is what it adds to its account. -/
theorem rxStep_account (ports : List UInt16) (rx next : Receiving) (recvd : List RteMbuf)
    (stepped : rxStep ports rx recvd = some next) :
    ∃ batches, next.mbufs.items = rx.mbufs.items ++ batches ∧ next.pushed = rx.pushed ++ batches := by
  rcases rxStep_queue ports rx next recvd stepped with ⟨mbufs, _, pushed⟩ | ⟨port, rest, _, rfl⟩
  · exact ⟨[], by simp [mbufs], by simp [pushed]⟩
  · by_cases room : rx.mbufs.items.length < rx.mbufs.capacity
    · obtain ⟨mbufs, items, _, pushed⟩ := push_room rx { portid := port, buf := recvd } room
      exact ⟨[_], by simpa [pushed] using items, by simp [pushed]⟩
    · have refused := push_full rx { portid := port, buf := recvd } room
      exact ⟨[], by simp [refused], by simp [refused]⟩

end L2Switch.ReceiveLoop
