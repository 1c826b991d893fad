import Mathlib.Data.List.Dedup
import L2Switch.Histories
import L2Switch.RingChannel

/-!
Where the buffers go that are given to `EngineRingMap::send`. Every `Mbuf` the engine
makes is an `Original`, from `new` or `from_ptr`, so a live one is known by its pointer.
A run is any sequence of allocations and sends over one ring map; the rings may hold
anything at its start.
-/
namespace L2Switch.SendAccount
open Histories DpdkRings RingChannel

/-- What `send` drops besides what it returns: the packet of an unknown client on the way
out. `into_ptr` has forgotten the packet of a known one before the ring answers. -/
def sendDrops (ring_map : RingMap) (key : UInt16) (pkt : Mbuf) : List MbufPtr :=
  match ring_map.lookup key with
  | some _ => []
  | none => pkt.drop

inductive SendAct where
  | alloc (raw : MbufPtr)
  | send (key : UInt16) (raw : MbufPtr)

/-- `live` are the buffers of live `Mbuf`s, `taken` and `returned` those that left and
came back to a mempool, `failed` those whose send returned Err, and `queued` what each
ring holds if every send that returned Ok is believed. -/
structure Account where
  rings : Rings
  live : List MbufPtr
  taken : List MbufPtr
  returned : List MbufPtr
  failed : List MbufPtr
  queued : RingPtr → List MbufPtr

/-- Every rte_ring the ring map wraps, once. -/
def wrappedRings (ring_map : RingMap) : List RingPtr :=
  (ring_map.entries.flatMap fun entry => entry.2.raws).dedup

def heldIn (ring_map : RingMap) (rings : Rings) : List MbufPtr :=
  (wrappedRings ring_map).flatMap fun ring => (rings.fifo ring).items

def Account.start (ring_map : RingMap) (rings : Rings) (live : List MbufPtr) : Account :=
  { rings, live, taken := heldIn ring_map rings ++ live, returned := [], failed := []
    queued := fun ring => (rings.fifo ring).items }

def txRing (ring_map : RingMap) (key : UInt16) : Option RingPtr :=
  (ring_map.lookup key).map fun channel => channel.tx_q.raw

def believe (queued : RingPtr → List MbufPtr) (ring : Option RingPtr) (raw : MbufPtr) :
    RingPtr → List MbufPtr :=
  match ring with
  | some ring => Function.update queued ring (queued ring ++ [raw])
  | none => queued

/-- Only a live `Mbuf` can be moved into `send`. -/
def sendStep (ring_map : RingMap) (account : Account) : SendAct → Option Account
  | .alloc raw => some { account with live := account.live ++ [raw], taken := account.taken ++ [raw] }
  | .send key raw =>
      if raw ∈ account.live then
        let pkt : Mbuf := { inner := .Original raw }
        let returned := account.returned ++ sendDrops ring_map key pkt
        match engineSend account.rings ring_map key pkt with
        | (.ok _, rings) =>
            some { account with
              rings, returned, live := account.live.erase raw
              queued := believe account.queued (txRing ring_map key) raw }
        | (.error _, rings) =>
            some { account with
              rings, returned, live := account.live.erase raw, failed := account.failed ++ [raw] }
      else none

/-- No buffer leaks: a failed send's buffer is back in its mempool, once, a successful
one's is in the client's ring, and what was taken and not returned is in a ring or live. -/
structure Accounts (ring_map : RingMap) (account : Account) : Prop where
  answered : account.returned = account.failed
  queued : ∀ ring, (account.rings.fifo ring).items = account.queued ring
  balance : account.taken.Perm
    (account.returned ++ (heldIn ring_map account.rings ++ account.live))

/-- A client that is known has room in its ring. -/
def HasRoom (ring_map : RingMap) (account : Account) : SendAct → Prop
  | .alloc _ => True
  | .send key _ => ∀ channel, ring_map.lookup key = some channel →
      (account.rings.fifo channel.tx_q.raw).items.length <
        (account.rings.fifo channel.tx_q.raw).capacity

theorem wrapped_nodup (ring_map : RingMap) : (wrappedRings ring_map).Nodup :=
  List.nodup_dedup _

theorem tx_wrappedRings (ring_map : RingMap) (key : UInt16) (channel : Channel)
    (known : ring_map.lookup key = some channel) : channel.tx_q.raw ∈ wrappedRings ring_map := by
  apply List.mem_dedup.mpr
  apply List.mem_flatMap.mpr
  exact ⟨⟨key, channel⟩, AList.mem_lookup_iff.mp known, tx_wrapped channel⟩

/-- One more item in one of the rings is one more item held. -/
theorem flatMap_update_perm {Key Item : Type} [DecidableEq Key] (keys : List Key)
    (once : keys.Nodup) (contents : Key → List Item) (key : Key) (member : key ∈ keys) (item : Item) :
    (keys.flatMap (Function.update contents key (contents key ++ [item]))).Perm
      (item :: keys.flatMap contents) := by
  induction keys with
  | nil => cases member
  | cons first rest ih =>
      obtain ⟨absent, onceRest⟩ := List.nodup_cons.mp once
      simp only [List.flatMap_cons]
      by_cases here : key = first
      · subst here
        have others : rest.flatMap (Function.update contents key (contents key ++ [item])) =
            rest.flatMap contents := by
          apply List.flatMap_congr
          intro other inside
          have different : other ≠ key := fun same => absent (same ▸ inside)
          rw [Function.update_of_ne different]
        rw [others, Function.update_self, List.append_assoc]
        exact List.perm_middle
      · have inside : key ∈ rest := (List.mem_cons.mp member).resolve_left here
        rw [Function.update_of_ne (Ne.symm here)]
        exact ((ih onceRest inside).append_left (contents first)).trans List.perm_middle

theorem held_push (ring_map : RingMap) (rings : Rings) (key : UInt16) (channel : Channel)
    (known : ring_map.lookup key = some channel) (fifo : BoundedFifo MbufPtr) (raw : MbufPtr)
    (pushed : fifo.items = (rings.fifo channel.tx_q.raw).items ++ [raw]) (log : List RingCall) :
    (heldIn ring_map { rings with
        fifo := Function.update rings.fifo channel.tx_q.raw fifo, log }).Perm
      (raw :: heldIn ring_map rings) := by
  have contents : (fun ring => (Function.update rings.fifo channel.tx_q.raw fifo ring).items) =
      Function.update (fun ring => (rings.fifo ring).items) channel.tx_q.raw
        ((rings.fifo channel.tx_q.raw).items ++ [raw]) := by
    funext ring
    by_cases same : ring = channel.tx_q.raw
    · subst same
      simp [pushed]
    · simp [same]
  simp only [heldIn, contents]
  exact flatMap_update_perm _ (wrapped_nodup ring_map) _ _ (tx_wrappedRings ring_map key channel known) raw

/-- All a send of a live buffer can do. -/
theorem send_cases (ring_map : RingMap) (account next : Account) (key : UInt16) (raw : MbufPtr)
    (stepped : sendStep ring_map account (.send key raw) = some next) :
    raw ∈ account.live ∧
      ((ring_map.lookup key = none ∧
          next = { account with
            live := account.live.erase raw, returned := account.returned ++ [raw]
            failed := account.failed ++ [raw] }) ∨
        ∃ channel, ring_map.lookup key = some channel ∧
          (((account.rings.fifo channel.tx_q.raw).push raw = none ∧
              next = { account with
                rings := { account.rings with log := .enqueue channel.tx_q.raw :: account.rings.log }
                live := account.live.erase raw, failed := account.failed ++ [raw] }) ∨
            ∃ fifo, (account.rings.fifo channel.tx_q.raw).push raw = some fifo ∧
              next = { account with
                rings := { account.rings with
                  fifo := Function.update account.rings.fifo channel.tx_q.raw fifo
                  log := .enqueue channel.tx_q.raw :: account.rings.log }
                live := account.live.erase raw
                queued := Function.update account.queued channel.tx_q.raw
                  (account.queued channel.tx_q.raw ++ [raw]) })) := by
  simp only [sendStep, Option.ite_none_right_eq_some] at stepped
  obtain ⟨alive, stepped⟩ := stepped
  refine ⟨alive, ?_⟩
  cases known : ring_map.lookup key with
  | none =>
      simp only [engineSend, sendDrops, known, Mbuf.drop] at stepped
      cases stepped
      exact Or.inl ⟨rfl, rfl⟩
  | some channel =>
      refine Or.inr ⟨channel, rfl, ?_⟩
      cases pushed : (account.rings.fifo channel.tx_q.raw).push raw with
      | none =>
          have refused := enqueue_full account.rings channel.tx_q { inner := .Original raw } pushed
          simp only [engineSend, sendDrops, known, Channel.send, refused, List.append_nil] at stepped
          cases stepped
          exact Or.inl ⟨rfl, rfl⟩
      | some fifo =>
          have taken := enqueue_room account.rings channel.tx_q { inner := .Original raw } fifo pushed
          simp only [engineSend, sendDrops, known, Channel.send, taken, List.append_nil, txRing,
            Option.map_some, believe] at stepped
          cases stepped
          exact Or.inr ⟨fifo, rfl, rfl⟩

theorem held_with_live (held live : List MbufPtr) (raw : MbufPtr) (alive : raw ∈ live) :
    (held ++ live).Perm (raw :: (held ++ live.erase raw)) :=
  ((List.perm_cons_erase alive).append_left held).trans List.perm_middle

theorem start_accounts (ring_map : RingMap) (rings : Rings) (live : List MbufPtr) :
    Accounts ring_map (.start ring_map rings live) :=
  { answered := rfl, queued := fun _ => rfl, balance := List.Perm.refl _ }

theorem step_accounts (ring_map : RingMap) (account : Account) (act : SendAct) (next : Account)
    (before : Accounts ring_map account) (room : HasRoom ring_map account act)
    (stepped : sendStep ring_map account act = some next) : Accounts ring_map next := by
  cases act with
  | alloc raw =>
      cases stepped
      refine { answered := before.answered, queued := before.queued, balance := ?_ }
      simpa only [List.append_assoc] using before.balance.append_right [raw]
  | send key raw =>
      obtain ⟨alive, unknown | known⟩ := send_cases ring_map account next key raw stepped
      · obtain ⟨_, rfl⟩ := unknown
        constructor
        · simp only [before.answered]
        · exact before.queued
        · have moved := (held_with_live (heldIn ring_map account.rings) account.live raw alive).append_left
            account.returned
          simpa only [List.append_assoc, List.singleton_append] using before.balance.trans moved
      obtain ⟨channel, found, full | pushed⟩ := known
      -- the client's ring has room, so it does not refuse
      · have accepted := (BoundedFifo.push_isSome_iff _ raw).mpr (room channel found)
        simp [full.1] at accepted
      · obtain ⟨fifo, accepted, rfl⟩ := pushed
        have items := (BoundedFifo.push_items _ _ _ accepted).1
        constructor
        · exact before.answered
        · intro ring
          by_cases same : ring = channel.tx_q.raw
          · subst same
            simp [items, before.queued]
          · simpa [same] using before.queued ring
        · have moved := held_with_live (heldIn ring_map account.rings) account.live raw alive
          have stored := held_push ring_map account.rings key channel found fifo raw items
            (.enqueue channel.tx_q.raw :: account.rings.log)
          apply before.balance.trans
          apply List.Perm.append_left account.returned
          exact moved.trans (stored.append_right (account.live.erase raw)).symm

/-- A ring that is full refuses the buffer, which is neither in it nor returned. -/
theorem full_ring_leaks (ring_map : RingMap) (account : Account) (act : SendAct) (next : Account)
    (before : Accounts ring_map account) (full : ¬ HasRoom ring_map account act)
    (stepped : sendStep ring_map account act = some next) : ¬ Accounts ring_map next := by
  intro after
  cases act with
  | alloc raw => exact full trivial
  | send key raw =>
      obtain ⟨_, unknown | known⟩ := send_cases ring_map account next key raw stepped
      · refine full fun channel found => ?_
        simp [unknown.1] at found
      obtain ⟨channel, found, refused | pushed⟩ := known
      · obtain ⟨_, rfl⟩ := refused
        have answered := after.answered
        simp [before.answered] at answered
      · obtain ⟨fifo, accepted, _⟩ := pushed
        refine full fun other same => ?_
        obtain rfl : channel = other := by simpa [found] using same
        exact (BoundedFifo.push_isSome_iff _ raw).mp (by simp [accepted])

/-- No buffer leaks, at any point of a run of allocations and sends, exactly when no
packet is sent to a known client whose ring is full. -/
theorem sends_account_iff (ring_map : RingMap) (rings : Rings) (live : List MbufPtr)
    (acts : List SendAct)
    (executed : (run (sendStep ring_map) (.start ring_map rings live) acts).isSome) :
    Always (sendStep ring_map) (Accounts ring_map) (.start ring_map rings live) acts ↔
      Admits (sendStep ring_map) (HasRoom ring_map) (.start ring_map rings live) acts := by
  apply always_iff_admits (sendStep ring_map) (Accounts ring_map) (Accounts ring_map) (HasRoom ring_map)
  · exact step_accounts ring_map
  · exact fun _ accounts => accounts
  · exact full_ring_leaks ring_map
  · exact start_accounts ring_map rings live
  · exact executed

def oneClient : RingMap :=
  AList.singleton 0
    { tx_q := { client_id := 0, rtype := .TX, raw := 2 }, rx_q := { client_id := 0, rtype := .RX, raw := 1 } }

/-- The tx ring of the client holds all it can. -/
def overloaded : Rings :=
  { Rings.none with
    fifo := Function.update Rings.none.fifo 2 { capacity := 31, items := List.range 31, fits := by simp } }

theorem unknown_client_accounts_iff :
    Always (sendStep oneClient) (Accounts oneClient) (.start oneClient overloaded [])
        [.alloc 40, .send 1 40] ↔
      Admits (sendStep oneClient) (HasRoom oneClient) (.start oneClient overloaded [])
        [.alloc 40, .send 1 40] :=
  sends_account_iff oneClient overloaded [] _ rfl

/-- A full ring: the send returns Err and nobody has the buffer any more. -/
theorem refused_buffer_leaks :
    ¬ ∀ (ring_map : RingMap) (rings : Rings) (live : List MbufPtr) (acts : List SendAct)
        (reached : Account),
      run (sendStep ring_map) (.start ring_map rings live) acts = some reached →
        Accounts ring_map reached := by
  intro claimed
  have accounts := claimed oneClient overloaded [40] [.send 0 40] _ rfl
  have answered := accounts.answered
  revert answered
  decide

end L2Switch.SendAccount
