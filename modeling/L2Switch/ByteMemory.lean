import Mathlib.Data.List.Basic

/-!
A memory as a function of its addresses, seen through windows: the list of the cells
from one address on. Moving a block reads all of it before it writes any, as memmove
does, so the two blocks may overlap.
-/
namespace L2Switch.ByteMemory

universe u
variable {Cell : Type u}

def window (memory : Int → Cell) (base : Int) (size : Nat) : List Cell :=
  (List.range size).map fun index : Nat => memory (base + index)

def moved (memory : Int → Cell) (src dst : Int) (count : Nat) : Int → Cell := fun address =>
  if dst ≤ address ∧ address < dst + count then memory (src + (address - dst)) else memory address

def stored (memory : Int → Cell) (dst : Int) (cells : List Cell) : Int → Cell := fun address =>
  if dst ≤ address then cells.getD (address - dst).toNat (memory address) else memory address

@[simp] theorem window_length (memory : Int → Cell) (base : Int) (size : Nat) :
    (window memory base size).length = size := by
  simp [window]

@[simp] theorem window_getElem (memory : Int → Cell) (base : Int) (size index : Nat)
    (inside : index < (window memory base size).length) :
    (window memory base size)[index] = memory (base + index) := by
  simp [window]

theorem window_congr (before after : Int → Cell) (base : Int) (size : Nat)
    (same : ∀ address, base ≤ address → address < base + size → after address = before address) :
    window after base size = window before base size := by
  apply List.ext_getElem (by simp)
  intro index inside _
  rw [window_length] at inside
  simpa using same (base + index) (by omega) (by omega)

theorem take_window (memory : Int → Cell) (base : Int) (size count : Nat) (within : count ≤ size) :
    (window memory base size).take count = window memory base count := by
  apply List.ext_getElem
  · simp [within]
  · intro index inside _
    simp

theorem drop_window (memory : Int → Cell) (base : Int) (size count : Nat) :
    (window memory base size).drop count = window memory (base + count) (size - count) := by
  apply List.ext_getElem (by simp)
  intro index inside _
  simp only [List.getElem_drop, window_getElem]
  congr 1
  omega

/-- A window is the window on its first cells and the window on the others. -/
theorem window_append (memory : Int → Cell) (base : Int) (first second : Nat) :
    window memory base first ++ window memory (base + first) second =
      window memory base (first + second) := by
  rw [← take_window memory base (first + second) first (Nat.le_add_right _ _)]
  have rest := drop_window memory base (first + second) first
  rw [Nat.add_sub_cancel_left] at rest
  rw [← rest, List.take_append_drop]

theorem window_drop_take (memory : Int → Cell) (base : Int) (size offset count : Nat)
    (within : offset + count ≤ size) :
    ((window memory base size).drop offset).take count = window memory (base + offset) count := by
  rw [drop_window, take_window _ _ _ _ (by omega)]

@[simp] theorem moved_none (memory : Int → Cell) (src dst : Int) : moved memory src dst 0 = memory := by
  funext address
  simp only [moved, ite_eq_right_iff]
  omega

theorem moved_outside (memory : Int → Cell) (src dst : Int) (count : Nat) (address : Int)
    (outside : address < dst ∨ dst + count ≤ address) :
    moved memory src dst count address = memory address := by
  simp only [moved, ite_eq_right_iff]
  omega

theorem window_moved (memory : Int → Cell) (src dst : Int) (count : Nat) :
    window (moved memory src dst count) dst count = window memory src count := by
  apply List.ext_getElem (by simp)
  intro index inside _
  rw [window_length] at inside
  simp only [window_getElem, moved]
  rw [if_pos (by omega)]
  congr 1
  omega

@[simp] theorem stored_none (memory : Int → Cell) (dst : Int) : stored memory dst [] = memory := by
  funext address
  simp [stored]

theorem stored_outside (memory : Int → Cell) (dst : Int) (cells : List Cell) (address : Int)
    (outside : address < dst ∨ dst + cells.length ≤ address) :
    stored memory dst cells address = memory address := by
  unfold stored
  split
  · rw [List.getD_eq_getElem?_getD, List.getElem?_eq_none (by omega)]
    rfl
  · rfl

theorem window_stored (memory : Int → Cell) (dst : Int) (cells : List Cell) :
    window (stored memory dst cells) dst cells.length = cells := by
  apply List.ext_getElem (by simp)
  intro index inside held
  simp only [window_getElem, stored]
  rw [if_pos (by omega), List.getD_eq_getElem?_getD]
  have position : (dst + index - dst).toNat = index := by omega
  rw [position, List.getElem?_eq_getElem held]
  rfl

section Editing
variable (memory : Int → Cell) (base : Int) (size offset : Nat)

/-- Moving the tail of a window up opens a gap in it. -/
theorem window_gap (len : Nat) (inside : offset ≤ size) :
    (window (moved memory (base + offset) (base + (offset + len)) (size - offset)) base
        (size + len)).take offset = (window memory base size).take offset ∧
      (window (moved memory (base + offset) (base + (offset + len)) (size - offset)) base
        (size + len)).drop (offset + len) = (window memory base size).drop offset := by
  constructor
  · rw [take_window _ _ _ _ (by omega), take_window _ _ _ _ inside]
    exact window_congr _ _ _ _ fun address _ _ => moved_outside _ _ _ _ _ (by omega)
  · have left : size + len - (offset + len) = size - offset := by omega
    rw [drop_window, drop_window, left, Int.natCast_add, window_moved]

/-- Moving the tail of a window down cuts cells out of it. -/
theorem window_cut (len : Nat) (inside : offset + len ≤ size) :
    window (moved memory (base + (offset + len)) (base + offset) (size - offset - len)) base
        (size - len) =
      (window memory base size).take offset ++ (window memory base size).drop (offset + len) := by
  have split : size - len = offset + (size - offset - len) := by omega
  rw [split, ← window_append, window_moved, take_window _ _ _ _ (by omega), drop_window,
    Int.natCast_add, Nat.sub_sub]
  congr 1
  exact window_congr _ _ _ _ fun address _ _ => moved_outside _ _ _ _ _ (by omega)

theorem window_overwrite (cells : List Cell) (inside : offset + cells.length ≤ size) :
    window (stored memory (base + offset) cells) base size =
      (window memory base size).take offset ++ cells ++
        (window memory base size).drop (offset + cells.length) := by
  have split : size = offset + cells.length + (size - (offset + cells.length)) := by omega
  have before : window (stored memory (base + offset) cells) base offset =
      window memory base offset :=
    window_congr _ _ _ _ fun address _ _ => stored_outside _ _ _ _ (by omega)
  have behind : window (stored memory (base + offset) cells) (base + (offset + cells.length : Nat))
      (size - (offset + cells.length)) =
        window memory (base + (offset + cells.length : Nat)) (size - (offset + cells.length)) :=
    window_congr _ _ _ _ fun address _ _ => stored_outside _ _ _ _ (by omega)
  rw [drop_window, take_window _ _ _ _ (by omega), ← behind, ← before]
  conv_lhs => rw [split, ← window_append, ← window_append, window_stored]

end Editing

/-! Computations that dereference pointers. A pointer is an offset into one memory
or null; every byte touched is logged, and following null ends the computation.
Bounds are then a property of the log and not a check the computation makes. -/

inductive Fault where
  | null_dereference
  deriving DecidableEq

structure Access (Value : Type) where
  reads : List Nat
  result : Except Fault Value

variable {Value Next : Type}

def Access.done (value : Value) : Access Value := ⟨[], .ok value⟩

def Access.then (access : Access Value) (next : Value → Access Next) : Access Next :=
  match access.result with
  | .error fault => ⟨access.reads, .error fault⟩
  | .ok value => ⟨access.reads ++ (next value).reads, (next value).result⟩

instance : Monad Access where
  pure := Access.done
  bind := Access.then

/-- Read `size` bytes at a pointer; the value gives them by their distance from it. -/
def load (memory : Nat → UInt8) (pointer : Option Nat) (size : Nat) : Access (Nat → UInt8) :=
  match pointer with
  | none => ⟨[], .error .null_dereference⟩
  | some base => ⟨List.range' base size, .ok fun offset => memory (base + offset)⟩

def Access.Within (limit : Nat) (access : Access Value) : Prop :=
  ∀ offset ∈ access.reads, offset < limit

@[simp] theorem pure_reads (value : Value) : (pure value : Access Value).reads = [] := rfl

@[simp] theorem pure_result (value : Value) : (pure value : Access Value).result = .ok value := rfl

theorem bind_of_ok (access : Access Value) (next : Value → Access Next) (value : Value)
    (succeeds : access.result = .ok value) :
    access >>= next = ⟨access.reads ++ (next value).reads, (next value).result⟩ := by
  change access.then next = _
  simp [Access.then, succeeds]

theorem bind_of_error (access : Access Value) (next : Value → Access Next) (fault : Fault)
    (fails : access.result = .error fault) : access >>= next = ⟨access.reads, .error fault⟩ := by
  change access.then next = _
  simp [Access.then, fails]

theorem load_some (memory : Nat → UInt8) (base size : Nat) :
    load memory (some base) size =
      ⟨List.range' base size, .ok fun offset => memory (base + offset)⟩ := rfl

theorem load_none (memory : Nat → UInt8) (size : Nat) :
    load memory none size = ⟨[], .error .null_dereference⟩ := rfl

theorem range_within_iff (base size limit : Nat) (some_byte : 0 < size) :
    (∀ offset ∈ List.range' base size, offset < limit) ↔ base + size ≤ limit := by
  constructor
  · intro within
    have last := within (base + (size - 1)) (List.mem_range'_1.mpr (by omega))
    omega
  · intro room offset member
    have bound := (List.mem_range'_1.mp member).2
    omega

end L2Switch.ByteMemory
