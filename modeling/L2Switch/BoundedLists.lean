import Mathlib.Data.List.Basic

/-!
Lists that never hold more than their capacity: a first-in first-out queue whose bound is
part of the value, so that an overfull queue cannot be built, and a list of cells with the
edits it can be asked for.
-/
namespace L2Switch

universe u
variable {Item : Type u}

structure BoundedFifo (Item : Type u) where
  capacity : Nat
  items : List Item
  fits : items.length ≤ capacity

namespace BoundedFifo

def empty (capacity : Nat) : BoundedFifo Item :=
  { capacity, items := [], fits := Nat.zero_le capacity }

def isFull (queue : BoundedFifo Item) : Bool := queue.items.length = queue.capacity

/-- None when the queue is full. -/
def push (queue : BoundedFifo Item) (item : Item) : Option (BoundedFifo Item) :=
  if room : queue.items.length < queue.capacity then
    some { queue with
      items := queue.items ++ [item]
      fits := by rw [List.length_append]; exact room }
  else none

/-- The oldest item and the queue without it; none when the queue is empty. -/
def pop (queue : BoundedFifo Item) : Option (Item × BoundedFifo Item) :=
  match held : queue.items with
  | [] => none
  | item :: rest =>
      some (item, { queue with
        items := rest
        fits := Nat.le_of_succ_le (by simpa [held] using queue.fits) })

theorem push_items (queue next : BoundedFifo Item) (item : Item)
    (pushed : queue.push item = some next) :
    next.items = queue.items ++ [item] ∧ next.capacity = queue.capacity := by
  unfold push at pushed
  split at pushed
  · cases pushed
    exact ⟨rfl, rfl⟩
  · cases pushed

theorem push_isSome_iff (queue : BoundedFifo Item) (item : Item) :
    (queue.push item).isSome ↔ queue.items.length < queue.capacity := by
  unfold push
  split <;> simp [*]

theorem pop_items (queue next : BoundedFifo Item) (item : Item)
    (popped : queue.pop = some (item, next)) :
    queue.items = item :: next.items ∧ next.capacity = queue.capacity := by
  unfold pop at popped
  split at popped
  · cases popped
  · next head rest found =>
      cases popped
      exact ⟨found, rfl⟩

theorem pop_cons (queue : BoundedFifo Item) (item : Item) (rest : List Item)
    (held : queue.items = item :: rest) :
    ∃ next, queue.pop = some (item, next) ∧ next.items = rest := by
  cases popped : queue.pop with
  | none =>
      unfold pop at popped
      split at popped
      · next empty => simp [held] at empty
      · cases popped
  | some taken =>
      obtain ⟨head, next⟩ := taken
      have parts := (pop_items queue next head popped).1
      rw [held] at parts
      obtain ⟨rfl, rfl⟩ := List.cons_eq_cons.mp parts
      exact ⟨next, rfl, rfl⟩

theorem pop_none_iff (queue : BoundedFifo Item) : queue.pop = none ↔ queue.items = [] := by
  cases held : queue.items with
  | nil =>
      unfold pop
      split <;> simp_all
  | cons item rest =>
      obtain ⟨next, popped, _⟩ := pop_cons queue item rest held
      simp [popped]

end BoundedFifo

/-! `Admissible` says when an edit is granted, `Effect` what it leaves: a gap's own cells
may hold anything. -/
namespace BoundedEdits
variable {Cell : Type u}

inductive Edit (Cell : Type u) where
  | gap (offset len : Nat)
  | cut (offset len : Nat)
  | keep (len : Nat)
  | overwrite (offset : Nat) (written : List Cell)
  | read (offset len : Nat)

/-- A gap leaves at least one cell of the capacity unused. -/
def Edit.Admissible (cells : List Cell) (capacity : Nat) : Edit Cell → Prop
  | .gap offset len => 0 < len ∧ offset ≤ cells.length ∧ len < capacity - cells.length
  | .cut offset len => 0 < len ∧ offset + len ≤ cells.length
  | .keep len => len < cells.length
  | .overwrite offset written => offset + written.length ≤ cells.length
  | .read offset len => offset + len ≤ cells.length

def Edit.Effect (cells after : List Cell) : Edit Cell → Prop
  | .gap offset len =>
      after.length = cells.length + len ∧ after.take offset = cells.take offset ∧
        after.drop (offset + len) = cells.drop offset
  | .cut offset len => after = cells.take offset ++ cells.drop (offset + len)
  | .keep len => after = cells.take len
  | .overwrite offset written =>
      after = cells.take offset ++ written ++ cells.drop (offset + written.length)
  | .read _ _ => after = cells

/-- The cells an edit shows its caller. -/
def Edit.handsOut (cells : List Cell) : Edit Cell → Option (List Cell)
  | .overwrite _ written => some written
  | .read offset len => some ((cells.drop offset).take len)
  | _ => none

/-- The largest position an edit speaks of. -/
def Edit.reach : Edit Cell → Nat
  | .gap offset len => offset + len
  | .cut offset len => offset + len
  | .keep _ => 0
  | .overwrite offset written => offset + written.length
  | .read offset len => offset + len

/-- A read or an overwrite is of some cells. -/
def Edit.Proper : Edit Cell → Prop
  | .overwrite _ written => written ≠ []
  | .read _ len => 0 < len
  | _ => True

/-- A read or an overwrite begins at a cell. -/
def Edit.Starts (cells : List Cell) : Edit Cell → Prop
  | .overwrite offset _ => offset < cells.length
  | .read offset _ => offset < cells.length
  | _ => True

theorem proper_starts (cells : List Cell) (capacity : Nat) (edit : Edit Cell) (proper : edit.Proper)
    (admissible : edit.Admissible cells capacity) : edit.Starts cells := by
  cases edit with
  | gap offset len | cut offset len | keep len => trivial
  | overwrite offset written =>
      have some_cell := List.length_pos_iff.mpr proper
      simp only [Edit.Starts, Edit.Admissible] at admissible ⊢
      omega
  | read offset len =>
      simp only [Edit.Starts, Edit.Admissible, Edit.Proper] at admissible proper ⊢
      omega

/-- What is granted fits again. -/
theorem effect_fits (cells after : List Cell) (capacity : Nat) (edit : Edit Cell)
    (fits : cells.length ≤ capacity) (admissible : edit.Admissible cells capacity)
    (effect : edit.Effect cells after) : after.length ≤ capacity := by
  cases edit with
  | gap offset len =>
      obtain ⟨_, _, room⟩ := admissible
      have grown := effect.1
      omega
  | cut offset len | keep len =>
      subst effect
      simp only [List.length_append, List.length_take, List.length_drop]
      omega
  | overwrite offset written =>
      subst effect
      simp only [Edit.Admissible] at admissible
      simp only [List.length_append, List.length_take, List.length_drop]
      omega
  | read offset len =>
      subst effect
      exact fits

/-- A gap that is filled at once is an insertion. -/
theorem gap_overwritten (cells gapped after written : List Cell) (offset : Nat)
    (gap : (Edit.gap offset written.length : Edit Cell).Effect cells gapped)
    (filled : (Edit.overwrite offset written).Effect gapped after) :
    after = cells.take offset ++ written ++ cells.drop offset := by
  obtain ⟨_, front, back⟩ := gap
  rw [show after = _ from filled, front, back]

/-- Cutting what was inserted leaves what was there before. -/
theorem cut_inserted (cells after written : List Cell) (offset : Nat) (inside : offset ≤ cells.length)
    (cut : (Edit.cut offset written.length : Edit Cell).Effect
      (cells.take offset ++ written ++ cells.drop offset) after) : after = cells := by
  have front : (cells.take offset).length = offset := List.length_take_of_le inside
  have whole : (cells.take offset ++ written).length = offset + written.length := by
    rw [List.length_append, front]
  rw [show after = _ from cut, List.append_assoc, List.take_left' front, ← List.append_assoc,
    List.drop_left' whole, List.take_append_drop]

theorem read_inserted (cells written : List Cell) (offset : Nat) (inside : offset ≤ cells.length) :
    (Edit.read offset written.length : Edit Cell).handsOut
      (cells.take offset ++ written ++ cells.drop offset) = some written := by
  have front : (cells.take offset).length = offset := List.length_take_of_le inside
  rw [Edit.handsOut, List.append_assoc, List.drop_left' front, List.take_left' rfl]

/-- An edit that leaves the first cells alone; reading never changes any. -/
def Edit.Spares (first : Nat) : Edit Cell → Prop
  | .gap offset _ => first ≤ offset
  | .cut offset _ => first ≤ offset
  | .keep len => first ≤ len
  | .overwrite offset _ => first ≤ offset
  | .read _ _ => True

theorem take_of_take (cells after : List Cell) (first second : Nat) (within : first ≤ second)
    (same : after.take second = cells.take second) : after.take first = cells.take first := by
  have inner := congrArg (List.take first) same
  rwa [List.take_take, List.take_take, Nat.min_eq_left within] at inner

theorem spared (cells after : List Cell) (capacity first : Nat) (edit : Edit Cell)
    (spares : edit.Spares first) (admissible : edit.Admissible cells capacity)
    (effect : edit.Effect cells after) : after.take first = cells.take first := by
  cases edit with
  | gap offset len => exact take_of_take cells after first offset spares effect.2.1
  | cut offset len =>
      have inside : offset ≤ cells.length := Nat.le_of_add_right_le admissible.2
      refine take_of_take cells after first offset spares ?_
      rw [show after = _ from effect, List.take_left' (List.length_take_of_le inside)]
  | keep len =>
      rw [show after = _ from effect, List.take_take, Nat.min_eq_left spares]
  | overwrite offset written =>
      have inside : offset ≤ cells.length := Nat.le_of_add_right_le admissible
      refine take_of_take cells after first offset spares ?_
      rw [show after = _ from effect, List.append_assoc,
        List.take_left' (List.length_take_of_le inside)]
  | read offset len => rw [show after = cells from effect]

end BoundedEdits
end L2Switch
