import Mathlib.Data.List.Perm.Subperm
import Mathlib.Logic.Function.Basic

/-!
Items spread over places. Items move by being taken from one place and put in another;
`everything` lists what the places of interest hold together. How often an item occurs
there is counted, so that moves compose by arithmetic.
-/
namespace L2Switch.Places

universe u v
variable {Place : Type u} {Item : Type v} [DecidableEq Place] [DecidableEq Item]

def put (spread : Place → List Item) (place : Place) (items : List Item) : Place → List Item :=
  Function.update spread place (items ++ spread place)

def take (spread : Place → List Item) (place : Place) (items : List Item) : Place → List Item :=
  Function.update spread place ((spread place).diff items)

def everything (places : List Place) (spread : Place → List Item) : List Item :=
  places.flatMap spread

omit [DecidableEq Item] in
@[simp] theorem put_here (spread : Place → List Item) (place : Place) (items : List Item) :
    put spread place items place = items ++ spread place := Function.update_self ..

omit [DecidableEq Item] in
theorem put_elsewhere (spread : Place → List Item) (place other : Place) (items : List Item)
    (different : other ≠ place) : put spread place items other = spread other :=
  Function.update_of_ne different ..

omit [DecidableEq Item] in
theorem mem_put (spread : Place → List Item) (place other : Place) (items : List Item) (item : Item) :
    item ∈ put spread place items other ↔ (place = other ∧ item ∈ items) ∨ item ∈ spread other := by
  by_cases same : place = other
  · subst same
    simp
  · rw [put_elsewhere spread place other items (Ne.symm same)]
    simp [same]

theorem take_elsewhere (spread : Place → List Item) (place other : Place) (items : List Item)
    (different : other ≠ place) : take spread place items other = spread other :=
  Function.update_of_ne different ..

theorem take_within (spread : Place → List Item) (place other : Place) (items : List Item)
    (item : Item) (member : item ∈ take spread place items other) : item ∈ spread other := by
  by_cases same : other = place
  · subst same
    rw [take, Function.update_self] at member
    exact List.diff_subset _ _ member
  · rwa [take_elsewhere spread place other items same] at member

/-- A change at one of several places that are listed once. -/
theorem count_update (places : List Place) (once : places.Nodup) (spread : Place → List Item)
    (place : Place) (member : place ∈ places) (items : List Item) (item : Item) :
    (spread place).count item + (everything places (Function.update spread place items)).count item =
      items.count item + (everything places spread).count item := by
  obtain ⟨before, after, rfl⟩ := List.append_of_mem member
  have apart := List.nodup_append.mp once
  have absentAfter : place ∉ after := (List.nodup_cons.mp apart.2.1).1
  have absentBefore : place ∉ before :=
    fun inside => apart.2.2 place inside place List.mem_cons_self rfl
  have kept : ∀ others : List Place, place ∉ others →
      others.flatMap (Function.update spread place items) = others.flatMap spread := by
    intro others absent
    apply List.flatMap_congr
    intro other inside
    have different : other ≠ place := fun same => absent (same ▸ inside)
    rw [Function.update_of_ne different]
  simp only [everything, List.flatMap_append, List.flatMap_cons, kept before absentBefore,
    kept after absentAfter, Function.update_self, List.count_append]
  omega

theorem count_put (places : List Place) (once : places.Nodup) (spread : Place → List Item)
    (place : Place) (member : place ∈ places) (items : List Item) (item : Item) :
    (everything places (put spread place items)).count item =
      items.count item + (everything places spread).count item := by
  have changed := count_update places once spread place member (items ++ spread place) item
  rw [List.count_append] at changed
  rw [put]
  omega

theorem count_take (places : List Place) (once : places.Nodup) (spread : Place → List Item)
    (place : Place) (member : place ∈ places) (items : List Item)
    (there : items.Subperm (spread place)) (item : Item) :
    items.count item + (everything places (take spread place items)).count item =
      (everything places spread).count item := by
  have changed := count_update places once spread place member ((spread place).diff items) item
  have split := List.subperm_append_diff_self_of_count_le fun item _ => there.count_le item
  have counted := split.count_eq item
  rw [List.count_append] at counted
  rw [take]
  omega

/-- Taken here and put there, nothing is gained or lost. -/
theorem count_move (places : List Place) (once : places.Nodup) (spread : Place → List Item)
    (here there : Place) (left : here ∈ places) (reached : there ∈ places) (items : List Item)
    (held : items.Subperm (spread here)) (item : Item) :
    (everything places (put (take spread here items) there items)).count item =
      (everything places spread).count item := by
  rw [count_put places once _ there reached, count_take places once spread here left items held]

/-- Items sorted into the places they belong to. -/
theorem sorted_perm (places : List Place) (once : places.Nodup) (home : Item → Place)
    (items : List Item) (known : ∀ item ∈ items, home item ∈ places) :
    (everything places fun place => items.filter fun item => home item = place).Perm items := by
  induction items with
  | nil => simp [everything]
  | cons first rest ih =>
      obtain ⟨member, later⟩ := List.forall_mem_cons.mp known
      have sorted : (fun place => (first :: rest).filter fun item => home item = place) =
          put (fun place => rest.filter fun item => home item = place) (home first) [first] := by
        funext place
        by_cases same : place = home first
        · subst same
          simp
        · rw [put_elsewhere _ _ _ _ same, List.filter_cons_of_neg (by simpa using Ne.symm same)]
      rw [sorted, List.perm_iff_count]
      intro item
      rw [count_put places once _ _ member, (ih later).count_eq, ← List.count_append,
        List.singleton_append]

/-- When `took` left and `back` came, what is there is still `all` exactly when `back` is
`took` in some order. -/
theorem balanced_iff (before after all took back : List Item) (balanced : before.Perm all)
    (changed : ∀ item, took.count item + after.count item = back.count item + before.count item) :
    after.Perm all ↔ back.Perm took := by
  simp only [List.perm_iff_count] at balanced ⊢
  constructor
  · intro same item
    have here := changed item
    rw [balanced item, same item] at here
    omega
  · intro same item
    have here := changed item
    rw [balanced item, same item] at here
    omega

end L2Switch.Places
