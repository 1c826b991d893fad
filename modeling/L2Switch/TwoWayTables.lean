import Mathlib.Data.List.Induction
import Mathlib.Logic.Function.Basic

/-!
A pair of partial functions kept as the two directions of one relation. The
mirror condition is what a reader of either direction relies on; writing one
pair into both sides keeps it exactly when neither key had another partner.
-/
namespace L2Switch.TwoWayTables

universe u v
variable {Left : Type u} {Right : Type v}

def Mirrored (forward : Left → Option Right) (backward : Right → Option Left) : Prop :=
  ∀ left right, forward left = some right ↔ backward right = some left

theorem mirrored_empty : Mirrored (fun _ : Left => (none : Option Right)) fun _ => none := by
  intro left right
  simp

theorem mirrored_symm (forward : Left → Option Right) (backward : Right → Option Left)
    (mirror : Mirrored forward backward) : Mirrored backward forward :=
  fun right left => (mirror left right).symm

/-- A known left key with an unknown right key has some other partner. -/
theorem partner_differs (forward : Left → Option Right) (backward : Right → Option Left)
    (mirror : Mirrored forward backward) (left : Left) (right partner : Right)
    (known : forward left = some partner) (unknown : backward right = none) :
    partner ≠ right := by
  rintro rfl
  simp [(mirror left partner).mp known] at unknown

section Writing
variable [DecidableEq Left] [DecidableEq Right]

theorem mirrored_write_fresh (forward : Left → Option Right) (backward : Right → Option Left)
    (mirror : Mirrored forward backward) (left : Left) (right : Right)
    (freshLeft : forward left = none) (freshRight : backward right = none) :
    Mirrored (Function.update forward left (some right))
      (Function.update backward right (some left)) := by
  intro key value
  have noKey : forward key = some right → False := by
    intro known
    simp [(mirror key right).mp known] at freshRight
  have noValue : backward value = some left → False := by
    intro known
    simp [(mirror left value).mpr known] at freshLeft
  by_cases sameKey : key = left <;> by_cases sameValue : value = right
  · simp [sameKey, sameValue]
  · subst sameKey
    simpa [sameValue, Ne.symm sameValue] using noValue
  · subst sameValue
    simpa [sameKey, Ne.symm sameKey] using noKey
  · simpa [sameKey, sameValue] using mirror key value

/-- A stale partner of the written left key still points back at it. -/
theorem mirrored_write_stale (forward : Left → Option Right) (backward : Right → Option Left)
    (mirror : Mirrored forward backward) (left : Left) (right partner : Right)
    (known : forward left = some partner) (different : partner ≠ right) :
    ¬ Mirrored (Function.update forward left (some right))
      (Function.update backward right (some left)) := by
  intro written
  have back : Function.update backward right (some left) partner = some left := by
    simpa [different] using (mirror left partner).mp known
  have ahead := (written left partner).mpr back
  simp [Ne.symm different] at ahead

theorem mirrored_write_iff (forward : Left → Option Right) (backward : Right → Option Left)
    (mirror : Mirrored forward backward) (left : Left) (right : Right)
    (unknown : forward left = none ∨ backward right = none) :
    Mirrored (Function.update forward left (some right))
        (Function.update backward right (some left)) ↔
      forward left = none ∧ backward right = none := by
  constructor
  · intro written
    constructor
    · cases known : forward left with
      | none => rfl
      | some partner =>
          have free : backward right = none := by simpa [known] using unknown
          have different := partner_differs forward backward mirror left right partner known free
          exact absurd written
            (mirrored_write_stale forward backward mirror left right partner known different)
    · cases known : backward right with
      | none => rfl
      | some partner =>
          have free : forward left = none := by simpa [known] using unknown
          have flipped := mirrored_symm forward backward mirror
          have different := partner_differs backward forward flipped right left partner known free
          exact absurd (mirrored_symm _ _ written)
            (mirrored_write_stale backward forward flipped right left partner known different)
  · rintro ⟨freshLeft, freshRight⟩
    exact mirrored_write_fresh forward backward mirror left right freshLeft freshRight

end Writing

/-! Maps filled one entry at a time by a writer that may skip a key the map already has.
Whatever it skips, such a map knows the keys of its entries and no others, and every
value it answers came with that key; where the entries give each key one value only,
the map is their graph. -/

section Filling
universe w
variable {Entry : Type u} {Key : Type v} {Value : Type w} [DecidableEq Key]

inductive Recorded (before : Key → Option Value) (key : Key) (value : Value) :
    (Key → Option Value) → Prop
  | written : Recorded before key value (Function.update before key (some value))
  | skipped (known : (before key).isSome = true) : Recorded before key value before

theorem recorded_other (before after : Key → Option Value) (key other : Key) (value : Value)
    (recorded : Recorded before key value after) (different : other ≠ key) :
    after other = before other := by
  cases recorded with
  | written => exact Function.update_of_ne different _ _
  | skipped _ => rfl

theorem recorded_isSome_iff (before after : Key → Option Value) (key other : Key) (value : Value)
    (recorded : Recorded before key value after) :
    (after other).isSome = true ↔ (before other).isSome = true ∨ other = key := by
  cases recorded with
  | written =>
      by_cases same : other = key
      · simp [same]
      · simp [same]
  | skipped known =>
      constructor
      · exact Or.inl
      · rintro (already | rfl)
        · exact already
        · exact known

theorem recorded_from (before after : Key → Option Value) (key other : Key)
    (value partner : Value) (recorded : Recorded before key value after)
    (found : after other = some partner) :
    (key = other ∧ value = partner) ∨ before other = some partner := by
  cases recorded with
  | skipped _ => exact Or.inr found
  | written =>
      by_cases same : other = key
      · subst same
        rw [Function.update_self] at found
        exact Or.inl ⟨rfl, Option.some.inj found⟩
      · rw [Function.update_of_ne same] at found
        exact Or.inr found

/-- What `after` answers once a list of entries was recorded in turn. -/
structure KeepsHistory (keyOf : Entry → Key) (valueOf : Entry → Value)
    (after : List Entry → Key → Option Value) : Prop where
  empty : ∀ key, after [] key = none
  append : ∀ earlier entry,
    Recorded (after earlier) (keyOf entry) (valueOf entry) (after (earlier ++ [entry]))

section History
variable {keyOf : Entry → Key} {valueOf : Entry → Value} {after : List Entry → Key → Option Value}

theorem isSome_iff (history : KeepsHistory keyOf valueOf after) (entries : List Entry) (key : Key) :
    (after entries key).isSome = true ↔ key ∈ entries.map keyOf := by
  induction entries using List.reverseRecOn with
  | nil => simp [history.empty]
  | append_singleton earlier entry ih =>
      rw [recorded_isSome_iff _ _ _ key _ (history.append earlier entry), ih]
      simp only [List.map_append, List.map_cons, List.map_nil, List.mem_append,
        List.mem_singleton]

theorem entry_of_found (history : KeepsHistory keyOf valueOf after) (entries : List Entry)
    (key : Key) (value : Value) (found : after entries key = some value) :
    ∃ entry ∈ entries, keyOf entry = key ∧ valueOf entry = value := by
  induction entries using List.reverseRecOn with
  | nil => simp [history.empty] at found
  | append_singleton earlier entry ih =>
      rcases recorded_from _ _ _ key _ value (history.append earlier entry) found with latest | kept
      · exact ⟨entry, List.mem_append_right earlier (List.mem_singleton_self entry), latest⟩
      · rcases ih kept with ⟨source, member, same⟩
        exact ⟨source, List.mem_append_left [entry] member, same⟩

theorem found_iff (history : KeepsHistory keyOf valueOf after) (entries : List Entry)
    (functional : ∀ first ∈ entries, ∀ second ∈ entries,
      keyOf first = keyOf second → valueOf first = valueOf second)
    (key : Key) (value : Value) :
    after entries key = some value ↔
      ∃ entry ∈ entries, keyOf entry = key ∧ valueOf entry = value := by
  constructor
  · exact entry_of_found history entries key value
  · rintro ⟨entry, member, rfl, rfl⟩
    have known := (isSome_iff history entries (keyOf entry)).mpr (List.mem_map_of_mem member)
    rcases Option.isSome_iff_exists.mp known with ⟨partner, found⟩
    rcases entry_of_found history entries _ partner found with ⟨source, listed, sameKey, rfl⟩
    rw [found, functional source listed entry member sameKey]

end History

end Filling
end L2Switch.TwoWayTables
