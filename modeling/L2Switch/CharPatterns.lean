import Mathlib.Data.List.Induction

/-!
Patterns that give each character of a text its own class, anchored at both ends.
The class of decimal digits is that of a Unicode pattern language: it may hold more
characters than the ten ASCII ones, and which ones they are is left open.
-/
namespace L2Switch.CharPatterns

abbrev CharClass := Char → Bool

structure DigitClass where
  holds : CharClass
  ascii : ∀ char : Char, char.toNat < 128 → holds char = char.isDigit

def DigitClass.asciiOnly : DigitClass := ⟨Char.isDigit, fun _ _ => rfl⟩

def literal (expected : Char) : CharClass := (· == expected)

def isMatch : List CharClass → List Char → Bool
  | [], [] => true
  | cls :: classes, char :: rest => cls char && isMatch classes rest
  | _, _ => false

/-- One pattern admits what another one does as far as the characters have a property. -/
def AdmitsWhere (property : Char → Prop) (first second : List CharClass) : Prop :=
  List.Forall₂ (fun narrow wide : CharClass =>
    ∀ char, property char → narrow char = true → wide char = true) first second

theorem isMatch_admits (property : Char → Prop) (first second : List CharClass)
    (admits : AdmitsWhere property first second) (text : List Char)
    (all : ∀ char ∈ text, property char) (matched : isMatch first text = true) :
    isMatch second text = true := by
  induction admits generalizing text with
  | nil => exact matched
  | cons admitsHead _ ih =>
      cases text with
      | nil => simp [isMatch] at matched
      | cons char rest =>
          rw [isMatch, Bool.and_eq_true] at matched ⊢
          exact ⟨admitsHead char (all char List.mem_cons_self) matched.1,
            ih rest (fun other member => all other (List.mem_cons_of_mem char member)) matched.2⟩

/-- What two patterns of one text say of each character, every character has. -/
theorem all_of_isMatch (property : Char → Prop) (first second : List CharClass)
    (both : List.Forall₂ (fun left right : CharClass =>
      ∀ char, left char = true → right char = true → property char) first second)
    (text : List Char) (matchedFirst : isMatch first text = true)
    (matchedSecond : isMatch second text = true) : ∀ char ∈ text, property char := by
  induction both generalizing text with
  | nil =>
      cases text with
      | nil => exact List.forall_mem_nil _
      | cons char rest => simp [isMatch] at matchedFirst
  | cons bothHead _ ih =>
      cases text with
      | nil => exact List.forall_mem_nil _
      | cons char rest =>
          rw [isMatch, Bool.and_eq_true] at matchedFirst matchedSecond
          exact List.forall_mem_cons.mpr ⟨bothHead char matchedFirst.1 matchedSecond.1,
            ih rest matchedFirst.2 matchedSecond.2⟩

@[simp] theorem isMatch_nil_iff (text : List Char) : isMatch [] text = true ↔ text = [] := by
  cases text <;> simp [isMatch]

theorem isMatch_append_iff (first second : List CharClass) (text : List Char) :
    isMatch (first ++ second) text = true ↔
      ∃ front back, text = front ++ back ∧ isMatch first front = true ∧ isMatch second back = true := by
  induction first generalizing text with
  | nil => simp
  | cons cls classes ih =>
      cases text with
      | nil => simp [isMatch]
      | cons char rest =>
          rw [List.cons_append, isMatch, Bool.and_eq_true, ih]
          constructor
          · rintro ⟨head, front, back, rfl, matched, closing⟩
            exact ⟨char :: front, back, rfl, by simp [isMatch, head, matched], closing⟩
          · rintro ⟨front, back, split, matched, closing⟩
            cases front with
            | nil => simp [isMatch] at matched
            | cons first front =>
                obtain ⟨rfl, rfl⟩ := List.cons.inj split
                rw [isMatch, Bool.and_eq_true] at matched
                exact ⟨matched.1, front, back, rfl, matched.2, closing⟩

theorem isMatch_append_single (classes : List CharClass) (last : CharClass) (front : List Char)
    (final : Char) :
    isMatch (classes ++ [last]) (front ++ [final]) = true ↔
      isMatch classes front = true ∧ last final = true := by
  rw [isMatch_append_iff]
  constructor
  · rintro ⟨start, ending, split, matched, closing⟩
    cases ending with
    | nil => simp [isMatch] at closing
    | cons char rest =>
        rw [isMatch, Bool.and_eq_true, isMatch_nil_iff] at closing
        rw [closing.2] at split
        obtain ⟨rfl, same⟩ := List.append_inj' split rfl
        rw [List.singleton_inj.mp same]
        exact ⟨matched, closing.1⟩
  · rintro ⟨matched, closing⟩
    exact ⟨front, [final], rfl, matched, by simp [isMatch, closing]⟩

/-- A text that a nonempty pattern matches has a last character. -/
theorem isMatch_ends (classes : List CharClass) (last : CharClass) (text : List Char)
    (matched : isMatch (classes ++ [last]) text = true) :
    ∃ front final, text = front ++ [final] := by
  induction text using List.reverseRecOn with
  | nil => cases classes <;> simp [isMatch] at matched
  | append_singleton front final _ => exact ⟨front, final, rfl⟩

end L2Switch.CharPatterns
