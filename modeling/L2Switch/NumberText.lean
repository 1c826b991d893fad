import Mathlib.Data.List.Basic

/-!
Numbers written in decimal, alone and in lists separated by commas: what a reader
makes of such a text, and when the digits of a number occur in it.
-/
namespace L2Switch.NumberText

def digits (number : Nat) : List Char := Nat.toDigits 10 number

def readDecimal (text : List Char) : Option Nat :=
  if text.isEmpty || !text.all Char.isDigit then none else some (Nat.ofDigitChars 10 text 0)

theorem toString_toList (number : Nat) : (toString number).toList = digits number := by
  rw [Nat.toString_eq_repr, Nat.toList_repr, digits]

theorem digits_ne_nil (number : Nat) : digits number ≠ [] := Nat.toDigits_ne_nil

theorem isDigit_of_mem_digits (number : Nat) (char : Char) (member : char ∈ digits number) :
    char.isDigit = true :=
  Nat.isDigit_of_mem_toDigits (by decide) (by decide) member

theorem not_mem_digits (number : Nat) (char : Char) (other : char.isDigit = false) :
    char ∉ digits number := by
  intro member
  simp [isDigit_of_mem_digits number char member] at other

@[simp] theorem readDecimal_digits (number : Nat) : readDecimal (digits number) = some number := by
  have allDigits : (digits number).all Char.isDigit = true :=
    List.all_eq_true.mpr (isDigit_of_mem_digits number)
  have nonempty : (digits number).isEmpty = false :=
    List.isEmpty_eq_false_iff.mpr (digits_ne_nil number)
  rw [readDecimal, allDigits, nonempty, digits, Nat.ofDigitChars_ten_toDigits]
  rfl

/-- Whether a text occurs in another, as one block. -/
def occursIn (needle : List Char) : List Char → Bool
  | [] => needle.isEmpty
  | char :: rest => needle.isPrefixOf (char :: rest) || occursIn needle rest

theorem occursIn_iff (needle text : List Char) : occursIn needle text = true ↔ needle <:+: text := by
  induction text with
  | nil => simp [occursIn]
  | cons char rest ih =>
      rw [occursIn, Bool.or_eq_true, List.isPrefixOf_iff_prefix, ih, List.infix_cons_iff]

/-- A text without the separator occurs on one side of it or on the other. -/
theorem infix_across_iff (needle before after : List Char) (separator : Char)
    (free : separator ∉ needle) :
    needle <:+: before ++ separator :: after ↔ needle <:+: before ∨ needle <:+: after := by
  constructor
  · intro occurs
    rcases List.infix_append_iff.mp occurs with left | right | ⟨front, back, split, ends, starts⟩
    · exact Or.inl left
    · rcases List.infix_cons_iff.mp right with starts | inside
      · cases needle with
        | nil => exact Or.inr List.nil_infix
        | cons first rest =>
            have same := (List.cons_prefix_cons.mp starts).1
            simp [same] at free
      · exact Or.inr inside
    · cases back with
      | nil =>
          rw [split, List.append_nil]
          exact Or.inl ends.isInfix
      | cons first rest =>
          have same := (List.cons_prefix_cons.mp starts).1
          simp [split, same] at free
  · intro either
    rcases either with left | right
    · exact left.trans (List.prefix_append before _).isInfix
    · exact right.trans ((List.suffix_cons separator after).trans (List.suffix_append before _)).isInfix

/-- Numbers as a list is written for a reader: a comma and a blank between two. -/
def spelled (numbers : List Nat) : List Char := List.intercalate [',', ' '] (numbers.map digits)

/-- The numbers of a text that separates them by commas, blanks ignored. -/
def readNumbers (text : List Char) : Option (List Nat) :=
  let bare := text.filter (· ≠ ' ')
  if bare.isEmpty then some [] else (bare.splitOn ',').mapM readDecimal

@[simp] theorem spelled_nil : spelled [] = [] := rfl

theorem spelled_cons (first : Nat) (rest : List Nat) (more : rest ≠ []) :
    spelled (first :: rest) = digits first ++ ',' :: ' ' :: spelled rest := by
  unfold spelled
  rw [List.map_cons, List.intercalate_cons_of_ne_nil (by simpa using more)]
  simp

theorem spelled_append (numbers : List Nat) (last : Nat) (more : numbers ≠ []) :
    spelled (numbers ++ [last]) = spelled numbers ++ ',' :: ' ' :: digits last := by
  induction numbers with
  | nil => exact absurd rfl more
  | cons first rest ih =>
      cases rest with
      | nil => simp [spelled]
      | cons second others =>
          rw [List.cons_append, spelled_cons first _ (by simp), ih (by simp),
            spelled_cons first _ (by simp)]
          simp

theorem spelled_ne_nil (numbers : List Nat) (more : numbers ≠ []) : spelled numbers ≠ [] := by
  cases numbers with
  | nil => exact absurd rfl more
  | cons first rest =>
      cases rest with
      | nil => simpa [spelled] using digits_ne_nil first
      | cons second others =>
          rw [spelled_cons first _ (by simp)]
          simp

/-- The digits of a number occur in a list exactly where they occur in one of its numbers. -/
theorem digits_infix_spelled_iff (number : Nat) (numbers : List Nat) :
    digits number <:+: spelled numbers ↔
      ∃ listed ∈ numbers, digits number <:+: digits listed := by
  induction numbers with
  | nil => simp [digits_ne_nil]
  | cons first rest ih =>
      cases rest with
      | nil => simp [spelled]
      | cons second others =>
          have comma : ',' ∉ digits number := not_mem_digits number ',' rfl
          have blank : ' ' ∉ digits number := not_mem_digits number ' ' rfl
          rw [spelled_cons first _ (by simp), infix_across_iff _ _ _ _ comma]
          have skipped := infix_across_iff (digits number) [] (spelled (second :: others)) ' ' blank
          rw [List.nil_append, List.infix_nil] at skipped
          rw [skipped, ih]
          simp [digits_ne_nil]

theorem digits_filter (number : Nat) : (digits number).filter (· ≠ ' ') = digits number := by
  apply List.filter_eq_self.mpr
  intro char member
  have blank : ' ' ∉ digits number := not_mem_digits number ' ' rfl
  simpa using fun same : char = ' ' => blank (same ▸ member)

theorem spelled_filter (numbers : List Nat) :
    (spelled numbers).filter (· ≠ ' ') = List.intercalate [','] (numbers.map digits) := by
  induction numbers with
  | nil => rfl
  | cons first rest ih =>
      cases rest with
      | nil => simpa [spelled] using digits_filter first
      | cons second others =>
          rw [spelled_cons first _ (by simp), List.filter_append, digits_filter, List.map_cons,
            List.intercalate_cons_of_ne_nil (by simp), ← ih]
          simp

theorem mapM_readDecimal (numbers : List Nat) :
    (numbers.map digits).mapM readDecimal = some numbers := by
  induction numbers with
  | nil => rfl
  | cons first rest ih => simp [ih]

theorem mem_intercalate (separator : Char) (pieces : List (List Char)) (char : Char)
    (member : char ∈ List.intercalate [separator] pieces) :
    char = separator ∨ ∃ piece ∈ pieces, char ∈ piece := by
  induction pieces with
  | nil => simp at member
  | cons first rest ih =>
      cases rest with
      | nil => exact Or.inr ⟨first, List.mem_cons_self, by simpa using member⟩
      | cons second others =>
          rw [List.intercalate_cons_cons, List.append_assoc, List.mem_append,
            List.singleton_append, List.mem_cons] at member
          rcases member with inside | same | later
          · exact Or.inr ⟨first, List.mem_cons_self, inside⟩
          · exact Or.inl same
          · rcases ih later with same | ⟨piece, listed, inside⟩
            · exact Or.inl same
            · exact Or.inr ⟨piece, List.mem_cons_of_mem first listed, inside⟩

/-- A list is read back as it was spelled. -/
theorem readNumbers_spelled (numbers : List Nat) : readNumbers (spelled numbers) = some numbers := by
  rw [readNumbers, spelled_filter]
  cases numbers with
  | nil => rfl
  | cons first rest =>
      have nonempty : List.intercalate [','] ((first :: rest).map digits) ≠ [] := by
        cases rest with
        | nil => simpa using digits_ne_nil first
        | cons second others => simp
      have clean : ∀ piece ∈ (first :: rest).map digits, ',' ∉ piece := by
        intro piece member
        obtain ⟨number, _, rfl⟩ := List.mem_map.mp member
        exact not_mem_digits number ',' rfl
      rw [List.isEmpty_eq_false_iff.mpr nonempty, List.splitOn_intercalate ',' clean (by simp),
        mapM_readDecimal]
      rfl

end L2Switch.NumberText
