import Mathlib.Data.List.Forall2
import L2Switch.NumberText

/-!
Unsigned numbers written in a radix of at most 36, as the standard library's
`from_str_radix` reads them: an optional plus sign, one digit or more in either case,
and no more than the type holds. Texts made of fields with a separator between two.
-/
namespace L2Switch.RadixText
open NumberText

/-- `char::to_digit` -/
def toDigit (radix : Nat) (char : Char) : Option Nat :=
  let value :=
    if '0' ≤ char ∧ char ≤ '9' then some (char.toNat - '0'.toNat)
    else if 'a' ≤ char ∧ char ≤ 'z' then some (char.toNat - 'a'.toNat + 10)
    else if 'A' ≤ char ∧ char ≤ 'Z' then some (char.toNat - 'A'.toNat + 10)
    else none
  value.filter (· < radix)

def readDigits (radix : Nat) : List Char → Nat → Option Nat
  | [], sofar => some sofar
  | char :: rest, sofar => (toDigit radix char).bind fun digit => readDigits radix rest (sofar * radix + digit)

def withoutPlus : List Char → List Char
  | '+' :: rest => rest
  | text => text

/-- The number of a text, if it is one below `limit`. -/
def fromStrRadix (radix limit : Nat) (text : List Char) : Option Nat :=
  if (withoutPlus text).isEmpty then none
  else (readDigits radix (withoutPlus text) 0).filter (· < limit)

theorem toDigit_sign (radix : Nat) : toDigit radix '+' = none := rfl

theorem fromStrRadix_pair (radix limit high low : Nat) (first second : Char)
    (above : toDigit radix first = some high) (below : toDigit radix second = some low)
    (fits : high * radix + low < limit) :
    fromStrRadix radix limit [first, second] = some (high * radix + low) := by
  have unsigned : withoutPlus [first, second] = [first, second] := by
    unfold withoutPlus
    split
    · next rest same =>
        rw [(List.cons.inj same).1, toDigit_sign] at above
        cases above
    · rfl
  simp [fromStrRadix, unsigned, readDigits, above, below, fits]

theorem toDigit_ten (char : Char) (decimal : char.isDigit = true) :
    toDigit 10 char = some (char.toNat - '0'.toNat) := by
  have range : '0' ≤ char ∧ char ≤ '9' := by
    simp only [Char.isDigit, Bool.and_eq_true, decide_eq_true_eq] at decimal
    exact decimal
  have below : char.toNat - 48 < 10 := by
    have last : char.toNat ≤ 57 := range.2
    omega
  simp only [toDigit, range, and_self, ↓reduceIte]
  exact Option.filter_some_pos (decide_eq_true below)

theorem readDigits_ten (text : List Char) (sofar : Nat)
    (decimal : ∀ char ∈ text, char.isDigit = true) :
    readDigits 10 text sofar = some (Nat.ofDigitChars 10 text sofar) := by
  induction text generalizing sofar with
  | nil => rfl
  | cons char rest ih =>
      obtain ⟨head, tail⟩ := List.forall_mem_cons.mp decimal
      rw [readDigits, toDigit_ten char head, Option.bind_some, ih _ tail]
      simp [Nat.ofDigitChars_cons, Nat.mul_comm]

/-- A number written in decimal is read back if it is below the limit. -/
theorem fromStrRadix_digits (limit number : Nat) (fits : number < limit) :
    fromStrRadix 10 limit (digits number) = some number := by
  have noSign : '+' ∉ digits number := not_mem_digits number '+' rfl
  have unsigned : withoutPlus (digits number) = digits number := by
    unfold withoutPlus
    split
    · next rest same => simp [same] at noSign
    · rfl
  have nonempty : (digits number).isEmpty = false :=
    List.isEmpty_eq_false_iff.mpr (digits_ne_nil number)
  rw [fromStrRadix, unsigned, nonempty, readDigits_ten _ 0 (isDigit_of_mem_digits number), digits,
    Nat.ofDigitChars_ten_toDigits]
  simp [fits]

/-- The two spellings of one sixteenth. -/
theorem toDigit_digitChar (value : Nat) (small : value < 16) :
    toDigit 16 value.digitChar = some value ∧ toDigit 16 value.digitChar.toUpper = some value := by
  have sixteen : ∀ value : Fin 16, toDigit 16 value.val.digitChar = some value.val ∧
      toDigit 16 value.val.digitChar.toUpper = some value.val := by
    decide
  exact sixteen ⟨value, small⟩

/-- The text is the fields with one separator between each two. -/
inductive Joined (separator : Char → Bool) : List (List Char) → List Char → Prop
  | last (field : List Char) : Joined separator [field] field
  | more (field : List Char) (between : Char) (rest : List (List Char)) (text : List Char)
      (separates : separator between = true) (later : Joined separator rest text) :
      Joined separator (field :: rest) (field ++ between :: text)

theorem splitOnP_joined (separator : Char → Bool) (fields : List (List Char)) (text : List Char)
    (joined : Joined separator fields text)
    (free : ∀ field ∈ fields, ∀ char ∈ field, separator char = false) :
    text.splitOnP separator = fields := by
  induction joined with
  | last field => exact List.splitOnP_eq_singleton (free field List.mem_cons_self)
  | more field between rest text separates later ih =>
      have clean := free field List.mem_cons_self
      rw [List.splitOnP_append_cons field text separates, List.splitOnP_eq_singleton clean,
        ih fun other member => free other (List.mem_cons_of_mem field member)]
      rfl

theorem forall₂_append_left (related : Char → Char → Prop) (front back text : List Char)
    (spelled : List.Forall₂ related (front ++ back) text) :
    ∃ first second, text = first ++ second ∧ List.Forall₂ related front first ∧
      List.Forall₂ related back second := by
  induction front generalizing text with
  | nil => exact ⟨[], text, rfl, .nil, spelled⟩
  | cons char rest ih =>
      cases spelled with
      | cons head tail =>
          rcases ih _ tail with ⟨first, second, rfl, same, later⟩
          exact ⟨_ :: first, second, rfl, .cons head same, later⟩

/-- What is spelled character by character like joined fields is joined fields too. -/
theorem joined_of_spelled (related : Char → Char → Prop) (separator : Char → Bool) (between : Char)
    (separates : ∀ char, related between char → separator char = true)
    (fields : List (List Char)) (some_field : fields ≠ []) (text : List Char)
    (spelled : List.Forall₂ related (List.intercalate [between] fields) text) :
    ∃ others, Joined separator others text ∧ List.Forall₂ (List.Forall₂ related) fields others := by
  induction fields generalizing text with
  | nil => exact absurd rfl some_field
  | cons field rest ih =>
      cases rest with
      | nil =>
          rw [List.intercalate_singleton] at spelled
          exact ⟨[text], .last text, .cons spelled .nil⟩
      | cons second later =>
          rw [List.intercalate_cons_cons, List.append_assoc, List.singleton_append] at spelled
          rcases forall₂_append_left related field _ text spelled with ⟨front, back, rfl, same, ends⟩
          cases ends with
          | cons mark tail =>
              rcases ih (List.cons_ne_nil _ _) _ tail with ⟨others, joined, fieldwise⟩
              exact ⟨front :: others, .more front _ others _ (separates _ mark) joined,
                .cons same fieldwise⟩

end L2Switch.RadixText
