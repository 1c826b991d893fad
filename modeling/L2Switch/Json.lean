import Mathlib.Data.Nat.Notation

/-!
Strict JSON text, read by recursive descent: no single quotes, no trailing
commas, nothing but white space around the one value. A number keeps its literal,
so that what it is worth as an integer is decided where it is asked for. `fuel`
bounds the recursion: two units of it pay for at least one character of the text.
-/
namespace L2Switch.Json

inductive Value where
  | null
  | bool (holds : Bool)
  | number (literal : List Char)
  | string (text : String)
  | array (elements : List Value)
  | object (members : List (String × Value))

def isSpace (c : Char) : Bool := c = ' ' || c = '\n' || c = '\t' || c = '\r'

def skipSpace (text : List Char) : List Char := text.dropWhile isSpace

def hexDigit (c : Char) : Option Nat :=
  if '0' ≤ c ∧ c ≤ '9' then some (c.toNat - '0'.toNat)
  else if 'a' ≤ c ∧ c ≤ 'f' then some (c.toNat - 'a'.toNat + 10)
  else if 'A' ≤ c ∧ c ≤ 'F' then some (c.toNat - 'A'.toNat + 10)
  else none

def hexUnit (a b c d : Char) : Option Nat := do
  return (((← hexDigit a) * 16 + (← hexDigit b)) * 16 + (← hexDigit c)) * 16 + (← hexDigit d)

def escaped : Char → Option Char
  | '"' => some '"'
  | '\\' => some '\\'
  | '/' => some '/'
  | 'b' => some '\x08'
  | 'f' => some '\x0c'
  | 'n' => some '\n'
  | 'r' => some '\r'
  | 't' => some '\t'
  | _ => none

/-- What follows the opening quote: the characters up to the closing one. A pair of
surrogates is one character; one surrogate alone is none. -/
def parseChars : List Char → Option (List Char × List Char)
  | [] => none
  | '"' :: rest => some ([], rest)
  | '\\' :: 'u' :: a :: b :: c :: d :: '\\' :: 'u' :: e :: f :: g :: h :: rest => do
      let high ← hexUnit a b c d
      if 0xD800 ≤ high ∧ high ≤ 0xDBFF then
        let low ← hexUnit e f g h
        if 0xDC00 ≤ low ∧ low ≤ 0xDFFF then
          let (chars, after) ← parseChars rest
          return (Char.ofNat (0x10000 + (high - 0xD800) * 0x400 + (low - 0xDC00)) :: chars, after)
        else none
      else if 0xDC00 ≤ high ∧ high ≤ 0xDFFF then none
      else
        let (chars, after) ← parseChars ('\\' :: 'u' :: e :: f :: g :: h :: rest)
        return (Char.ofNat high :: chars, after)
  | '\\' :: 'u' :: a :: b :: c :: d :: rest => do
      let unit ← hexUnit a b c d
      if 0xD800 ≤ unit ∧ unit ≤ 0xDFFF then none
      else
        let (chars, after) ← parseChars rest
        return (Char.ofNat unit :: chars, after)
  | '\\' :: c :: rest => do
      let plain ← escaped c
      let (chars, after) ← parseChars rest
      return (plain :: chars, after)
  | c :: rest =>
      if c.toNat < 0x20 then none
      else do
        let (chars, after) ← parseChars rest
        return (c :: chars, after)

/-- At least one digit. -/
def parseDigits (text : List Char) : Option (List Char × List Char) :=
  match text.span Char.isDigit with
  | ([], _) => none
  | (digits, rest) => some (digits, rest)

/-- A whole part without leading zeros. -/
def parseWhole : List Char → Option (List Char × List Char)
  | '0' :: rest => some (['0'], rest)
  | text => parseDigits text

def parseFraction : List Char → Option (List Char × List Char)
  | '.' :: rest => (parseDigits rest).map fun (digits, rest) => ('.' :: digits, rest)
  | text => some ([], text)

def parseSign : List Char → List Char × List Char
  | '-' :: rest => (['-'], rest)
  | '+' :: rest => (['+'], rest)
  | text => ([], text)

def parseExponent : List Char → Option (List Char × List Char)
  | [] => some ([], [])
  | c :: rest =>
      if c = 'e' ∨ c = 'E' then do
        let (sign, rest) := parseSign rest
        let (digits, rest) ← parseDigits rest
        return (c :: sign ++ digits, rest)
      else some ([], c :: rest)

def parseNumber (text : List Char) : Option (Value × List Char) := do
  let (minus, rest) := match text with
    | '-' :: rest => (['-'], rest)
    | text => ([], text)
  let (whole, rest) ← parseWhole rest
  let (fraction, rest) ← parseFraction rest
  let (exponent, rest) ← parseExponent rest
  return (.number (minus ++ whole ++ fraction ++ exponent), rest)

mutual

def parseValue : Nat → List Char → Option (Value × List Char)
  | 0, _ => none
  | fuel + 1, text =>
      match skipSpace text with
      | 'n' :: 'u' :: 'l' :: 'l' :: rest => some (.null, rest)
      | 't' :: 'r' :: 'u' :: 'e' :: rest => some (.bool true, rest)
      | 'f' :: 'a' :: 'l' :: 's' :: 'e' :: rest => some (.bool false, rest)
      | '"' :: rest => (parseChars rest).map fun (chars, rest) => (.string (.ofList chars), rest)
      | '[' :: rest =>
          match skipSpace rest with
          | ']' :: rest => some (.array [], rest)
          | rest => (parseElements fuel rest).map fun (elements, rest) => (.array elements, rest)
      | '\x7b' :: rest =>
          match skipSpace rest with
          | '\x7d' :: rest => some (.object [], rest)
          | rest => (parseMembers fuel rest).map fun (members, rest) => (.object members, rest)
      | text => parseNumber text

/-- One element or more, up to the closing bracket. -/
def parseElements : Nat → List Char → Option (List Value × List Char)
  | 0, _ => none
  | fuel + 1, text => do
      let (element, rest) ← parseValue fuel text
      match skipSpace rest with
      | ']' :: rest => return ([element], rest)
      | ',' :: rest =>
          let (elements, rest) ← parseElements fuel rest
          return (element :: elements, rest)
      | _ => none

/-- One member or more, up to the closing brace. -/
def parseMembers : Nat → List Char → Option (List (String × Value) × List Char)
  | 0, _ => none
  | fuel + 1, text =>
      match skipSpace text with
      | '"' :: rest => do
          let (name, rest) ← parseChars rest
          match skipSpace rest with
          | ':' :: rest =>
              let (value, rest) ← parseValue fuel rest
              match skipSpace rest with
              | '\x7d' :: rest => return ([(.ofList name, value)], rest)
              | ',' :: rest =>
                  let (members, rest) ← parseMembers fuel rest
                  return ((.ofList name, value) :: members, rest)
              | _ => none
          | _ => none
      | _ => none

end

def parse (text : String) : Option Value :=
  match parseValue (2 * text.toList.length + 2) text.toList with
  | some (value, rest) => if skipSpace rest = [] then some value else none
  | none => none

/-- The last member of that name; null for a name that is missing and for a value
that is no object. -/
def Value.index (value : Value) (name : String) : Value :=
  match value with
  | .object members =>
      match members.reverse.lookup name with
      | some member => member
      | none => .null
  | _ => .null

/-- The value of a literal of digits alone that fits in 64 bits. -/
def Value.asU64 : Value → Option UInt64
  | .number literal =>
      if literal.all Char.isDigit ∧ Nat.ofDigitChars 10 literal 0 < UInt64.size then
        some (.ofNat (Nat.ofDigitChars 10 literal 0))
      else none
  | _ => none

theorem skipSpace_append (front back : List Char) (c : Char) (rest : List Char)
    (skipped : skipSpace front = c :: rest) : skipSpace (front ++ back) = c :: rest ++ back := by
  have cut : (front ++ back).dropWhile isSpace = _ := List.dropWhile_append
  simp only [skipSpace] at skipped ⊢
  rw [cut, skipped]
  rfl

/-- Behind an opening brace only a closing one or a double quote will do. -/
theorem parse_brace_none (text : String) (inside : List Char) (c : Char) (rest : List Char)
    (opened : skipSpace text.toList = '\x7b' :: inside) (next : skipSpace inside = c :: rest)
    (closes : c ≠ '\x7d') (quotes : c ≠ '"') (spaced : isSpace c = false) : parse text = none := by
  have again : skipSpace (c :: rest) = c :: rest := by simp [skipSpace, spaced]
  have members : ∀ fuel, parseMembers fuel (c :: rest) = none := by
    intro fuel
    cases fuel with
    | zero => rfl
    | succ fuel =>
        rw [parseMembers, again]
        split
        · next same => exact absurd (List.cons_eq_cons.mp same).1 quotes
        · rfl
  have value : parseValue (2 * text.toList.length + 2) text.toList = none := by
    rw [parseValue, opened]
    simp only [next]
    split
    · next same => exact absurd (List.cons_eq_cons.mp same).1 closes
    · rw [members]
      rfl
  simp only [parse, value]

example : (parse "\x7b\"id\": 7, \"msg\": [1e2, null]\x7d").map (fun data => (data.index "id").asU64) =
    some (some 7) := by decide +kernel

example : (parse "[1, 2,]").isNone := by decide +kernel

end L2Switch.Json
