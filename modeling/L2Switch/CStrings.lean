import Mathlib.Data.List.Basic

/-!
Text in memory as C reads it: the bytes up to the first zero, which need not be where the
text ends. A Rust string carries no zero of its own; a `CString` is one that does.
-/
namespace L2Switch.CStrings

/-- What C takes for the string at the front of the memory; none if no zero ends it. -/
def cString : List UInt8 → Option (List UInt8)
  | [] => none
  | byte :: rest => if byte = 0 then some [] else (cString rest).map (byte :: ·)

def bytes (text : String) : List UInt8 := text.toByteArray.data.toList

theorem bytes_append (front back : String) : bytes (front ++ back) = bytes front ++ bytes back := by
  simp [bytes, ByteArray.data_append]

/-- The text with its terminator; a text that holds a zero has none. -/
def toCString (text : String) : Option (List UInt8) :=
  if 0 ∈ bytes text then none else some (bytes text ++ [0])

theorem cString_append (front memory : List UInt8) (clean : 0 ∉ front) :
    cString (front ++ memory) = (cString memory).map (front ++ ·) := by
  induction front with
  | nil => simp
  | cons byte rest ih =>
      rw [List.mem_cons, not_or] at clean
      have nonzero : byte ≠ 0 := fun zero => clean.1 zero.symm
      simp only [List.cons_append, cString, nonzero, ↓reduceIte, ih clean.2, Option.map_map]
      rfl

theorem cString_nil_iff (memory : List UInt8) :
    cString memory = some [] ↔ memory.head? = some 0 := by
  cases memory with
  | nil => simp [cString]
  | cons byte rest => by_cases zero : byte = 0 <;> simp [cString, zero]

/-- C reads a text and no more exactly when the byte behind it is a zero. -/
theorem cString_eq_iff (text memory : List UInt8) (clean : 0 ∉ text) :
    cString (text ++ memory) = some text ↔ memory.head? = some 0 := by
  rw [cString_append text memory clean, ← cString_nil_iff]
  simp [Option.map_eq_some_iff]

theorem cString_toCString (text : String) (clean : 0 ∉ bytes text) :
    (toCString text).bind cString = some (bytes text) := by
  rw [toCString, if_neg clean]
  exact (cString_eq_iff _ _ clean).mpr rfl

theorem ofNat_ne_zero (value : Nat) (positive : 0 < value) (small : value < 256) :
    (0 : UInt8) ≠ UInt8.ofNat value := by
  intro zero
  have values := congrArg UInt8.toNat zero
  rw [UInt8.toNat_ofNat_of_lt' small] at values
  exact Nat.ne_of_lt positive values

/-- Only the character zero is encoded with a zero; the bytes of the longer encodings
are marked in their high bits. -/
theorem utf8EncodeChar_clean (char : Char) (visible : char ≠ '\x00') :
    0 ∉ String.utf8EncodeChar char := by
  have positive : 0 < char.val.toNat := by
    refine Nat.pos_of_ne_zero fun zero => visible (Char.ext (UInt32.toNat_inj.mp ?_))
    exact zero
  fun_cases String.utf8EncodeChar with
  | case1 value ascii =>
      rw [List.mem_singleton]
      exact ofNat_ne_zero value positive (Nat.lt_of_le_of_lt ascii (by decide))
  | case2 value =>
      simp only [List.mem_cons, List.not_mem_nil, or_false, not_or]
      exact ⟨ofNat_ne_zero _ (by omega) (by omega), ofNat_ne_zero _ (by omega) (by omega)⟩
  | case3 value =>
      simp only [List.mem_cons, List.not_mem_nil, or_false, not_or]
      exact ⟨ofNat_ne_zero _ (by omega) (by omega), ofNat_ne_zero _ (by omega) (by omega),
        ofNat_ne_zero _ (by omega) (by omega)⟩
  | case4 value =>
      simp only [List.mem_cons, List.not_mem_nil, or_false, not_or]
      exact ⟨ofNat_ne_zero _ (by omega) (by omega), ofNat_ne_zero _ (by omega) (by omega),
        ofNat_ne_zero _ (by omega) (by omega), ofNat_ne_zero _ (by omega) (by omega)⟩

theorem bytes_clean (text : String) (visible : '\x00' ∉ text.toList) : 0 ∉ bytes text := by
  rw [bytes, ← String.utf8Encode_toList, List.utf8Encode, List.toList_data_toByteArray]
  rw [List.mem_flatMap]
  rintro ⟨char, member, zero⟩
  have other : char ≠ '\x00' := fun same => visible (same ▸ member)
  exact utf8EncodeChar_clean char other zero

theorem zero_mem_bytes_iff (text : String) : 0 ∈ bytes text ↔ '\x00' ∈ text.toList := by
  constructor
  · intro zero
    by_contra visible
    exact bytes_clean text visible zero
  · intro member
    rw [bytes, ← String.utf8Encode_toList, List.utf8Encode, List.toList_data_toByteArray,
      List.mem_flatMap]
    exact ⟨'\x00', member, List.mem_singleton.mpr rfl⟩

/-- The bytes of a text read back as that text. -/
theorem fromUTF8_bytes (text : String) :
    String.fromUTF8? (ByteArray.mk (bytes text).toArray) = some text := by
  simp [bytes, String.fromUTF8?, text.isValidUTF8, String.fromUTF8]

end L2Switch.CStrings
