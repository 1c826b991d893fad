import L2Switch.Addresses
import L2Switch.RadixText

/-!
The text of a MAC address in net/mac.rs. `from_str` drops the fields it cannot read and
counts the others, so it accepts a text exactly when six of its fields are hexadecimal
bytes, whatever else stands between them.
-/
namespace L2Switch.MacText
open RadixText

/-- `{:02x}` -/
def hexPair (byte : UInt8) : List Char := (Nat.toDigits 16 byte.toNat).leftpad 2 '0'

def display (mac : MacAddr) : String :=
  .ofList (List.intercalate [':'] (mac.octets.toList.map hexPair))

inductive MacParseError where
  | malformed (text : String)
  deriving DecidableEq

def isSeparator (char : Char) : Bool := char == ':' || char == '-'

def fields (text : String) : List (List Char) := text.toList.splitOnP isSeparator

/-- `u8::from_str_radix(s, 16)` -/
def readByte (field : List Char) : Option UInt8 := (fromStrRadix 16 256 field).map UInt8.ofNat

def fromStr (s : String) : Except MacParseError MacAddr :=
  let u8s := (fields s).filterMap readByte
  if six : u8s.length = 6 then .ok ⟨⟨u8s.toArray, six⟩⟩ else .error (.malformed s)

theorem fromStr_ok_iff (s : String) (mac : MacAddr) :
    fromStr s = .ok mac ↔ (fields s).filterMap readByte = mac.octets.toList := by
  rcases mac with ⟨octets⟩
  by_cases six : ((fields s).filterMap readByte).length = 6
  · rw [fromStr, dif_pos six, Except.ok.injEq, MacAddr.mk.injEq, ← Vector.toList_inj]
    rfl
  · rw [fromStr, dif_neg six]
    constructor
    · intro parsed
      cases parsed
    · intro read
      rw [read, Vector.length_toList] at six
      exact absurd rfl six

/-- Reading each item gives these values exactly when no item is left out. -/
theorem map_some_iff {Item Value : Type} (read : Item → Option Value) (items : List Item)
    (values : List Value) :
    items.map read = values.map some ↔
      items.filterMap read = values ∧ ∀ item ∈ items, (read item).isSome = true := by
  induction items generalizing values with
  | nil => cases values <;> simp
  | cons item rest ih =>
      cases found : read item with
      | none =>
          cases values <;> simp [found]
      | some value =>
          cases values with
          | nil => simp [found]
          | cons first others =>
              rw [List.map_cons, List.map_cons, found, List.filterMap_cons_some found,
                List.cons.injEq, ih, List.cons.injEq, Option.some.injEq, List.forall_mem_cons, found]
              simp [and_assoc]

/-- The text is accepted exactly when it has six fields that are hexadecimal bytes, and
then these are the octets. -/
def ReadsExactly (s : String) : Prop :=
  ∀ mac : MacAddr, fromStr s = .ok mac ↔ (fields s).map readByte = mac.octets.toList.map some

/-- Six fields are hexadecimal bytes and another one is not. -/
def HidesField (s : String) : Prop :=
  (fields s).countP (fun field => (readByte field).isSome) = 6 ∧
    ∃ field ∈ fields s, readByte field = none

instance (s : String) : Decidable (HidesField s) := inferInstanceAs (Decidable (_ ∧ _))

theorem hidden_field_accepted (s : String) (hides : HidesField s) : ¬ ReadsExactly s := by
  rintro exact
  rcases hides with ⟨six, field, member, unreadable⟩
  rw [← List.length_filterMap_eq_countP] at six
  have accepted := (fromStr_ok_iff s ⟨⟨((fields s).filterMap readByte).toArray, six⟩⟩).mpr rfl
  have all := ((map_some_iff readByte _ _).mp ((exact _).mp accepted)).2 field member
  rw [unreadable] at all
  cases all

theorem reads_exactly_iff (s : String) : ReadsExactly s ↔ ¬ HidesField s := by
  constructor
  · exact fun exact hides => hidden_field_accepted s hides exact
  · intro plain mac
    rw [fromStr_ok_iff, map_some_iff]
    constructor
    · intro read
      have six : (fields s).countP (fun field => (readByte field).isSome) = 6 := by
        rw [← List.length_filterMap_eq_countP, read, Vector.length_toList]
      refine ⟨read, fun field member => ?_⟩
      rw [Option.isSome_iff_ne_none]
      exact fun unreadable => plain ⟨six, field, member, unreadable⟩
    · exact And.left

/-- A seventh field that is no byte is ignored. -/
theorem seventh_field_ignored : ¬ ∀ s : String, ReadsExactly s := by
  intro claimed
  exact hidden_field_accepted "00:11:22:33:44:55:zz" (by decide +kernel) (claimed _)

theorem hexPair_digits (byte : UInt8) :
    hexPair byte = [(byte.toNat / 16).digitChar, (byte.toNat % 16).digitChar] := by
  have small := byte.toNat_lt
  unfold hexPair
  by_cases single : byte.toNat < 16
  · rw [Nat.toDigits_of_lt_base single, Nat.div_eq_of_lt single, Nat.mod_eq_of_lt single]
    rfl
  · have above : byte.toNat / 16 < 16 := by omega
    rw [Nat.toDigits_of_base_le (by decide) (Nat.le_of_not_lt single),
      Nat.toDigits_of_lt_base above]
    rfl

/-- One character of a printed address as it may be written instead. -/
def Respells (printed written : Char) : Prop :=
  written = printed ∨ written = printed.toUpper ∨ (printed = ':' ∧ written = '-')

instance (printed written : Char) : Decidable (Respells printed written) :=
  inferInstanceAs (Decidable (_ ∨ _))

theorem respelled_separator (written : Char) (respells : Respells ':' written) :
    isSeparator written = true := by
  rcases respells with rfl | rfl | ⟨_, rfl⟩ <;> rfl

theorem respelled_digit (value : Nat) (small : value < 16) (written : Char)
    (respells : Respells value.digitChar written) : toDigit 16 written = some value := by
  have both := toDigit_digitChar value small
  rcases respells with rfl | rfl | ⟨colon, _⟩
  · exact both.1
  · exact both.2
  · rw [colon] at both
    cases both.1

theorem separator_no_digit (char : Char) (value : Nat) (digit : toDigit 16 char = some value) :
    isSeparator char = false := by
  rw [← Bool.not_eq_true]
  intro separates
  rw [isSeparator, Bool.or_eq_true, beq_iff_eq, beq_iff_eq] at separates
  rcases separates with rfl | rfl <;> cases digit

theorem respelled_pair (byte : UInt8) (field : List Char)
    (respelled : List.Forall₂ Respells (hexPair byte) field) :
    readByte field = some byte ∧ ∀ char ∈ field, isSeparator char = false := by
  have small := byte.toNat_lt
  rw [hexPair_digits] at respelled
  rcases List.forall₂_cons_left_iff.mp respelled with ⟨first, rest, head, tail, rfl⟩
  rcases List.forall₂_cons_left_iff.mp tail with ⟨second, others, middle, ended, rfl⟩
  rw [List.forall₂_nil_left_iff] at ended
  subst ended
  have high := respelled_digit _ (by omega) first head
  have low := respelled_digit _ (Nat.mod_lt _ (by decide)) second middle
  constructor
  · have whole : byte.toNat / 16 * 16 + byte.toNat % 16 = byte.toNat := Nat.div_add_mod' _ 16
    rw [readByte, fromStrRadix_pair 16 256 _ _ first second high low (by omega), whole]
    simp
  · intro char member
    rcases List.mem_cons.mp member with rfl | member
    · exact separator_no_digit char _ high
    · rw [List.mem_singleton.mp member]
      exact separator_no_digit second _ low

theorem respelled_fields (octets : List UInt8) (written : List (List Char))
    (respelled : List.Forall₂ (List.Forall₂ Respells) (octets.map hexPair) written) :
    written.filterMap readByte = octets ∧
      ∀ field ∈ written, ∀ char ∈ field, isSeparator char = false := by
  induction octets generalizing written with
  | nil =>
      cases respelled
      exact ⟨rfl, List.forall_mem_nil _⟩
  | cons octet rest ih =>
      cases respelled with
      | cons head tail =>
          have pair := respelled_pair octet _ head
          have later := ih _ tail
          exact ⟨by rw [List.filterMap_cons_some pair.1, later.1],
            List.forall_mem_cons.mpr ⟨pair.2, later.2⟩⟩

/-- An address is read back from its printed form, and from that form with any of the
colons written as dashes and any of the letters in upper case. -/
theorem read_back_respelled (mac : MacAddr) :
    fromStr (display mac) = .ok mac ∧
      ∀ text : String, List.Forall₂ Respells (display mac).toList text.toList →
        fromStr text = .ok mac := by
  have respelled : ∀ text : String, List.Forall₂ Respells (display mac).toList text.toList →
      fromStr text = .ok mac := by
    intro text spelled
    have nonempty : mac.octets.toList.map hexPair ≠ [] := by
      rw [← List.length_pos_iff, List.length_map, Vector.length_toList]
      decide
    rw [display, String.toList_ofList] at spelled
    rcases joined_of_spelled Respells isSeparator ':' respelled_separator _ nonempty _ spelled with
      ⟨written, joined, fieldwise⟩
    have read := respelled_fields mac.octets.toList written fieldwise
    rw [fromStr_ok_iff, fields, splitOnP_joined isSeparator written text.toList joined read.2]
    exact read.1
  exact ⟨respelled _ (List.forall₂_same.mpr fun _ _ => Or.inl rfl), respelled⟩

theorem mixed_spelling_read :
    fromStr (display (.new 0x12 0x34 0x56 0xab 0xcd 0xef)) = .ok (.new 0x12 0x34 0x56 0xab 0xcd 0xef) ∧
      fromStr "12-34:56-AB:cD-Ef" = .ok (.new 0x12 0x34 0x56 0xab 0xcd 0xef) :=
  have both := read_back_respelled (.new 0x12 0x34 0x56 0xab 0xcd 0xef)
  ⟨both.1, both.2 _ (by decide +kernel)⟩

end L2Switch.MacText
