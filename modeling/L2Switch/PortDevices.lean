import Mathlib.Data.List.Forall2
import L2Switch.EalArguments

/-!
Which ports `toEalArgs` hands to the EAL as PCI cards. Its pattern stands between the
grammar of PCI addresses and the decimal ones among them: it takes decimal digits where
an address has hexadecimal ones, of any script, and any of them for the function.
-/
namespace L2Switch.PortDevices
open EalArguments CharPatterns

def isHexDigit (char : Char) : Bool :=
  char.isDigit || ('a' ≤ char && char ≤ 'f') || ('A' ≤ char && char ≤ 'F')

def isOctalDigit (char : Char) : Bool := '0' ≤ char && char ≤ '7'

/-- `domain:bus:device.` with one class for the digits of the three. -/
def busPath (component : CharClass) : List CharClass :=
  List.replicate 4 component ++ [literal ':'] ++ List.replicate 2 component ++ [literal ':']
    ++ List.replicate 2 component ++ [literal '.']

def isPciAddress (device : String) : Bool :=
  isMatch (busPath isHexDigit ++ [isOctalDigit]) device.toList

def wantedArgs (port : PortConfig) : List String :=
  if isPciAddress port.device then ["--pci-whitelist", port.device] else ["--vdev", port.vdev]

theorem pcie_shape (digit : DigitClass) : pcie digit = busPath digit.holds ++ [digit.holds] := rfl

theorem hex_ascii (char : Char) (hex : isHexDigit char = true) : char.toNat < 128 := by
  simp [isHexDigit, Char.isDigit, Char.le_def, UInt32.le_iff_toNat_le] at hex
  have code : char.toNat = char.val.toNat := rfl
  omega

theorem isAlpha_iff (char : Char) :
    char.isAlpha = true ↔
      (65 ≤ char.val ∧ char.val ≤ 90) ∨ (97 ≤ char.val ∧ char.val ≤ 122) := by
  have ranges : char.isAlpha =
      (decide (char.val ≥ 65 ∧ char.val ≤ 90) ||
        (decide (char.val ≥ 97) && decide (char.val ≤ 122))) := rfl
  rw [ranges]
  simp

theorem hex_digit_or_alpha (char : Char) (hex : isHexDigit char = true)
    (notAlpha : char.isAlpha = false) : char.isDigit = true := by
  rw [← Bool.not_eq_true, isAlpha_iff] at notAlpha
  simp [isHexDigit, Char.isDigit, Char.le_def, UInt32.le_iff_toNat_le] at hex notAlpha ⊢
  omega

theorem digit_not_alpha (char : Char) (decimal : char.isDigit = true) : char.isAlpha = false := by
  rw [← Bool.not_eq_true, isAlpha_iff]
  simp [Char.isDigit, UInt32.le_iff_toNat_le] at decimal ⊢
  omega

theorem octal_digit (char : Char) (octal : isOctalDigit char = true) : char.isDigit = true := by
  simp [isOctalDigit, Char.isDigit, Char.le_def, UInt32.le_iff_toNat_le] at octal ⊢
  omega

theorem digit_hex (char : Char) (decimal : char.isDigit = true) : isHexDigit char = true := by
  simp [isHexDigit, decimal]

theorem holds_of_isDigit (digit : DigitClass) (char : Char) (decimal : char.isDigit = true) :
    digit.holds char = true := by
  rw [digit.ascii char (hex_ascii char (digit_hex char decimal)), decimal]

/-- Two classes that relate for the digits relate position by position along the path. -/
theorem busPath_forall₂ (related : CharClass → CharClass → Prop) (first second : CharClass)
    (digits : related first second) (colon : related (literal ':') (literal ':'))
    (dot : related (literal '.') (literal '.')) :
    List.Forall₂ related (busPath first) (busPath second) := by
  simp [busPath, List.replicate, digits, colon, dot]

theorem address_forall₂ (related : CharClass → CharClass → Prop)
    (first second firstLast secondLast : CharClass) (path : List.Forall₂ related (busPath first)
      (busPath second)) (last : related firstLast secondLast) :
    List.Forall₂ related (busPath first ++ [firstLast]) (busPath second ++ [secondLast]) :=
  List.rel_append path (.cons last .nil)

/-- A device named so that decimal digits are enough to tell what it is. -/
def DecimallyNamed (digit : DigitClass) (device : String) : Prop :=
  (isPciAddress device = true → ∀ char ∈ device.toList, char.isAlpha = false) ∧
    (isMatch (pcie digit) device.toList = true →
      (∀ char ∈ device.toList, char.toNat < 128) ∧
        ∀ final ∈ device.toList.getLast?, isOctalDigit final = true)

theorem match_of_address (digit : DigitClass) (text : List Char)
    (address : isMatch (busPath isHexDigit ++ [isOctalDigit]) text = true)
    (noLetter : ∀ char ∈ text, char.isAlpha = false) :
    isMatch (busPath digit.holds ++ [digit.holds]) text = true := by
  refine isMatch_admits (fun char => char.isAlpha = false) _ _ ?_ text noLetter address
  apply address_forall₂
  · apply busPath_forall₂
    · intro char notAlpha hex
      exact holds_of_isDigit digit char (hex_digit_or_alpha char hex notAlpha)
    · exact fun _ _ same => same
    · exact fun _ _ same => same
  · intro char _ octal
    exact holds_of_isDigit digit char (octal_digit char octal)

theorem address_of_match (digit : DigitClass) (text : List Char)
    (matched : isMatch (busPath digit.holds ++ [digit.holds]) text = true)
    (ascii : ∀ char ∈ text, char.toNat < 128)
    (octal : ∀ final ∈ text.getLast?, isOctalDigit final = true) :
    isMatch (busPath isHexDigit ++ [isOctalDigit]) text = true := by
  obtain ⟨front, final, rfl⟩ := isMatch_ends _ _ text matched
  rw [isMatch_append_single] at matched ⊢
  refine ⟨?_, octal final (by simp)⟩
  refine isMatch_admits (fun char => char.toNat < 128) _ _ ?_ front ?_ matched.1
  · apply busPath_forall₂
    · intro char small decimal
      rw [digit.ascii char small] at decimal
      exact digit_hex char decimal
    · exact fun _ _ same => same
    · exact fun _ _ same => same
  · exact fun char member => ascii char (List.mem_append_left [final] member)

/-- An address that the pattern accepts has neither letters nor digits of other scripts. -/
theorem decimal_of_both (digit : DigitClass) (text : List Char)
    (address : isMatch (busPath isHexDigit ++ [isOctalDigit]) text = true)
    (matched : isMatch (busPath digit.holds ++ [digit.holds]) text = true) :
    (∀ char ∈ text, char.isAlpha = false ∧ char.toNat < 128) ∧
      ∀ final ∈ text.getLast?, isOctalDigit final = true := by
  constructor
  · refine all_of_isMatch _ _ _ ?_ text address matched
    have separator : ∀ expected : Char, expected.isAlpha = false → expected.toNat < 128 →
        ∀ char, literal expected char = true → literal expected char = true →
          char.isAlpha = false ∧ char.toNat < 128 := by
      intro expected notAlpha small char same _
      rw [eq_of_beq same]
      exact ⟨notAlpha, small⟩
    apply address_forall₂
    · apply busPath_forall₂
      · intro char hex decimal
        have small := hex_ascii char hex
        rw [digit.ascii char small] at decimal
        exact ⟨digit_not_alpha char decimal, small⟩
      · exact separator ':' rfl (by decide)
      · exact separator '.' rfl (by decide)
    · intro char octal _
      have decimal := octal_digit char octal
      exact ⟨digit_not_alpha char decimal, hex_ascii char (digit_hex char decimal)⟩
  · obtain ⟨front, final, rfl⟩ := isMatch_ends _ _ text address
    rw [isMatch_append_single] at address
    simpa using address.2

theorem match_eq_address_iff (digit : DigitClass) (device : String) :
    isMatch (pcie digit) device.toList = isPciAddress device ↔ DecimallyNamed digit device := by
  rw [DecimallyNamed, isPciAddress, pcie_shape, Bool.eq_iff_iff]
  constructor
  · intro agree
    constructor
    · intro address char member
      exact ((decimal_of_both digit _ address (agree.mpr address)).1 char member).1
    · intro matched
      have both := decimal_of_both digit _ (agree.mp matched) matched
      exact ⟨fun char member => (both.1 char member).2, both.2⟩
  · rintro ⟨noLetter, plain⟩
    constructor
    · intro matched
      exact address_of_match digit _ matched (plain matched).1 (plain matched).2
    · intro address
      exact match_of_address digit _ address (noLetter address)

theorem portArgs_eq_iff (digit : DigitClass) (port : PortConfig) :
    portArgs digit port = wantedArgs port ↔ DecimallyNamed digit port.device := by
  rw [← match_eq_address_iff, portArgs, wantedArgs]
  cases isMatch (pcie digit) port.device.toList <;> cases isPciAddress port.device <;> simp

theorem flatMap_portArgs_iff (digit : DigitClass) (ports : List PortConfig) :
    ports.flatMap (portArgs digit) = ports.flatMap wantedArgs ↔
      ∀ port ∈ ports, portArgs digit port = wantedArgs port := by
  induction ports with
  | nil => simp
  | cons port rest ih =>
      have lengths : (portArgs digit port).length = (wantedArgs port).length := by
        rw [length_portArgs, wantedArgs]
        split <;> rfl
      rw [List.flatMap_cons, List.flatMap_cons, List.forall_mem_cons, ← ih]
      exact ⟨fun same => List.append_inj same lengths, fun both => by rw [both.1, both.2]⟩

/-- Each port is handed over as what it is exactly when the devices' names are plain
enough for a pattern of decimal digits. -/
theorem devices_told_apart_iff (config : RuntimeConfig) (digit : DigitClass) :
    ((config.toEalArgs digit).drop portsAt).take (2 * config.ports.length) =
        config.ports.flatMap wantedArgs ↔
      ∀ port ∈ config.ports, DecimallyNamed digit port.device := by
  rw [toEalArgs_ports, flatMap_portArgs_iff]
  simp only [portArgs_eq_iff]

/-- A card on bus 0a is handed over as a virtual device. -/
theorem bus_ten_virtual :
    ¬ ∀ (config : RuntimeConfig) (digit : DigitClass),
      ((config.toEalArgs digit).drop portsAt).take (2 * config.ports.length) =
        config.ports.flatMap wantedArgs := by
  intro claimed
  have pair := claimed
    { testConfig with ports := [{ device := "0000:0a:00.0", args := none, cores := [⟨1⟩] }] }
    .asciiOnly
  revert pair
  decide +kernel

end L2Switch.PortDevices
