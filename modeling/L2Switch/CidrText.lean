import L2Switch.CidrPrefixes

/-!
Ranges written as text and read back. A range is printed with the length that its mask
has and read with the mask that its length gives, so the round trip depends on whether
the two rules undo each other.
-/
namespace L2Switch.CidrText
open BitRuns CidrPrefixes CidrRanges IpAddr NumberText RadixText

variable {Addr : Type} {bits : Nat}

theorem splitOn_display (codec : AddressText Addr) (cidr : Cidr Addr bits) :
    (cidr.display codec).toList.splitOn '/' =
      [(codec.print cidr.address).toList, digits cidr.length] := by
  have slash : '/' ∉ digits cidr.length := not_mem_digits _ '/' rfl
  have text : (cidr.display codec).toList =
      (codec.print cidr.address).toList ++ '/' :: digits cidr.length := by
    rw [Cidr.display, String.toList_append, String.toList_append, toString_toList]
    simp
  rw [text, List.splitOn_append_cons_self_of_not_mem (codec.print_noSlash _),
    List.splitOn_eq_singleton slash]

theorem mask_ne_zero_iff (cidr : Cidr Addr bits) (free : Nat) (low : FreeBits cidr free) :
    cidr.mask ≠ 0#(bits) ↔ free < bits := by
  rw [low.2]
  rcases Nat.lt_or_eq_of_le low.1 with below | rfl
  · simp [below, onesAbove_ne_zero free below]
  · simp [onesAbove_width]

/-- The mask that the length gives is the range's own unless it has no one bit. -/
theorem new_length_iff (positive : 0 < bits) (cidr : Cidr Addr bits) (free : Nat)
    (low : FreeBits cidr free) :
    Cidr.new cidr.address cidr.length = .ok cidr ↔ free < bits := by
  rw [new_ok_iff, length_of_free cidr free low]
  constructor
  · rintro ⟨_, same⟩
    refine Nat.lt_of_not_le fun empty => ?_
    have mask := congrArg Cidr.mask same
    rw [low.2, Nat.le_antisymm low.1 empty, Nat.sub_self, onesAbove_width] at mask
    exact onesAbove_ne_zero 0 positive mask.symm
  · intro below
    rw [freeOfLength_sub free below, ← low.2]
    exact ⟨Nat.sub_le bits free, rfl⟩

variable [IpAddr Addr bits]

/-- Also a value that `Default` gives. -/
def Constructible (cidr : Cidr Addr bits) : Prop := Constructed cidr ∨ cidr = default

/-- Reading a printed range is making one of its length. -/
theorem fromStr_display (codec : AddressText Addr) (cidr : Cidr Addr bits)
    (narrow : bits < UInt64.size) :
    Cidr.fromStr codec (cidr.display codec) = Cidr.new cidr.address cidr.length := by
  have fits := Nat.lt_of_le_of_lt cidr.length_le narrow
  rw [Cidr.fromStr, splitOn_display]
  simp only [String.ofList_toList, codec.parse_print, fromStrRadix_digits _ _ fits]
  rfl

theorem free_of_constructible (positive : 0 < bits) (cidr : Cidr Addr bits)
    (given : Constructible cidr) : ∃ free, FreeBits cidr free := by
  rcases given with made | rfl
  · obtain ⟨free, _, low⟩ := free_of_constructed positive cidr made
    exact ⟨free, low⟩
  · exact ⟨bits, Nat.le_refl bits, onesAbove_width.symm⟩

theorem reads_back_iff (positive : 0 < bits) (narrow : bits < UInt64.size)
    (codec : AddressText Addr) (cidr : Cidr Addr bits) (given : Constructible cidr) :
    Cidr.fromStr codec (cidr.display codec) = .ok cidr ↔ cidr.mask ≠ 0#(bits) := by
  obtain ⟨free, low⟩ := free_of_constructible positive cidr given
  rw [fromStr_display codec cidr narrow, new_length_iff positive cidr free low,
    mask_ne_zero_iff cidr free low]

/-- A range is read back from its text unless its mask is empty, as the default's is. -/
theorem text_round_trip_iff (family : Family) (codec : AddressText family.Addr)
    (cidr : Cidr family.Addr family.bits) (given : Constructible cidr) :
    Cidr.fromStr codec (cidr.display codec) = .ok cidr ↔ cidr.mask ≠ 0#(family.bits) := by
  have narrow : family.bits < UInt64.size := by
    cases family <;> decide
  exact reads_back_iff family.bits_positive narrow codec cidr given

section DottedQuad

def parseQuad (text : List Char) : Except String Ipv4Addr :=
  match (text.splitOn '.').mapM readDecimal with
  | some [a, b, c, d] =>
      if a < 256 ∧ b < 256 ∧ c < 256 ∧ d < 256 then
        .ok (.new (.ofNat a) (.ofNat b) (.ofNat c) (.ofNat d))
      else .error "invalid IPv4 address syntax"
  | _ => .error "invalid IPv4 address syntax"

def printQuad (address : Ipv4Addr) : List Char :=
  List.intercalate ['.'] ((address.octets.toList.map UInt8.toNat).map digits)

theorem printQuad_piece (address : Ipv4Addr) (char : Char) (other : char.isDigit = false) :
    ∀ piece ∈ (address.octets.toList.map UInt8.toNat).map digits, char ∉ piece := by
  intro piece member
  obtain ⟨number, _, rfl⟩ := List.mem_map.mp member
  exact not_mem_digits number char other

theorem octets_of (address : Ipv4Addr) : ∃ a b c d, address = .new a b c d := by
  obtain ⟨⟨⟨octets⟩, size⟩⟩ := address
  rcases octets with _ | ⟨a, _ | ⟨b, _ | ⟨c, _ | ⟨d, _ | ⟨e, rest⟩⟩⟩⟩⟩
  case cons.cons.cons.cons.nil => exact ⟨a, b, c, d, rfl⟩
  all_goals simp at size

theorem parseQuad_printQuad (address : Ipv4Addr) : parseQuad (printQuad address) = .ok address := by
  obtain ⟨a, b, c, d, rfl⟩ := octets_of address
  have pieces : (printQuad (.new a b c d)).splitOn '.' =
      ((Ipv4Addr.new a b c d).octets.toList.map UInt8.toNat).map digits :=
    List.splitOn_intercalate '.' (printQuad_piece (.new a b c d) '.' rfl) (by simp [Ipv4Addr.new])
  rw [parseQuad, pieces, mapM_readDecimal]
  simpa [Ipv4Addr.new] using ⟨a.toNat_lt, b.toNat_lt, c.toNat_lt, d.toNat_lt⟩

theorem printQuad_noSlash (address : Ipv4Addr) : '/' ∉ printQuad address := by
  intro member
  rcases mem_intercalate '.' _ '/' member with same | ⟨piece, listed, inside⟩
  · cases same
  · exact printQuad_piece address '/' rfl piece listed inside

/-- The text of an IPv4 address: its four octets in decimal. -/
def dottedQuad : AddressText Ipv4Addr where
  print address := .ofList (printQuad address)
  parse text := parseQuad text.toList
  parse_print address := by rw [String.toList_ofList, parseQuad_printQuad]
  print_noSlash address := by rw [String.toList_ofList]; exact printQuad_noSlash address

theorem host_reads_back :
    Cidr.fromStr dottedQuad
        (Cidr.display dottedQuad { address := Ipv4Addr.new 10 0 0 1, mask := onesAbove 32 0 }) =
      .ok { address := Ipv4Addr.new 10 0 0 1, mask := onesAbove 32 0 } ↔
    onesAbove 32 0 ≠ 0#(ipv4AddrBits) :=
  text_round_trip_iff .v4 dottedQuad _ (Or.inl (.new (Ipv4Addr.new 10 0 0 1) 0 _ rfl))

/-- The default range is printed as 0.0.0.0/0, which is read as the range of one address. -/
theorem default_misread :
    ¬ ∀ (family : Family) (codec : AddressText family.Addr) (cidr : Cidr family.Addr family.bits),
      Constructible cidr → Cidr.fromStr codec (cidr.display codec) = .ok cidr := by
  intro claimed
  have back : Cidr.fromStr dottedQuad (Cidr.display dottedQuad (default : Ipv4Cidr)) =
      .ok default :=
    claimed .v4 dottedQuad (default : Ipv4Cidr) (Or.inr rfl)
  revert back
  decide +kernel

end DottedQuad
end L2Switch.CidrText
