import L2Switch.CidrText
import L2Switch.BitRuns

/-!
How the ranges of net/cidr lie to each other. A range is the class of its address among
the addresses that agree above its free bits, so two ranges are nested or apart.
-/
namespace L2Switch.CidrNesting
open CidrPrefixes CidrRanges CidrText BitRuns IpAddr

variable {Addr : Type} {bits : Nat} [IpAddr Addr bits]

def addresses (cidr : Cidr Addr bits) : Set Addr := {address | cidr.contains address = true}

/-- Covering, equality and overlap as `length`, `contains` and `network` tell them. -/
structure Compares (first second : Cidr Addr bits) : Prop where
  covers : addresses first ⊆ addresses second ↔
    second.length ≤ first.length ∧ second.contains first.address = true
  same : addresses first = addresses second ↔
    first.length = second.length ∧ first.network = second.network
  overlaps : (addresses first ∩ addresses second).Nonempty ↔
    first.contains second.address = true ∨ second.contains first.address = true
  laminar : addresses first ⊆ addresses second ∨ addresses second ⊆ addresses first ∨
    Disjoint (addresses first) (addresses second)

/-- Addresses that agree above so many free bits. -/
def agree (free : Nat) : Setoid Addr := Setoid.ker fun address => (toBits address).toNat / 2 ^ free

theorem agree_coarser : Monotone (agree : Nat → Setoid Addr) := by
  intro fine coarse below first second related
  obtain ⟨more, rfl⟩ := Nat.exists_eq_add_of_le below
  have same : (toBits first).toNat / 2 ^ fine = (toBits second).toNat / 2 ^ fine := related
  change (toBits first).toNat / 2 ^ (fine + more) = (toBits second).toNat / 2 ^ (fine + more)
  rw [Nat.pow_add, ← Nat.div_div_eq_div_mul, ← Nat.div_div_eq_div_mul, same]

/-- The number with one bit turned over. -/
def turned (value free : Nat) : Nat :=
  (value / 2 ^ free / 2 * 2 + (1 - value / 2 ^ free % 2)) * 2 ^ free

theorem turned_fine (value free : Nat) : turned value free / 2 ^ free ≠ value / 2 ^ free := by
  rw [turned, Nat.mul_div_cancel _ (Nat.two_pow_pos free)]
  omega

theorem turned_coarse (value fine coarse : Nat) (below : fine < coarse) :
    turned value fine / 2 ^ coarse = value / 2 ^ coarse := by
  obtain ⟨more, rfl⟩ := Nat.exists_eq_add_of_lt below
  have next : turned value fine / 2 ^ fine / 2 = value / 2 ^ fine / 2 := by
    rw [turned, Nat.mul_div_cancel _ (Nat.two_pow_pos fine)]
    omega
  rw [show fine + more + 1 = fine + 1 + more by omega, Nat.pow_add, Nat.pow_succ,
    ← Nat.div_div_eq_div_mul, ← Nat.div_div_eq_div_mul, next, Nat.div_div_eq_div_mul,
    Nat.div_div_eq_div_mul, Nat.mul_assoc]

theorem agree_splits : Splits (agree : Nat → Setoid Addr) bits := by
  intro fine coarse below within address
  have small : turned (toBits address).toNat fine < 2 ^ bits := by
    have top := turned_coarse (toBits address).toNat fine bits (Nat.lt_of_lt_of_le below within)
    rw [Nat.div_eq_of_lt (toBits address).isLt] at top
    exact (Nat.div_eq_zero_iff_lt (Nat.two_pow_pos bits)).mp top
  refine ⟨ofBits (BitVec.ofNat bits (turned (toBits address).toNat fine)), ?_, ?_⟩
  · change (toBits address).toNat / 2 ^ coarse = _
    simp only [toBits_ofBits, BitVec.toNat_ofNat, Nat.mod_eq_of_lt small]
    exact (turned_coarse _ fine coarse below).symm
  · intro related
    have same : (toBits address).toNat / 2 ^ fine =
        (toBits (ofBits (BitVec.ofNat bits (turned (toBits address).toNat fine)) : Addr)).toNat /
          2 ^ fine :=
      related
    simp only [toBits_ofBits, BitVec.toNat_ofNat, Nat.mod_eq_of_lt small] at same
    exact turned_fine _ fine same.symm

theorem contains_iff_agree (cidr : Cidr Addr bits) (free : Nat) (low : FreeBits cidr free)
    (other : Addr) : cidr.contains other = true ↔ agree free cidr.address other :=
  contains_of_free cidr free low other

theorem addresses_eq_block (cidr : Cidr Addr bits) (free : Nat) (low : FreeBits cidr free) :
    addresses cidr = block agree free cidr.address := by
  ext other
  exact contains_iff_agree cidr free low other

theorem network_eq_iff (first second : Cidr Addr bits) (free : Nat) (low : FreeBits first free)
    (low' : FreeBits second free) :
    first.network = second.network ↔ agree free first.address second.address := by
  have inj : first.network = second.network ↔
      (toBits first.network).toNat = (toBits second.network).toNat :=
    ⟨fun same => by rw [same], address_eq_of_toNat first.network second.network⟩
  rw [inj, network_of_free first free low, network_of_free second free low']
  exact Nat.mul_left_inj (Nat.ne_of_gt (Nat.two_pow_pos free))

theorem covers_iff (first second : Cidr Addr bits) (free free' : Nat)
    (low : FreeBits first free) (low' : FreeBits second free') :
    addresses first ⊆ addresses second ↔ free ≤ free' ∧ agree free' second.address first.address := by
  rw [addresses_eq_block first free low, addresses_eq_block second free' low',
    block_subset_iff agree agree_coarser bits agree_splits free free' low.1]

/-- Two ranges meet where one of them holds the address of the other. -/
theorem overlaps_iff (first second : Cidr Addr bits) (free free' : Nat)
    (low : FreeBits first free) (low' : FreeBits second free') (below : free ≤ free') :
    (addresses first ∩ addresses second).Nonempty ↔
      first.contains second.address = true ∨ second.contains first.address = true := by
  rw [addresses_eq_block first free low, addresses_eq_block second free' low',
    block_meets_iff agree agree_coarser free free' below, contains_iff_agree first free low,
    contains_iff_agree second free' low']
  constructor
  · intro related
    exact Or.inr related
  · rintro (related | related)
    · exact (agree free').symm (agree_coarser below related)
    · exact related

theorem same_iff (first second : Cidr Addr bits) (free free' : Nat)
    (low : FreeBits first free) (low' : FreeBits second free') :
    addresses first = addresses second ↔
      first.length = second.length ∧ first.network = second.network := by
  have bounded := low.1
  have bounded' := low'.1
  rw [Set.Subset.antisymm_iff, covers_iff first second free free' low low',
    covers_iff second first free' free low' low, length_of_free first free low,
    length_of_free second free' low']
  constructor
  · rintro ⟨⟨below, _⟩, above, related⟩
    obtain rfl := Nat.le_antisymm below above
    exact ⟨rfl, (network_eq_iff first second free low low').mpr related⟩
  · rintro ⟨lengths, networks⟩
    obtain rfl : free = free' := by omega
    have related := (network_eq_iff first second free low low').mp networks
    exact ⟨⟨Nat.le_refl free, (agree free).symm related⟩, Nat.le_refl free, related⟩

theorem compares_of_free (first second : Cidr Addr bits) (free free' : Nat)
    (low : FreeBits first free) (low' : FreeBits second free') : Compares first second := by
  have bounded := low.1
  have bounded' := low'.1
  refine { covers := ?_, same := same_iff first second free free' low low'
           overlaps := ?_, laminar := ?_ }
  · rw [covers_iff first second free free' low low', contains_iff_agree second free' low',
      length_of_free first free low, length_of_free second free' low']
    refine and_congr_left fun _ => ?_
    omega
  · rcases Nat.le_total free free' with below | below
    · exact overlaps_iff first second free free' low low' below
    · rw [Set.inter_comm, or_comm]
      exact overlaps_iff second first free' free low' low below
  · rw [addresses_eq_block first free low, addresses_eq_block second free' low']
    exact nested_or_disjoint agree agree_coarser free free' _ _

/-- Of any two ranges the public constructors give, one holds the other or they are apart;
length, network and address tell which. -/
theorem ranges_compare (family : Family) (first second : Cidr family.Addr family.bits)
    (given : Constructible first) (given' : Constructible second) : Compares first second := by
  obtain ⟨free, low⟩ := free_of_constructible family.bits_positive first given
  obtain ⟨free', low'⟩ := free_of_constructible family.bits_positive second given'
  exact compares_of_free first second free free' low low'

def host : Ipv4Cidr := { address := .new 10 0 0 1, mask := BitVec.allOnes 32 }

theorem host_and_default_compare :
    Constructible host ∧ Constructible (default : Ipv4Cidr) ∧ Compares host default := by
  have given : Constructible host := Or.inl (.new (.new 10 0 0 1) 32 host rfl)
  exact ⟨given, Or.inr rfl, ranges_compare .v4 host default given (Or.inr rfl)⟩

end L2Switch.CidrNesting
