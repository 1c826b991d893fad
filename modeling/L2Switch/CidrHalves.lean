import L2Switch.CidrIteration
import L2Switch.CidrNesting

/-!
A range cut in two. One more bit of prefix at the network address gives the lower half and
at the broadcast address the upper one; what the range yields, the lower half yields first
and then the upper one.
-/
namespace L2Switch.CidrHalves
open BitRuns CidrIteration CidrNesting CidrPrefixes CidrRanges CidrText IpAddr WrappingMachine

variable {Addr : Type} {bits : Nat} [IpAddr Addr bits]

/-- The two parts adjoin, make up the range and are iterated one after the other. -/
structure Halves (cidr low high : Cidr Addr bits) : Prop where
  lowest : low.network = cidr.network
  adjoining : (toBits low.broadcast).toNat + 1 = (toBits high.network).toNat
  highest : high.broadcast = cidr.broadcast
  together : addresses low ∪ addresses high = addresses cidr
  apart : Disjoint (addresses low) (addresses high)
  iterated : (∃ all, IteratesOver cidr all) → ∃ front back,
    IteratesOver low front ∧ IteratesOver high back ∧ IteratesOver cidr (front ++ back)

theorem addressesFrom_append (start middle next last : BitVec bits) (before : start ≤ middle)
    (adjoining : middle.toNat + 1 = next.toNat) (after : next ≤ last) :
    (addressesFrom start middle ++ addressesFrom next last : List Addr) =
      addressesFrom start last := by
  have below := BitVec.le_def.mp before
  have above := BitVec.le_def.mp after
  have count : last.toNat + 1 - start.toNat =
      (middle.toNat + 1 - start.toNat) + (last.toNat + 1 - next.toNat) := by omega
  simp only [addressesFrom]
  rw [count, List.range_add, List.map_append, List.map_map]
  congr 1
  apply List.map_congr_left
  intro offset _
  rw [Function.comp, ← Nat.add_assoc, Nat.add_sub_cancel' (by omega), adjoining]

theorem mem_addresses_iff (cidr : Cidr Addr bits) (free : Nat) (low : FreeBits cidr free)
    (address : Addr) : address ∈ addresses cidr ↔
      (toBits cidr.network).toNat ≤ (toBits address).toNat ∧
        (toBits address).toNat ≤ (toBits cidr.broadcast).toNat := by
  rw [addresses, Set.mem_ofPred_eq, contains_iff_between cidr free low, BitVec.le_def,
    BitVec.le_def]

/-- A range with no bit of prefix cannot be iterated: either its size overflows, or the size
is cut to zero and one is taken from it. -/
theorem whole_not_iterated (positive : 0 < bits) (cidr : Cidr Addr bits)
    (low : FreeBits cidr bits) : ¬ ∃ all, IteratesOver cidr all := by
  rintro ⟨all, iterates⟩
  obtain ⟨iterator, built, _⟩ := iterates.answers
  suffices overflowed :
      ((cidr.iter : Machine Unit Empty (CidrIterator bits)) ()).overflowed = true by
    rw [built] at overflowed
    cases overflowed
  by_cases large : 64 ≤ bits
  · exact iter_overflows cidr bits low large ()
  · have small := Nat.lt_of_not_le large
    have size : (UInt64.ofNat (2 ^ bits)).toNat = 2 ^ bits := by
      rw [UInt64.toNat_ofNat', Nat.mod_eq_of_lt (Nat.pow_lt_pow_right (by decide) small)]
    have cut : (BitVec.ofNat bits (2 ^ bits)).toNat < (1#(bits)).toNat := by
      rw [BitVec.toNat_ofNat, BitVec.toNat_ofNat, Nat.mod_self,
        Nat.mod_eq_of_lt (Nat.one_lt_two_pow (Nat.ne_of_gt positive))]
      exact Nat.zero_lt_one
    rw [Cidr.iter, bind_run, size_exact cidr bits low small, andThen_ok, after_nothing,
      CidrIterator.new, size]
    apply bind_overflowed
    rw [subBits_run]
    exact decide_eq_true cut

theorem iterated_iff (positive : 0 < bits) (cidr : Cidr Addr bits) (free : Nat)
    (low : FreeBits cidr free) : (∃ all, IteratesOver cidr all) ↔ free < 64 ∧ free < bits := by
  rcases Nat.lt_or_eq_of_le low.1 with below | rfl
  · rw [iterates_iff_small cidr free low below]
    exact (and_iff_left below).symm
  · exact iff_of_false (whole_not_iterated positive cidr low) fun both => Nat.lt_irrefl _ both.2

/-- The part of a range that holds an address of it, at one bit of prefix more. -/
def part (free : Nat) (address : Addr) : Cidr Addr bits := { address, mask := onesAbove bits free }

section Cutting
variable (cidr : Cidr Addr bits) (free : Nat) (wide : FreeBits cidr (free + 1))
include wide

omit [IpAddr Addr bits] in
theorem new_part (address : Addr) :
    Cidr.new address (cidr.length + 1) = .ok (part free address : Cidr Addr bits) := by
  have bounded := wide.1
  have longer : bits - (free + 1) + 1 = bits - free := by omega
  rw [new_ok_iff, length_of_free cidr (free + 1) wide, longer, freeOfLength_sub free bounded]
  exact ⟨Nat.sub_le bits free, rfl⟩

omit [IpAddr Addr bits] in
theorem part_free (address : Addr) : FreeBits (part free address : Cidr Addr bits) free :=
  ⟨Nat.le_of_succ_le wide.1, rfl⟩

/-- Counted in halves, a range begins at an even number and ends in the odd one behind it. -/
theorem counted_in_halves : ∃ base,
    (toBits cidr.network).toNat = 2 * base * 2 ^ free ∧
      (toBits cidr.broadcast).toNat = (2 * base + 1) * 2 ^ free + (2 ^ free - 1) := by
  have doubled : ∀ base, base * 2 ^ (free + 1) = 2 * base * 2 ^ free := fun base => by
    rw [Nat.pow_succ', ← Nat.mul_assoc, Nat.mul_comm base 2]
  refine ⟨(toBits cidr.address).toNat / 2 ^ (free + 1), ?_, ?_⟩
  · rw [network_of_free cidr (free + 1) wide, doubled]
  · have positive := Nat.two_pow_pos free
    rw [broadcast_of_free cidr (free + 1) wide, doubled, Nat.add_mul, Nat.pow_succ']
    omega

/-- A part begins and ends where the count of its address says. -/
theorem part_bounds (address : Addr) (index : Nat)
    (counted : (toBits address).toNat / 2 ^ free = index) :
    (toBits (part free address : Cidr Addr bits).network).toNat = index * 2 ^ free ∧
      (toBits (part free address : Cidr Addr bits).broadcast).toNat =
        index * 2 ^ free + (2 ^ free - 1) := by
  have low := part_free cidr free wide address
  rw [network_of_free _ free low, broadcast_of_free _ free low, part, counted]
  exact ⟨rfl, rfl⟩

theorem cut_in_halves (positive : 0 < bits) :
    Halves cidr (part free cidr.network) (part free cidr.broadcast) := by
  have blocks := Nat.two_pow_pos free
  obtain ⟨base, network, broadcast⟩ := counted_in_halves cidr free wide
  have first : (toBits cidr.network).toNat / 2 ^ free = 2 * base := by
    rw [network, Nat.mul_div_cancel _ blocks]
  have second : (toBits cidr.broadcast).toNat / 2 ^ free = 2 * base + 1 := by
    rw [broadcast, Nat.mul_comm, Nat.mul_add_div blocks, Nat.div_eq_of_lt (by omega),
      Nat.add_zero]
  obtain ⟨lowNetwork, lowBroadcast⟩ := part_bounds cidr free wide cidr.network _ first
  obtain ⟨highNetwork, highBroadcast⟩ := part_bounds cidr free wide cidr.broadcast _ second
  have lowFree := part_free cidr free wide cidr.network
  have highFree := part_free cidr free wide cidr.broadcast
  have lowest := address_eq_of_toNat _ _ (lowNetwork.trans network.symm)
  have highest := address_eq_of_toNat _ _ (highBroadcast.trans broadcast.symm)
  -- the odd half begins right behind the even one
  have adjoining : 2 * base * 2 ^ free + (2 ^ free - 1) + 1 = (2 * base + 1) * 2 ^ free := by
    rw [Nat.add_mul]
    omega
  rw [← lowBroadcast, ← highNetwork] at adjoining
  refine { lowest, adjoining, highest, together := ?_, apart := ?_, iterated := ?_ }
  · ext address
    rw [Set.mem_union, mem_addresses_iff _ free lowFree, mem_addresses_iff _ free highFree,
      mem_addresses_iff cidr (free + 1) wide]
    omega
  · rw [Set.disjoint_left]
    intro address inLow inHigh
    rw [mem_addresses_iff _ free lowFree] at inLow
    rw [mem_addresses_iff _ free highFree] at inHigh
    omega
  · intro whole
    obtain ⟨small, below⟩ := (iterated_iff positive cidr (free + 1) wide).mp whole
    have joined := @addressesFrom_append Addr bits _ _ _ _ _
      (network_le_broadcast _ free lowFree) adjoining (network_le_broadcast _ free highFree)
    refine ⟨_, _, iterates_over_range _ free lowFree (by omega) (by omega),
      iterates_over_range _ free highFree (by omega) (by omega), ?_⟩
    rw [joined, lowest, highest]
    exact iterates_over_range cidr (free + 1) wide small below

end Cutting

def lastFour : Ipv4Cidr := { address := .new 255 255 255 255, mask := onesAbove 32 2 }

/-- One bit of prefix more cuts a range in two exactly where it has a bit to give. -/
theorem range_cut_iff (family : Family) (cidr : Cidr family.Addr family.bits)
    (given : Constructible cidr) :
    (∃ low high, Cidr.new cidr.network (cidr.length + 1) = .ok low ∧
      Cidr.new cidr.broadcast (cidr.length + 1) = .ok high ∧ Halves cidr low high) ↔
      cidr.length < family.bits := by
  constructor
  · rintro ⟨low, _, accepted, _⟩
    exact (new_accepts_iff cidr.network (cidr.length + 1)).mp ⟨low, accepted⟩
  · intro room
    obtain ⟨free, wide⟩ := free_of_constructible family.bits_positive cidr given
    rw [length_of_free cidr free wide] at room
    obtain ⟨half, rfl⟩ : ∃ half, free = half + 1 := Nat.exists_eq_succ_of_ne_zero (by omega)
    exact ⟨_, _, new_part cidr half wide _, new_part cidr half wide _,
      cut_in_halves cidr half wide family.bits_positive⟩

theorem last_four_cut :
    (∃ low high : Ipv4Cidr,
      Cidr.new (Cidr.network lastFour) (Cidr.length lastFour + 1) = .ok low ∧
        Cidr.new (Cidr.broadcast lastFour) (Cidr.length lastFour + 1) = .ok high ∧
        Halves lastFour low high) ↔ Cidr.length lastFour < 32 :=
  range_cut_iff .v4 lastFour (Or.inl (.new (.new 255 255 255 255) 30 _ rfl))

end L2Switch.CidrHalves
