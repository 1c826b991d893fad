import L2Switch.CidrRanges

/-!
What a range of either family means once its mask is a run of ones over a run of zeros,
which lengths and netmasks give such a range, and which ones do not.
-/
namespace L2Switch.CidrPrefixes
open BitRuns IpAddr CidrRanges RadixText

variable {Addr : Type} {bits : Nat}

/-- A range whose mask leaves so many low bits free. -/
def FreeBits (cidr : Cidr Addr bits) (free : Nat) : Prop :=
  free ≤ bits ∧ cidr.mask = onesAbove bits free

theorem length_of_free (cidr : Cidr Addr bits) (free : Nat) (low : FreeBits cidr free) :
    cidr.length = bits - free := by
  rw [Cidr.length, low.2]
  exact leadingZeros_not_onesAbove free low.1

/-- The bits that `new` leaves free: none for length 0. -/
def freeOfLength (bits length : Nat) : Nat := if length = 0 then 0 else bits - length

theorem freeOfLength_lt (positive : 0 < bits) (length : Nat) : freeOfLength bits length < bits := by
  unfold freeOfLength
  split <;> omega

/-- The length of a mask with a one bit gives the bits it leaves free back. -/
theorem freeOfLength_sub (free : Nat) (below : free < bits) : freeOfLength bits (bits - free) = free := by
  rw [freeOfLength, if_neg (Nat.sub_ne_zero_of_lt below), Nat.sub_sub_self (Nat.le_of_lt below)]

theorem new_ok_iff (address : Addr) (length : Nat) (cidr : Cidr Addr bits) :
    Cidr.new address length = .ok cidr ↔
      length ≤ bits ∧ cidr = { address, mask := onesAbove bits (freeOfLength bits length) } := by
  by_cases zero : length = 0
  · subst zero
    simp [Cidr.new, freeOfLength, onesAbove, eq_comm]
  · by_cases bounded : length ≤ bits
    · simp [Cidr.new, freeOfLength, onesAbove, zero, bounded, eq_comm]
    · simp [Cidr.new, zero, bounded]

theorem free_of_new (address : Addr) (length : Nat) (cidr : Cidr Addr bits)
    (made : Cidr.new address length = .ok cidr) : FreeBits cidr (freeOfLength bits length) := by
  obtain ⟨_, rfl⟩ := (new_ok_iff address length cidr).mp made
  refine ⟨?_, rfl⟩
  unfold freeOfLength
  split <;> omega

theorem new_accepts_iff (address : Addr) (length : Nat) :
    (∃ cidr : Cidr Addr bits, Cidr.new address length = .ok cidr) ↔ length ≤ bits := by
  simp [new_ok_iff]

theorem new_zero_length (address : Addr) (positive : 0 < bits) (cidr : Cidr Addr bits)
    (made : Cidr.new address 0 = .ok cidr) : cidr.length ≠ 0 := by
  have low : FreeBits cidr 0 := free_of_new address 0 cidr made
  rw [length_of_free cidr 0 low]
  omega

variable [IpAddr Addr bits]

section Free
variable (cidr : Cidr Addr bits) (free : Nat) (low : FreeBits cidr free)
include low

theorem network_of_free :
    (toBits cidr.network).toNat = (toBits cidr.address).toNat / 2 ^ free * 2 ^ free := by
  rw [Cidr.network, toBits_ofBits, low.2, toNat_onesAbove_and]

theorem broadcast_of_free :
    (toBits cidr.broadcast).toNat =
      (toBits cidr.address).toNat / 2 ^ free * 2 ^ free + (2 ^ free - 1) := by
  rw [Cidr.broadcast, toBits_ofBits, low.2, toNat_and_or_not free low.1]

theorem contains_of_free (other : Addr) :
    cidr.contains other = true ↔
      (toBits cidr.address).toNat / 2 ^ free = (toBits other).toNat / 2 ^ free := by
  rw [Cidr.contains, beq_iff_eq, low.2, onesAbove_and_eq_iff]

/-- A range holds the addresses from its network address to its broadcast address. -/
theorem contains_iff_between (other : Addr) :
    cidr.contains other = true ↔
      toBits cidr.network ≤ toBits other ∧ toBits other ≤ toBits cidr.broadcast := by
  rw [contains_of_free cidr free low, BitVec.le_def, BitVec.le_def, network_of_free cidr free low,
    broadcast_of_free cidr free low]
  exact div_eq_iff_between _ _ _ (Nat.two_pow_pos free)

end Free

/-- The range holds the addresses that begin as its own address does. -/
theorem contains_iff_leading (cidr : Cidr Addr bits) (ones : Nat) (bounded : ones ≤ bits)
    (mask : cidr.mask = onesAbove bits (bits - ones)) (other : Addr) :
    cidr.contains other = true ↔
      ∀ index < ones, (toBits other).getMsbD index = (toBits cidr.address).getMsbD index := by
  rw [Cidr.contains, beq_iff_eq, mask, onesAbove_and_eq_iff_bits ones bounded]
  simp only [eq_comm]

/-- What a range with a prefix of so many bits should be. -/
structure MeansPrefix (cidr : Cidr Addr bits) (address : Addr) (ones : Nat) : Prop where
  length : cidr.length = ones
  netmask : OnesThenZeros ones (toBits cidr.netmask)
  leading : ∀ other, cidr.contains other = true ↔
    ∀ index < ones, (toBits other).getMsbD index = (toBits address).getMsbD index
  between : ∀ other, cidr.contains other = true ↔
    toBits cidr.network ≤ toBits other ∧ toBits other ≤ toBits cidr.broadcast

/-- `new` takes the lengths up to the width and gives a range of that prefix. -/
def PrefixLaw (address : Addr) (length : Nat) : Prop :=
  ((∃ cidr : Cidr Addr bits, Cidr.new address length = .ok cidr) ↔ length ≤ bits) ∧
    ∀ cidr : Cidr Addr bits, Cidr.new address length = .ok cidr → MeansPrefix cidr address length

theorem new_means_prefix (address : Addr) (length : Nat) (positive : length ≠ 0)
    (cidr : Cidr Addr bits) (made : Cidr.new address length = .ok cidr) :
    MeansPrefix cidr address length := by
  have low := free_of_new address length cidr made
  obtain ⟨bounded, rfl⟩ := (new_ok_iff address length cidr).mp made
  have free : freeOfLength bits length = bits - length := if_neg positive
  rw [free] at low ⊢
  refine ⟨?_, ?_, ?_, ?_⟩
  · rw [length_of_free _ _ low]
    omega
  · rw [Cidr.netmask, toBits_ofBits, onesThenZeros_iff]
  · exact contains_iff_leading _ length bounded rfl
  · exact contains_iff_between _ _ low

theorem prefixLaw_iff (positive : 0 < bits) (address : Addr) (length : Nat) :
    PrefixLaw address length ↔ length ≠ 0 := by
  constructor
  · rintro ⟨_, means⟩ rfl
    obtain ⟨cidr, made⟩ := (new_accepts_iff address 0).mpr (Nat.zero_le bits)
    exact new_zero_length address positive cidr made (means cidr made).length
  · intro nonzero
    exact ⟨new_accepts_iff address length, new_means_prefix address length nonzero⟩

/-- A prefix means what it says exactly when it is not empty. -/
theorem prefix_means_iff (family : Family) (address : family.Addr) (length : Nat) :
    PrefixLaw address length ↔ length ≠ 0 :=
  prefixLaw_iff family.bits_positive address length

/-- The empty prefix gives a range of one address. -/
theorem empty_prefix_is_a_host :
    ¬ ∀ (family : Family) (address : family.Addr) (length : Nat), PrefixLaw address length := by
  intro claimed
  have means := (claimed .v4 (Ipv4Addr.new 10 0 0 0) 0).2 _ rfl
  have length := means.length
  revert length
  decide

/-- `with_netmask` takes the contiguous masks and keeps the mask it was given. -/
def NetmaskLaw (address netmask : Addr) : Prop :=
  ((∃ cidr : Cidr Addr bits, Cidr.withNetmask address netmask = .ok cidr) ↔
      ∃ ones ≤ bits, OnesThenZeros ones (toBits netmask)) ∧
    ∀ cidr : Cidr Addr bits, Cidr.withNetmask address netmask = .ok cidr →
      cidr.netmask = netmask ∧ cidr.address = address ∧
        ∀ other, cidr.contains other = true ↔
          toBits netmask &&& toBits other = toBits netmask &&& toBits address

theorem contiguous_iff (mask : BitVec bits) :
    (∃ ones ≤ bits, OnesThenZeros ones mask) ↔ ∃ free ≤ bits, mask = onesAbove bits free := by
  simp only [onesThenZeros_iff]
  constructor
  · rintro ⟨ones, _, rfl⟩
    exact ⟨bits - ones, Nat.sub_le bits ones, rfl⟩
  · rintro ⟨free, bounded, rfl⟩
    exact ⟨bits - free, Nat.sub_le bits free, by rw [Nat.sub_sub_self bounded]⟩

theorem onesAbove_width : onesAbove bits bits = 0#(bits) := BitVec.shiftLeft_eq_zero (Nat.le_refl bits)

/-- The mask of zeros only is contiguous, but the bit counts do not find a one in it. -/
theorem netmaskLength_ok_iff (positive : 0 < bits) (netmask : Addr) (length : Nat) :
    Cidr.netmaskLength netmask = .ok length ↔
      ∃ free < bits, toBits netmask = onesAbove bits free ∧ length = bits - free := by
  rw [Cidr.netmaskLength]
  constructor
  · intro accepted
    split at accepted
    · rename_i counts
      obtain ⟨free, below, mask⟩ := (counts_iff _ positive).mp counts
      rw [mask, leadingZeros_not_onesAbove free (Nat.le_of_lt below)] at accepted
      exact ⟨free, below, mask, (Except.ok.inj accepted).symm⟩
    · cases accepted
  · rintro ⟨free, below, mask, rfl⟩
    rw [if_pos ((counts_iff _ positive).mpr ⟨free, below, mask⟩), mask,
      leadingZeros_not_onesAbove free (Nat.le_of_lt below)]

theorem withNetmask_ok_iff (positive : 0 < bits) (address netmask : Addr) (cidr : Cidr Addr bits) :
    Cidr.withNetmask address netmask = .ok cidr ↔
      (∃ free < bits, toBits netmask = onesAbove bits free) ∧
        cidr = { address, mask := toBits netmask } := by
  rw [Cidr.withNetmask]
  cases read : Cidr.netmaskLength netmask with
  | error reason =>
      simp only [bind, Except.bind]
      constructor
      · intro made
        cases made
      · rintro ⟨⟨free, below, mask⟩, _⟩
        have accepted := (netmaskLength_ok_iff positive netmask _).mpr ⟨free, below, mask, rfl⟩
        rw [read] at accepted
        cases accepted
  | ok length =>
      obtain ⟨free, below, mask, rfl⟩ := (netmaskLength_ok_iff positive netmask length).mp read
      simp only [bind, Except.bind]
      rw [new_ok_iff, freeOfLength_sub free below, mask]
      exact ⟨fun made => ⟨⟨free, below, rfl⟩, made.2⟩, fun given => ⟨Nat.sub_le bits free, given.2⟩⟩

theorem withNetmask_keeps (positive : 0 < bits) (address netmask : Addr) (cidr : Cidr Addr bits)
    (made : Cidr.withNetmask address netmask = .ok cidr) :
    cidr.netmask = netmask ∧ cidr.address = address ∧
      ∀ other, cidr.contains other = true ↔
        toBits netmask &&& toBits other = toBits netmask &&& toBits address := by
  obtain ⟨_, rfl⟩ := (withNetmask_ok_iff positive address netmask cidr).mp made
  refine ⟨ofBits_toBits netmask, rfl, ?_⟩
  intro other
  rw [Cidr.contains, beq_iff_eq]
  exact eq_comm

theorem withNetmask_accepts_iff (positive : 0 < bits) (address netmask : Addr) :
    (∃ cidr : Cidr Addr bits, Cidr.withNetmask address netmask = .ok cidr) ↔
      ∃ free < bits, toBits netmask = onesAbove bits free := by
  simp [withNetmask_ok_iff positive]

/-- A parsed range comes from `new` or from `with_netmask`. -/
theorem fromStr_cases (codec : AddressText Addr) (text : String) (cidr : Cidr Addr bits)
    (parsed : Cidr.fromStr codec text = .ok cidr) :
    (∃ address length, Cidr.new address length = .ok cidr) ∨
      ∃ address netmask, Cidr.withNetmask address netmask = .ok cidr := by
  unfold Cidr.fromStr at parsed
  split at parsed
  · rename_i addr lenOrNetmask _
    cases first : codec.parse (.ofList addr) with
    | error reason =>
        rw [first] at parsed
        cases parsed
    | ok address =>
        rw [first] at parsed
        cases radix : fromStrRadix 10 UInt64.size lenOrNetmask with
        | some length =>
            rw [radix] at parsed
            exact Or.inl ⟨address, length, parsed⟩
        | none =>
            rw [radix] at parsed
            cases second : codec.parse (.ofList lenOrNetmask) with
            | error reason =>
                rw [second] at parsed
                cases parsed
            | ok netmask =>
                rw [second] at parsed
                exact Or.inr ⟨address, netmask, parsed⟩
  · cases parsed

theorem free_of_withNetmask (positive : 0 < bits) (address netmask : Addr) (cidr : Cidr Addr bits)
    (made : Cidr.withNetmask address netmask = .ok cidr) :
    ∃ free < bits, FreeBits cidr free := by
  obtain ⟨⟨free, below, mask⟩, rfl⟩ := (withNetmask_ok_iff positive address netmask cidr).mp made
  exact ⟨free, below, Nat.le_of_lt below, mask⟩

/-- Every range that was returned has a one bit in its mask, and ones over zeros only. -/
theorem free_of_constructed (positive : 0 < bits) (cidr : Cidr Addr bits)
    (made : Constructed cidr) : ∃ free < bits, FreeBits cidr free := by
  have fromNew : ∀ address length, Cidr.new address length = .ok cidr →
      ∃ free < bits, FreeBits cidr free := by
    intro address length returned
    exact ⟨_, freeOfLength_lt positive length, free_of_new address length cidr returned⟩
  cases made with
  | new address length _ returned => exact fromNew address length returned
  | withNetmask address netmask _ returned =>
      exact free_of_withNetmask positive address netmask cidr returned
  | fromStr codec text _ returned =>
      rcases fromStr_cases codec text cidr returned with ⟨address, length, made⟩ | ⟨_, _, made⟩
      · exact fromNew address length made
      · exact free_of_withNetmask positive _ _ cidr made

theorem netmaskLaw_iff (positive : 0 < bits) (address netmask : Addr) :
    NetmaskLaw address netmask ↔ toBits netmask ≠ 0#(bits) := by
  rw [NetmaskLaw, withNetmask_accepts_iff positive, contiguous_iff]
  constructor
  · rintro ⟨accepts, _⟩ zero
    obtain ⟨free, below, mask⟩ := accepts.mpr ⟨bits, Nat.le_refl bits, zero.trans onesAbove_width.symm⟩
    exact onesAbove_ne_zero free below (mask.symm.trans zero)
  · intro nonzero
    refine ⟨⟨?_, ?_⟩, withNetmask_keeps positive address netmask⟩
    · rintro ⟨free, below, mask⟩
      exact ⟨free, Nat.le_of_lt below, mask⟩
    · rintro ⟨free, bounded, mask⟩
      rcases Nat.lt_or_eq_of_le bounded with below | rfl
      · exact ⟨free, below, mask⟩
      · exact absurd (mask.trans onesAbove_width) nonzero

/-- Netmasks are accepted as they should be with the exception of the empty one. -/
theorem netmask_accepted_iff (family : Family) (address netmask : family.Addr) :
    NetmaskLaw address netmask ↔ toBits netmask ≠ 0#(family.bits) :=
  netmaskLaw_iff family.bits_positive address netmask

theorem empty_netmask_refused :
    ¬ ∀ (family : Family) (address netmask : family.Addr), NetmaskLaw address netmask := by
  intro claimed
  have accepts := (claimed .v4 (Ipv4Addr.new 10 0 0 0) (Ipv4Addr.new 0 0 0 0)).1.mpr
  have refused : Cidr.withNetmask (Ipv4Addr.new 10 0 0 0) (.new 0 0 0 0) =
      .error .invalidPrefixLength := by
    decide +kernel
  obtain ⟨cidr, made⟩ := accepts ⟨0, Nat.zero_le _, by decide +kernel⟩
  cases refused.symm.trans made

end L2Switch.CidrPrefixes
