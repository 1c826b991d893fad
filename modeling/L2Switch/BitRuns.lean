import Mathlib.Algebra.Group.Nat.Defs
import Mathlib.Data.Setoid.Basic
import Mathlib.Data.Set.BooleanAlgebra
import Mathlib.Order.CompletePartialOrder

/-!
Words as octets, the most significant one first, and words made of a run of one bits
over a run of zero bits. Masking with such a word rounds a number down to a multiple of
a power of two, so what a masked comparison admits is an interval: a class of an
equivalence that grows coarser as fewer bits are kept.
-/
namespace L2Switch.BitRuns

def fromOctets : List UInt8 → Nat
  | [] => 0
  | octet :: rest => octet.toNat * 256 ^ rest.length + fromOctets rest

def toOctets : Nat → Nat → List UInt8
  | 0, _ => []
  | count + 1, value => UInt8.ofNat (value / 256 ^ count) :: toOctets count (value % 256 ^ count)

@[simp] theorem length_toOctets (count value : Nat) : (toOctets count value).length = count := by
  induction count generalizing value with
  | zero => rfl
  | succ count ih => simp [toOctets, ih]

theorem fromOctets_lt (octets : List UInt8) : fromOctets octets < 256 ^ octets.length := by
  induction octets with
  | nil => simp [fromOctets]
  | cons octet rest ih =>
      have byte : octet.toNat + 1 ≤ 256 := octet.toNat_lt
      have carried := Nat.mul_le_mul_right (256 ^ rest.length) byte
      rw [fromOctets, List.length_cons, Nat.pow_succ, Nat.mul_comm (256 ^ rest.length)]
      rw [Nat.add_mul, Nat.one_mul] at carried
      omega

theorem fromOctets_toOctets (count value : Nat) (fits : value < 256 ^ count) :
    fromOctets (toOctets count value) = value := by
  induction count generalizing value with
  | zero =>
      rw [Nat.pow_zero] at fits
      simp only [toOctets, fromOctets]
      omega
  | succ count ih =>
      have positive : 0 < 256 ^ count := Nat.pow_pos (by decide)
      have top : value / 256 ^ count < 256 := by
        apply (Nat.div_lt_iff_lt_mul positive).mpr
        rwa [Nat.mul_comm, ← Nat.pow_succ]
      rw [toOctets, fromOctets, length_toOctets, ih _ (Nat.mod_lt _ positive), UInt8.toNat_ofNat',
        Nat.mod_eq_of_lt top]
      exact Nat.div_add_mod' value (256 ^ count)

theorem toOctets_fromOctets (octets : List UInt8) :
    toOctets octets.length (fromOctets octets) = octets := by
  induction octets with
  | nil => rfl
  | cons octet rest ih =>
      have below := fromOctets_lt rest
      have positive : 0 < 256 ^ rest.length := Nat.pow_pos (by decide)
      rw [List.length_cons, toOctets, fromOctets, Nat.add_comm, Nat.add_mul_div_right _ _ positive,
        Nat.div_eq_of_lt below, Nat.add_mul_mod_self_right, Nat.mod_eq_of_lt below, ih]
      simp

variable {width : Nat}

def leadingZeros (value : BitVec width) : Nat := value.clz.toNat

def trailingZeros (value : BitVec width) : Nat := value.ctz.toNat

def countZeros (value : BitVec width) : Nat :=
  (List.range width).countP fun index => !value.getLsbD index

def onesAbove (width zeros : Nat) : BitVec width := BitVec.allOnes width <<< zeros

/-- The word begins with so many one bits and has zero bits from there on. -/
def OnesThenZeros (ones : Nat) (value : BitVec width) : Prop :=
  ∀ index < width, value.getMsbD index = decide (index < ones)

instance (ones : Nat) (value : BitVec width) : Decidable (OnesThenZeros ones value) :=
  inferInstanceAs (Decidable (∀ index < width, _))

theorem getLsbD_onesAbove (zeros index : Nat) (inside : index < width) :
    (onesAbove width zeros).getLsbD index = decide (zeros ≤ index) := by
  rw [onesAbove, BitVec.getLsbD_shiftLeft, BitVec.getLsbD_allOnes]
  by_cases low : index < zeros
  · simp [low]
  · simp [low, inside, Nat.le_of_not_lt low]
    omega

theorem onesThenZeros_iff (ones : Nat) (value : BitVec width) :
    OnesThenZeros ones value ↔ value = onesAbove width (width - ones) := by
  constructor
  · intro run
    apply BitVec.eq_of_getMsbD_eq
    intro index inside
    rw [run index inside, BitVec.getMsbD_eq_getLsbD, getLsbD_onesAbove _ _ (by omega)]
    simp [inside]
    omega
  · rintro rfl index inside
    rw [BitVec.getMsbD_eq_getLsbD, getLsbD_onesAbove _ _ (by omega)]
    simp [inside]
    omega

theorem toNat_not_onesAbove (zeros : Nat) (bounded : zeros ≤ width) :
    (~~~onesAbove width zeros).toNat = 2 ^ zeros - 1 := by
  apply Nat.eq_of_testBit_eq
  intro index
  rw [BitVec.testBit_toNat, Nat.testBit_two_pow_sub_one, BitVec.getLsbD_not]
  by_cases inside : index < width
  · rw [getLsbD_onesAbove _ _ inside, ← decide_not]
    simp [inside]
  · have high : ¬ index < zeros := by omega
    simp [inside, high]

theorem toNat_onesAbove_and (zeros : Nat) (value : BitVec width) :
    (onesAbove width zeros &&& value).toNat = value.toNat / 2 ^ zeros * 2 ^ zeros := by
  apply Nat.eq_of_testBit_eq
  intro index
  rw [BitVec.testBit_toNat, BitVec.getLsbD_and, Nat.testBit_mul_two_pow, Nat.testBit_div_two_pow,
    BitVec.testBit_toNat]
  by_cases inside : index < width
  · rw [getLsbD_onesAbove _ _ inside]
    by_cases low : zeros ≤ index
    · rw [Nat.sub_add_cancel low]
    · simp [low]
  · have beyond := BitVec.getLsbD_of_ge value index (Nat.le_of_not_lt inside)
    by_cases low : zeros ≤ index
    · rw [Nat.sub_add_cancel low, beyond]
      simp
    · simp [low, beyond]

/-- Setting the bits below a run of ones adds what they are worth. -/
theorem toNat_and_or_not (zeros : Nat) (bounded : zeros ≤ width) (value : BitVec width) :
    (onesAbove width zeros &&& value ||| ~~~onesAbove width zeros).toNat =
      value.toNat / 2 ^ zeros * 2 ^ zeros + (2 ^ zeros - 1) := by
  have positive := Nat.two_pow_pos zeros
  rw [BitVec.toNat_or, toNat_onesAbove_and, toNat_not_onesAbove zeros bounded, Nat.mul_comm]
  exact (Nat.two_pow_add_eq_or_of_lt (by omega) _).symm

theorem onesAbove_and_eq_iff (zeros : Nat) (left right : BitVec width) :
    onesAbove width zeros &&& left = onesAbove width zeros &&& right ↔
      left.toNat / 2 ^ zeros = right.toNat / 2 ^ zeros := by
  rw [← BitVec.toNat_inj, toNat_onesAbove_and, toNat_onesAbove_and]
  exact Nat.mul_right_cancel_iff (Nat.two_pow_pos zeros)

/-- Two words agree under the mask exactly when their leading bits do. -/
theorem onesAbove_and_eq_iff_bits (ones : Nat) (bounded : ones ≤ width) (left right : BitVec width) :
    onesAbove width (width - ones) &&& left = onesAbove width (width - ones) &&& right ↔
      ∀ index < ones, left.getMsbD index = right.getMsbD index := by
  constructor
  · intro agree index inside
    have bit := congrArg (BitVec.getMsbD · index) agree
    have set : (onesAbove width (width - ones)).getMsbD index = true := by
      rw [BitVec.getMsbD_eq_getLsbD, getLsbD_onesAbove _ _ (by omega)]
      simp
      omega
    simpa [BitVec.getMsbD_and, set] using bit
  · intro agree
    apply BitVec.eq_of_getMsbD_eq
    intro index inside
    have mask := (onesThenZeros_iff ones _).mpr rfl index inside
    rw [BitVec.getMsbD_and, BitVec.getMsbD_and, mask]
    by_cases high : index < ones
    · rw [agree index high]
    · simp [high]

/-- Two numbers round down to the same multiple when one lies in the other's interval. -/
theorem div_eq_iff_between (left right step : Nat) (positive : 0 < step) :
    left / step = right / step ↔
      left / step * step ≤ right ∧ right ≤ left / step * step + (step - 1) := by
  constructor
  · intro same
    rw [same]
    have rounded := Nat.div_add_mod' right step
    have rest := Nat.mod_lt right positive
    omega
  · rintro ⟨above, below⟩
    have low := (Nat.le_div_iff_mul_le positive).mpr above
    have next : right < (left / step + 1) * step := by
      rw [Nat.add_mul]
      omega
    have high := (Nat.div_lt_iff_lt_mul positive).mpr next
    omega

theorem leadingZeros_le (value : BitVec width) : leadingZeros value ≤ width := by
  have bounded := BitVec.le_def.mp (BitVec.clz_le (x := value))
  rwa [BitVec.natCast_eq_ofNat, BitVec.toNat_ofNat, Nat.mod_eq_of_lt Nat.lt_two_pow_self] at bounded

theorem leadingZeros_eq_width_iff (value : BitVec width) :
    leadingZeros value = width ↔ value = 0#(width) := by
  rw [← BitVec.clz_eq_iff_eq_zero, ← BitVec.toNat_inj, BitVec.natCast_eq_ofNat, BitVec.toNat_ofNat,
    Nat.mod_eq_of_lt Nat.lt_two_pow_self]
  rfl

/-- The zero bits over a run of ones are the rest of the word. -/
theorem leadingZeros_of_toNat (value : BitVec width) (ones : Nat) (bounded : ones ≤ width)
    (number : value.toNat = 2 ^ ones - 1) : leadingZeros value = width - ones := by
  cases ones with
  | zero =>
      have zero : value = 0#(width) := BitVec.eq_of_toNat_eq (by simpa using number)
      exact (leadingZeros_eq_width_iff value).mpr zero
  | succ fewer =>
      have larger := Nat.two_pow_pos fewer
      have nonzero : value ≠ 0#(width) := by
        rintro rfl
        rw [BitVec.toNat_zero, Nat.pow_succ] at number
        omega
      have atLeast := BitVec.two_pow_sub_clz_le_toNat_of_ne_zero (x := value) (by omega) nonzero
      have below := BitVec.toNat_lt_two_pow_sub_clz (x := value)
      have upper : 2 ^ (width - 1 - leadingZeros value) < 2 ^ (fewer + 1) := by
        unfold leadingZeros
        omega
      have lower : 2 ^ fewer < 2 ^ (width - leadingZeros value) := by
        unfold leadingZeros
        rw [Nat.pow_succ] at number
        omega
      have upperExponent := (Nat.pow_lt_pow_iff_right (by decide)).mp upper
      have lowerExponent := (Nat.pow_lt_pow_iff_right (by decide)).mp lower
      omega

theorem leadingZeros_not_onesAbove (zeros : Nat) (bounded : zeros ≤ width) :
    leadingZeros (~~~onesAbove width zeros) = width - zeros :=
  leadingZeros_of_toNat _ zeros bounded (toNat_not_onesAbove zeros bounded)

/-- The lowest bits, where they are all zero, count for themselves. -/
theorem countZeros_above (value : BitVec width) (low : Nat) (bounded : low ≤ width)
    (zero : ∀ index < low, value.getLsbD index = false) :
    countZeros value =
      low + (List.range (width - low)).countP fun index => !value.getLsbD (low + index) := by
  have split : List.range width =
      List.range low ++ (List.range (width - low)).map (low + ·) := by
    rw [← List.range_add, Nat.add_sub_cancel' bounded]
  have lowest : (List.range low).countP (fun index => !value.getLsbD index) = low := by
    have all : ∀ index ∈ List.range low, (!value.getLsbD index) = true := by
      intro index member
      simp [zero index (List.mem_range.mp member)]
    rw [List.countP_eq_length.mpr all, List.length_range]
  rw [countZeros, split, List.countP_append, lowest, List.countP_map]
  rfl

theorem trailingZeros_bit (value : BitVec width) (index : Nat) (below : index < trailingZeros value) :
    value.getLsbD index = false :=
  BitVec.getLsbD_false_of_lt_ctz below

theorem ne_zero_of_leadingZeros (value : BitVec width) (positive : 0 < width)
    (leading : leadingZeros value = 0) : value ≠ 0#(width) := by
  intro zero
  rw [(leadingZeros_eq_width_iff value).mpr zero] at leading
  omega

theorem trailingZeros_lt (value : BitVec width) (nonzero : value ≠ 0#(width)) :
    trailingZeros value < width := by
  have bounded := BitVec.lt_def.mp (BitVec.ctz_lt_iff_ne_zero.mpr nonzero)
  rwa [BitVec.natCast_eq_ofNat, BitVec.toNat_ofNat, Nat.mod_eq_of_lt Nat.lt_two_pow_self] at bounded

/-- As many zero bits as trailing ones leave only one bits above those. -/
theorem onesAbove_of_counts (value : BitVec width) (nonzero : value ≠ 0#(width))
    (counts : trailingZeros value = countZeros value) :
    value = onesAbove width (trailingZeros value) := by
  have bounded := trailingZeros_lt value nonzero
  have total := countZeros_above value _ (Nat.le_of_lt bounded) (trailingZeros_bit value)
  have none := List.countP_eq_zero.mp (Nat.left_eq_add.mp (counts.trans total))
  apply BitVec.eq_of_getLsbD_eq
  intro index inside
  rw [getLsbD_onesAbove _ _ inside]
  by_cases low : index < trailingZeros value
  · simpa [trailingZeros_bit value index low] using low
  · have bit := none (index - trailingZeros value) (List.mem_range.mpr (by omega))
    rw [Nat.add_sub_cancel' (Nat.le_of_not_lt low)] at bit
    simpa [Nat.le_of_not_lt low] using bit

theorem onesAbove_ne_zero (zeros : Nat) (below : zeros < width) : onesAbove width zeros ≠ 0#(width) := by
  intro zero
  have bit := getLsbD_onesAbove zeros zeros below
  simp [zero] at bit

theorem leadingZeros_onesAbove (zeros : Nat) (below : zeros < width) :
    leadingZeros (onesAbove width zeros) = 0 := by
  have top : (onesAbove width zeros).getLsbD (width - 1) = true := by
    rw [getLsbD_onesAbove _ _ (by omega)]
    simp
    omega
  exact (BitVec.clz_eq_zero_iff (by omega)).mpr (Nat.ge_two_pow_of_testBit top)

theorem trailingZeros_onesAbove (zeros : Nat) (below : zeros < width) :
    trailingZeros (onesAbove width zeros) = zeros := by
  have nonzero := onesAbove_ne_zero zeros below
  have bounded := trailingZeros_lt _ nonzero
  have lowest : (onesAbove width zeros).getLsbD (trailingZeros (onesAbove width zeros)) = true :=
    BitVec.getLsbD_true_ctz_of_ne_zero nonzero
  rw [getLsbD_onesAbove _ _ bounded, decide_eq_true_eq] at lowest
  rcases Nat.lt_or_eq_of_le lowest with between | same
  · have bit := trailingZeros_bit _ zeros between
    simp [getLsbD_onesAbove _ _ below] at bit
  · exact same.symm

theorem countZeros_onesAbove (zeros : Nat) (bounded : zeros ≤ width) :
    countZeros (onesAbove width zeros) = zeros := by
  rw [countZeros_above _ zeros bounded, List.countP_eq_zero.mpr, Nat.add_zero]
  · intro index member
    have inside := List.mem_range.mp member
    rw [getLsbD_onesAbove _ _ (by omega)]
    simp
  · intro index low
    rw [getLsbD_onesAbove _ _ (by omega)]
    simpa using low

/-- The three counts single out the words of ones over zeros with at least one one. -/
theorem counts_iff (value : BitVec width) (positive : 0 < width) :
    leadingZeros value = 0 ∧ trailingZeros value = countZeros value ↔
      ∃ zeros < width, value = onesAbove width zeros := by
  constructor
  · rintro ⟨leading, counts⟩
    have nonzero := ne_zero_of_leadingZeros value positive leading
    exact ⟨_, trailingZeros_lt value nonzero, onesAbove_of_counts value nonzero counts⟩
  · rintro ⟨zeros, below, rfl⟩
    rw [trailingZeros_onesAbove zeros below, countZeros_onesAbove zeros (Nat.le_of_lt below)]
    exact ⟨leadingZeros_onesAbove zeros below, rfl⟩

section Blocks
universe u
variable {Elem : Type u}

/-- The class of an element at a level. -/
def block (level : Nat → Setoid Elem) (index : Nat) (elem : Elem) : Set Elem :=
  {other | level index elem other}

/-- Every class of a level up to the top one falls apart at each finer level. -/
def Splits (level : Nat → Setoid Elem) (top : Nat) : Prop :=
  ∀ fine coarse, fine < coarse → coarse ≤ top → ∀ elem, ∃ other,
    level coarse elem other ∧ ¬ level fine elem other

variable (level : Nat → Setoid Elem) (coarser : Monotone level)

theorem self_mem_block (index : Nat) (elem : Elem) : elem ∈ block level index elem :=
  (level index).refl elem

include coarser

theorem block_subset (fine coarse : Nat) (below : fine ≤ coarse) (elem other : Elem)
    (related : level coarse other elem) : block level fine elem ⊆ block level coarse other :=
  fun _ member => (level coarse).trans related (coarser below member)

/-- A class covers those that are not coarser and have a member in it. -/
theorem block_subset_iff (top : Nat) (splits : Splits level top) (fine coarse : Nat)
    (within : fine ≤ top) (elem other : Elem) :
    block level fine elem ⊆ block level coarse other ↔ fine ≤ coarse ∧ level coarse other elem := by
  constructor
  · intro covered
    have related : level coarse other elem := covered (self_mem_block level fine elem)
    refine ⟨Nat.le_of_not_lt fun above => ?_, related⟩
    -- the larger class has a member that the smaller one lacks
    obtain ⟨third, mine, apart⟩ := splits coarse fine above within elem
    exact apart ((level coarse).trans ((level coarse).symm related) (covered mine))
  · rintro ⟨below, related⟩
    exact block_subset level coarser fine coarse below elem other related

theorem block_meets_iff (fine coarse : Nat) (below : fine ≤ coarse) (elem other : Elem) :
    (block level fine elem ∩ block level coarse other).Nonempty ↔ level coarse other elem := by
  constructor
  · rintro ⟨third, mine, theirs⟩
    exact (level coarse).trans theirs ((level coarse).symm (coarser below mine))
  · intro related
    exact ⟨elem, self_mem_block level fine elem, related⟩

theorem nested_or_disjoint (first second : Nat) (elem other : Elem) :
    block level first elem ⊆ block level second other ∨
      block level second other ⊆ block level first elem ∨
      Disjoint (block level first elem) (block level second other) := by
  rcases Nat.le_total first second with below | below
  · by_cases related : level second other elem
    · exact Or.inl (block_subset level coarser first second below elem other related)
    · refine Or.inr (Or.inr (Set.disjoint_iff_inter_eq_empty.mpr ?_))
      rwa [← Set.not_nonempty_iff_eq_empty, block_meets_iff level coarser first second below]
  · by_cases related : level first elem other
    · exact Or.inr (Or.inl (block_subset level coarser second first below other elem related))
    · refine Or.inr (Or.inr (Disjoint.symm (Set.disjoint_iff_inter_eq_empty.mpr ?_)))
      rwa [← Set.not_nonempty_iff_eq_empty, block_meets_iff level coarser second first below]

end Blocks
end L2Switch.BitRuns
