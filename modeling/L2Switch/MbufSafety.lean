import L2Switch.MbufRefinement

/-!
The data operations on arguments nobody has checked. A call is safe when no sum,
difference, product or negation leaves its type, when it touches nothing outside the
data room, and when it changes nothing unless it succeeds on a range that is there.
-/
namespace L2Switch.MbufSafety
open BoundedEdits MbufData MbufRefinement WrappingMachine

structure Safe (raw : RteMbuf) (op : MbufOp) : Prop where
  no_overflow : (op.run raw).overflowed = false
  returns : (∃ out, (op.run raw).result = .ok out) ∨
    ((∃ error, (op.run raw).result = .error error) ∧ (op.run raw).state = raw)
  in_range : ∀ out, (op.run raw).result = .ok out → op.edit.Admissible raw.data raw.capacity
  touched : ∀ span ∈ (op.run raw).touched, Room raw span
  outside : ∀ address : Int, address < raw.data_off.toNat ∨ (raw.buf_len.toNat : Int) ≤ address →
    (op.run raw).state.buf address = raw.buf address

/-- A granted extension keeps `pkt_len` a `u32`. -/
def ExtendFits (raw : RteMbuf) (offset len : Nat) : Prop :=
  (0 < len ∧ offset ≤ raw.data_len.toNat ∧ len < raw.capacity - raw.data_len.toNat) →
    raw.pkt_len.toNat + len < 2 ^ 32

/-- The end of what is cut is a `usize`, and `pkt_len` holds as much as is cut. -/
def ShrinkFits (raw : RteMbuf) (offset len : Nat) : Prop :=
  0 < len → offset + len < 2 ^ 64 ∧
    (offset + len ≤ raw.data_len.toNat → len ≤ raw.pkt_len.toNat)

def Guarded (raw : RteMbuf) : MbufOp → Prop
  | .extend offset len => ExtendFits raw offset.toNat len.toNat
  | .shrink offset len => ShrinkFits raw offset.toNat len.toNat
  | .resize offset len =>
      if len < 0 then len ≠ Int64.minValue ∧ ShrinkFits raw offset.toNat len.toInt.natAbs
      else ExtendFits raw offset.toNat len.toInt.natAbs
  | .truncate _ => True
  | .readData _ _ => True
  -- a read looks at `offset` first, a write subtracts it unseen
  | .writeData offset _ => offset.toNat ≤ raw.data_len.toNat
  | .readDataSlice T offset count =>
      offset.toNat < raw.data_len.toNat → offset.toNat + T.size_of.toNat * count.toNat < 2 ^ 64
  | .writeDataSlice offset _ => offset.toNat ≤ raw.data_len.toNat

/-- Handing a result on adds no overflow. -/
theorem returned_overflowed_iff {Value Out : Type} (machine : MbufM Value) (out : Value → Out)
    (raw : RteMbuf) (guard : Prop) (exact_guard : (machine raw).overflowed = false ↔ guard) :
    ((do pure (out (← machine))) raw : Ran RteMbuf BufferError Out).overflowed = false ↔ guard := by
  rw [← exact_guard, bind_run, Ran.andThen]
  split <;> simp

theorem extend_overflowed_iff (raw : RteMbuf) (fits : raw.Fits) (offset len : UInt64) :
    (extend offset len raw).overflowed = false ↔ ExtendFits raw offset.toNat len.toNat := by
  unfold ExtendFits
  by_cases granted : 0 < len.toNat ∧ offset.toNat ≤ raw.data_len.toNat ∧
      len.toNat < raw.capacity - raw.data_len.toNat
  · rw [extend_accepted raw fits offset len granted.1 granted.2.1 granted.2.2]
    simp [granted]
  · rw [extend_refused raw fits offset len granted]
    simp [granted]

theorem shrink_overflowed_iff (raw : RteMbuf) (offset len : UInt64) :
    (shrink offset len raw).overflowed = false ↔ ShrinkFits raw offset.toNat len.toNat := by
  unfold ShrinkFits
  by_cases some_len : 0 < len.toNat
  · by_cases near : offset.toNat + len.toNat < 2 ^ 64
    · by_cases inside : offset.toNat + len.toNat ≤ raw.data_len.toNat
      · rw [shrink_accepted raw offset len some_len inside]
        simp [some_len, near, inside, -Nat.reducePow]
      · rw [shrink_refused raw offset len near fun both => inside both.2]
        simp [near, inside, -Nat.reducePow]
    · have overflows := shrink_overflows raw offset len some_len (Nat.le_of_not_lt near)
      simp [overflows, some_len, near, -Nat.reducePow]
  · rw [shrink_nothing raw offset len (Nat.eq_zero_of_not_pos some_len)]
    simp [some_len]

theorem resize_overflowed_iff (raw : RteMbuf) (fits : raw.Fits) (offset : UInt64) (len : Int64) :
    (resize offset len raw).overflowed = false ↔ Guarded raw (.resize offset len) := by
  rcases toInt_cases len with ⟨negative, size⟩ | ⟨positive, size⟩
  · have smallest : len.toInt = -2 ^ 63 ↔ len = Int64.minValue := by
      rw [← Int64.toInt_minValue, Int64.toInt_inj]
    have shrinks := shrink_overflowed_iff raw offset (-len).toUInt64
    rw [size] at shrinks
    rw [resize_negative raw offset len negative]
    simp only [Ran.after, Bool.or_eq_false_iff, decide_eq_false_iff_not, smallest, shrinks,
      Guarded, negative, ↓reduceIte]
  · have grows := extend_overflowed_iff raw fits offset len.toUInt64
    rw [size] at grows
    rw [resize_positive raw offset len positive, grows]
    simp only [Guarded, positive, ↓reduceIte]

theorem truncate_overflowed_iff (raw : RteMbuf) (to_len : UInt64) :
    (truncate to_len raw).overflowed = false ↔ True := by
  by_cases shorter : to_len.toNat < raw.data_len.toNat
  · simp [truncate_accepted raw to_len shorter]
  · simp [truncate_refused raw to_len shorter]

section Accessing
variable (raw : RteMbuf) (size : MbufM UInt64) (target : Nat) (sized : Sized size target)
  (offset : UInt64)
include sized

theorem read_overflowed_iff :
    (readBytes size target offset raw).overflowed = false ↔
      (offset.toNat < raw.data_len.toNat → offset.toNat + target < 2 ^ 64) := by
  by_cases starts : offset.toNat < raw.data_len.toNat
  · by_cases near : offset.toNat + target < 2 ^ 64
    · by_cases inside : offset.toNat + target ≤ raw.data_len.toNat
      · rw [read_accepted raw size target sized offset starts inside]
        simp [near, -Nat.reducePow]
      · obtain ⟨error, refused⟩ := read_outside raw size target sized offset starts near
          (Nat.lt_of_not_le inside)
        simp [refused, near, -Nat.reducePow]
    · have overflows := read_overflows raw size target sized offset starts (Nat.le_of_not_lt near)
      simp [overflows, starts, near, -Nat.reducePow]
  · rw [read_beyond raw size target offset (Nat.le_of_not_lt starts)]
    simp [starts]

theorem write_overflowed_iff (bytes : List UInt8) (whole : bytes.length = target)
    (small : target < 2 ^ 63) :
    (writeBytes size target bytes offset raw).overflowed = false ↔
      offset.toNat ≤ raw.data_len.toNat := by
  have held := UInt16.toNat_lt raw.data_len
  by_cases near : offset.toNat + target < 2 ^ 64
  · by_cases inside : offset.toNat + target ≤ raw.data_len.toNat
    · have within : offset.toNat ≤ raw.data_len.toNat := Nat.le_of_add_right_le inside
      by_cases starts : offset.toNat < raw.data_len.toNat
      · rw [write_accepted raw size target sized offset bytes starts inside]
        simp [within]
      · have none : bytes = [] := List.eq_nil_of_length_eq_zero (by omega)
        subst none
        rw [write_at_end raw size target sized offset (by omega) (by omega)]
        simp [within]
    · obtain ⟨error, refused⟩ := write_outside raw size target sized offset bytes near
        (Nat.lt_of_not_le inside)
      simp [refused]
  · have overflows := write_overflows raw size target sized offset bytes (Nat.le_of_not_lt near)
    have beyond : ¬ offset.toNat ≤ raw.data_len.toNat := by omega
    simp [overflows, beyond]

end Accessing

theorem overflowed_iff (raw : RteMbuf) (fits : raw.Fits) (op : MbufOp) :
    (op.run raw).overflowed = false ↔ Guarded raw op := by
  cases op with
  | extend offset len =>
      exact returned_overflowed_iff (extend offset len) (fun _ => none) raw _
        (extend_overflowed_iff raw fits offset len)
  | shrink offset len =>
      exact returned_overflowed_iff (shrink offset len) (fun _ => none) raw _
        (shrink_overflowed_iff raw offset len)
  | resize offset len =>
      exact returned_overflowed_iff (resize offset len) (fun _ => none) raw _
        (resize_overflowed_iff raw fits offset len)
  | truncate to_len =>
      exact returned_overflowed_iff (truncate to_len) (fun _ => none) raw _
        (truncate_overflowed_iff raw to_len)
  | readData T offset =>
      have reads := read_overflowed_iff raw _ _ (item_sized T) offset
      have small := T.fits
      have held := UInt16.toNat_lt raw.data_len
      have near : offset.toNat < raw.data_len.toNat → offset.toNat + T.size_of.toNat < 2 ^ 64 := by
        omega
      exact returned_overflowed_iff _ some raw _ (reads.trans (iff_of_true near trivial))
  | writeData offset item =>
      rename_i T
      have whole : item.bytes.length = T.size_of.toNat := by simp [item.whole]
      exact returned_overflowed_iff _ some raw _
        (write_overflowed_iff raw _ _ (item_sized T) offset item.bytes whole T.fits)
  | readDataSlice T offset count =>
      exact returned_overflowed_iff _ some raw _
        (read_overflowed_iff raw _ _ (slice_sized T count) offset)
  | writeDataSlice offset slice =>
      exact returned_overflowed_iff _ some raw _
        (write_overflowed_iff raw _ _ (slice_sized _ _) offset slice.bytes slice.whole
          (slice.whole ▸ slice.fits))

theorem guarded_checks_fit (raw : RteMbuf) (op : MbufOp) (guarded : Guarded raw op) :
    op.ChecksFit raw := by
  have held := UInt16.toNat_lt raw.data_len
  cases op with
  | extend offset len | truncate to_len | readData T offset => trivial
  | shrink offset len => exact fun some_len => (guarded some_len).1
  | resize offset len =>
      intro negative
      simp only [Guarded, negative, ↓reduceIte] at guarded
      by_cases some_len : 0 < len.toInt.natAbs
      · exact (guarded.2 some_len).1
      · have small := UInt64.toNat_lt offset
        omega
  | writeData offset item =>
      have small := item.fits
      simp only [Guarded, MbufOp.ChecksFit] at guarded ⊢
      omega
  | readDataSlice T offset count => exact guarded
  | writeDataSlice offset slice =>
      have small := slice.fits
      simp only [Guarded, MbufOp.ChecksFit] at guarded ⊢
      omega

/-- A call is safe on exactly the arguments that keep its arithmetic in range. -/
theorem safe_iff_guarded (raw : RteMbuf) (fits : raw.Fits) (op : MbufOp) :
    Safe raw op ↔ Guarded raw op := by
  refine ⟨fun safe => (overflowed_iff raw fits op).mp safe.no_overflow, fun guarded => ?_⟩
  have exact_sums := (overflowed_iff raw fits op).mpr guarded
  rcases op_settles raw fits op (guarded_checks_fit raw op guarded) with
    ⟨granted, performs⟩ | ⟨_, refuses⟩
  · obtain ⟨out, result, _⟩ := performs.returned
    exact { no_overflow := exact_sums, returns := Or.inl ⟨out, result⟩
            in_range := fun _ _ => granted.1, touched := performs.touched
            outside := performs.outside }
  · obtain ⟨error, failed⟩ := refuses.failed
    refine { no_overflow := exact_sums, returns := Or.inr ⟨⟨error, failed⟩, refuses.unchanged⟩
             in_range := fun out returned => ?_, touched := refuses.touched
             outside := fun address _ => by rw [refuses.unchanged] }
    rw [failed] at returned
    cases returned

theorem six_bytes_safe_iff : Safe sixBytes (.shrink 5 1) ↔ Guarded sixBytes (.shrink 5 1) :=
  safe_iff_guarded sixBytes (by unfold RteMbuf.Fits; decide) (.shrink 5 1)

/-- The end `usize::MAX + 2` wraps to 1: the check lets the cut pass, and it moves bytes
to in front of the data. -/
theorem wrapped_end_passes : ¬ ∀ (raw : RteMbuf) (op : MbufOp), raw.Fits → Safe raw op := by
  intro claimed
  have safe := claimed sixBytes (.shrink 0xffffffffffffffff 2) (by unfold RteMbuf.Fits; decide)
  have passes : ((MbufOp.shrink 0xffffffffffffffff 2).run sixBytes).result = .ok none := by rfl
  have inside := (safe.in_range none passes).2
  revert inside
  decide

end L2Switch.MbufSafety
