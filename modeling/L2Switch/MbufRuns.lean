import L2Switch.MbufData

/-!
What each data operation's run comes to on a segment that fits: the accepting path, the
refusing ones, and the arguments on which some sum leaves its type.
-/
namespace L2Switch.MbufData
open ByteMemory WrappingMachine

/-- The accesses of one `ptr::copy`; an empty one is skipped. -/
def blockSpans (src dst : Int) (count : Nat) : List Span :=
  if count = 0 then [] else [{ base := src, size := count }, { base := dst, size := count }]

theorem whenPositive_copy (raw : RteMbuf) (machine : MbufM Unit) (src dst : Int) (count : UInt64)
    (copies : machine raw = copy src dst count raw) :
    whenPositive count machine raw =
      { result := .ok (), state := { raw with buf := moved raw.buf src dst count.toNat }
        overflowed := false, touched := blockSpans src dst count.toNat } := by
  by_cases positive : 0 < count
  · have some_byte : count.toNat ≠ 0 := Nat.ne_of_gt (UInt64.lt_iff_toNat_lt.mp positive)
    rw [whenPositive, if_pos positive, copies]
    simp [copy, bind_run, touch, Ran.after, blockSpans, some_byte]
  · have none : count.toNat = 0 := by
      rw [UInt64.lt_iff_toNat_lt] at positive
      exact Nat.eq_zero_of_not_pos positive
    rw [whenPositive, if_neg positive]
    simp [blockSpans, none]

theorem toNat_add_near (left right : UInt64) (near : left.toNat + right.toNat < 2 ^ 64) :
    (left + right).toNat = left.toNat + right.toNat := by
  rw [UInt64.toNat_add]
  omega

theorem toUInt16_exact (number : UInt64) (small : number.toNat < 2 ^ 16) :
    number.toUInt16.toNat = number.toNat := by
  rw [UInt64.toNat_toUInt16, Nat.mod_eq_of_lt small]

theorem toUInt32_exact (number : UInt64) (small : number.toNat < 2 ^ 32) :
    number.toUInt32.toNat = number.toNat := by
  rw [UInt64.toNat_toUInt32, Nat.mod_eq_of_lt small]

theorem lt_dataLen_iff (raw : RteMbuf) (offset : UInt64) :
    offset < raw.data_len.toUInt64 ↔ offset.toNat < raw.data_len.toNat := by
  rw [UInt64.lt_iff_toNat_lt, UInt16.toNat_toUInt64]

theorem le_dataLen_iff (raw : RteMbuf) (offset : UInt64) :
    offset ≤ raw.data_len.toUInt64 ↔ offset.toNat ≤ raw.data_len.toNat := by
  rw [UInt64.le_iff_toNat_le, UInt16.toNat_toUInt64]

theorem end_le_dataLen_iff (raw : RteMbuf) (offset bytes : UInt64)
    (near : offset.toNat + bytes.toNat < 2 ^ 64) :
    offset + bytes ≤ raw.data_len.toUInt64 ↔ offset.toNat + bytes.toNat ≤ raw.data_len.toNat := by
  rw [le_dataLen_iff, toNat_add_near offset bytes near]

section Resizing
variable (raw : RteMbuf) (fits : raw.Fits) (offset len : UInt64)

def extended : RteMbuf :=
  { raw with
    buf := moved raw.buf (raw.data_off.toNat + offset.toNat)
      (raw.data_off.toNat + (offset.toNat + len.toNat)) (raw.data_len.toNat - offset.toNat)
    data_len := raw.data_len + len.toUInt16, pkt_len := raw.pkt_len + len.toUInt32 }

include fits in
theorem extend_accepted (some_len : 0 < len.toNat) (inside : offset.toNat ≤ raw.data_len.toNat)
    (room : len.toNat < raw.capacity - raw.data_len.toNat) :
    extend offset len raw =
      { result := .ok (), state := extended raw offset len
        overflowed := 2 ^ 32 ≤ raw.pkt_len.toNat + len.toNat
        touched := blockSpans (raw.data_off.toNat + offset.toNat)
          (raw.data_off.toNat + (offset.toNat + len.toNat)) (raw.data_len.toNat - offset.toNat) } := by
  obtain ⟨tail, tail_run, tail_len⟩ := tailroom_run raw fits
  have held := UInt16.toNat_lt raw.data_len
  have widened : raw.data_len.toUInt64.toNat = raw.data_len.toNat := UInt16.toNat_toUInt64 _
  have capacity := capacity_lt raw
  have positive : 0 < len := UInt64.lt_iff_toNat_lt.mpr some_len
  have offset_inside := (le_dataLen_iff raw offset).mpr inside
  have len_room : len < tail := UInt64.lt_iff_toNat_lt.mpr (by omega)
  have to_copy : (raw.data_len.toUInt64 - offset).toNat = raw.data_len.toNat - offset.toNat := by
    rw [UInt64.toNat_sub_of_le _ _ offset_inside, widened]
  have target := toNat_add_near offset len (by omega)
  have shift := whenPositive_copy raw
    (do
      let src ← dataAddress offset
      let dst ← dataAddress (← addUsize offset len)
      copy src dst (raw.data_len.toUInt64 - offset))
    (raw.data_off.toNat + offset.toNat) (raw.data_off.toNat + (offset.toNat + len.toNat))
    (raw.data_len.toUInt64 - offset)
    (by simp (disch := omega) [bind_run, dataAddress_run, addUsize_exact, target])
  rw [to_copy] at shift
  have len_u16 := toUInt16_exact len (by omega)
  have len_u32 := toUInt32_exact len (by omega)
  unfold extend
  simp (disch := omega) [bind_run, positive, offset_inside, tail_run, len_room, subUsize_exact,
    shift, addU16_exact, addU32_run, Ran.after, len_u32, extended]

include fits in
theorem extend_refused
    (outside : ¬ (0 < len.toNat ∧ offset.toNat ≤ raw.data_len.toNat ∧
      len.toNat < raw.capacity - raw.data_len.toNat)) :
    extend offset len raw =
      { result := .error .NotResized, state := raw, overflowed := false, touched := [] } := by
  obtain ⟨tail, tail_run, tail_len⟩ := tailroom_run raw fits
  unfold extend
  by_cases positive : 0 < len
  · by_cases offset_inside : offset ≤ raw.data_len.toUInt64
    · have len_full : ¬ len < tail := by
        rw [UInt64.lt_iff_toNat_lt]
        rw [UInt64.lt_iff_toNat_lt] at positive
        rw [le_dataLen_iff] at offset_inside
        simp only [UInt64.toNat_zero] at positive
        omega
      simp [bind_run, positive, offset_inside, tail_run, len_full, fail]
    · simp [bind_run, positive, offset_inside, fail]
  · simp [bind_run, positive, fail]

def shrunk : RteMbuf :=
  { raw with
    buf := moved raw.buf (raw.data_off.toNat + (offset.toNat + len.toNat))
      (raw.data_off.toNat + offset.toNat) (raw.data_len.toNat - offset.toNat - len.toNat)
    data_len := raw.data_len - len.toUInt16, pkt_len := raw.pkt_len - len.toUInt32 }

theorem shrink_accepted (some_len : 0 < len.toNat)
    (inside : offset.toNat + len.toNat ≤ raw.data_len.toNat) :
    shrink offset len raw =
      { result := .ok (), state := shrunk raw offset len
        overflowed := raw.pkt_len.toNat < len.toNat
        touched := blockSpans (raw.data_off.toNat + (offset.toNat + len.toNat))
          (raw.data_off.toNat + offset.toNat) (raw.data_len.toNat - offset.toNat - len.toNat) } := by
  have held := UInt16.toNat_lt raw.data_len
  have widened : raw.data_len.toUInt64.toNat = raw.data_len.toNat := UInt16.toNat_toUInt64 _
  have positive : 0 < len := UInt64.lt_iff_toNat_lt.mpr some_len
  have target := toNat_add_near offset len (by omega)
  have end_inside := (end_le_dataLen_iff raw offset len (by omega)).mpr inside
  have behind : (raw.data_len.toUInt64 - offset).toNat = raw.data_len.toNat - offset.toNat := by
    rw [UInt64.toNat_sub_of_le _ _ ((le_dataLen_iff raw offset).mpr (by omega)), widened]
  have to_copy : (raw.data_len.toUInt64 - offset - len).toNat =
      raw.data_len.toNat - offset.toNat - len.toNat := by
    rw [UInt64.toNat_sub_of_le _ _ (UInt64.le_iff_toNat_le.mpr (by omega)), behind]
  have shift := whenPositive_copy raw
    (do
      let src ← dataAddress (← addUsize offset len)
      let dst ← dataAddress offset
      copy src dst (raw.data_len.toUInt64 - offset - len))
    (raw.data_off.toNat + (offset.toNat + len.toNat)) (raw.data_off.toNat + offset.toNat)
    (raw.data_len.toUInt64 - offset - len)
    (by simp (disch := omega) [bind_run, dataAddress_run, addUsize_exact, target])
  rw [to_copy] at shift
  have len_u16 := toUInt16_exact len (by omega)
  have len_u32 := toUInt32_exact len (by omega)
  unfold shrink
  simp (disch := omega) [bind_run, positive, addUsize_exact, end_inside, subUsize_exact, shift,
    subU16_exact, subU32_run, Ran.after, len_u32, shrunk]

theorem shrink_refused (near : offset.toNat + len.toNat < 2 ^ 64)
    (outside : ¬ (0 < len.toNat ∧ offset.toNat + len.toNat ≤ raw.data_len.toNat)) :
    shrink offset len raw =
      { result := .error .NotResized, state := raw, overflowed := false, touched := [] } := by
  unfold shrink
  by_cases positive : 0 < len
  · have end_outside : ¬ offset + len ≤ raw.data_len.toUInt64 := by
      rw [UInt64.lt_iff_toNat_lt] at positive
      rw [end_le_dataLen_iff raw offset len near]
      simp only [UInt64.toNat_zero] at positive
      omega
    simp (disch := omega) [bind_run, positive, addUsize_exact, end_outside, fail]
  · simp [bind_run, positive, fail]

theorem shrink_nothing (none : len.toNat = 0) :
    shrink offset len raw =
      { result := .error .NotResized, state := raw, overflowed := false, touched := [] } := by
  obtain rfl : len = 0 := UInt64.toNat_inj.mp none
  simp [shrink, bind_run, fail]

theorem shrink_overflows (some_len : 0 < len.toNat) (far : 2 ^ 64 ≤ offset.toNat + len.toNat) :
    (shrink offset len raw).overflowed = true := by
  have positive : 0 < len := UInt64.lt_iff_toNat_lt.mpr some_len
  simp only [shrink, bind_run, positive, decide_true, ensure_true, pure_run, andThen_ok, after_nothing]
  exact bind_overflowed _ _ _ (addUsize_overflows offset len raw far)

end Resizing

theorem truncate_accepted (raw : RteMbuf) (to_len : UInt64)
    (shorter : to_len.toNat < raw.data_len.toNat) :
    truncate to_len raw =
      .quiet () { raw with data_len := to_len.toUInt16, pkt_len := to_len.toUInt32 } := by
  have inside := (lt_dataLen_iff raw to_len).mpr shorter
  simp [truncate, bind_run, inside]

theorem truncate_refused (raw : RteMbuf) (to_len : UInt64)
    (no_shorter : ¬ to_len.toNat < raw.data_len.toNat) :
    truncate to_len raw =
      { result := .error .NotResized, state := raw, overflowed := false, touched := [] } := by
  have outside := mt (lt_dataLen_iff raw to_len).mp no_shorter
  simp [truncate, bind_run, outside, fail]

/-- `size` comes to `target` bytes, or overflows where a `usize` cannot hold them. -/
structure Sized (size : MbufM UInt64) (target : Nat) : Prop where
  holds : target < 2 ^ 64 → ∀ raw, ∃ bytes, size raw = .quiet bytes raw ∧ bytes.toNat = target
  overflows : 2 ^ 64 ≤ target → ∀ raw, (size raw).overflowed = true

theorem item_sized (T : ItemType) : Sized (pure T.size_of) T.size_of.toNat :=
  { holds := fun _ _ => ⟨T.size_of, rfl, rfl⟩
    overflows := fun large => absurd T.fits (by omega) }

theorem slice_sized (T : ItemType) (count : UInt64) :
    Sized (mulUsize T.size_of count) (T.size_of.toNat * count.toNat) where
  holds fits raw := by
    refine ⟨T.size_of * count, mulUsize_exact T.size_of count raw fits, ?_⟩
    rw [UInt64.toNat_mul, Nat.mod_eq_of_lt fits]
  overflows large raw := mulUsize_overflows T.size_of count raw large

section Accessing
variable (raw : RteMbuf) (size : MbufM UInt64) (target : Nat) (sized : Sized size target)
  (offset : UInt64)

/-- Where the data at `offset` stands in the buffer. -/
def spanAt : Span := { base := raw.data_off.toNat + offset.toNat, size := target }

theorem read_beyond (beyond : raw.data_len.toNat ≤ offset.toNat) :
    readBytes size target offset raw =
      { result := .error (.BadOffset offset raw.data_len.toUInt64), state := raw
        overflowed := false, touched := [] } := by
  have outside := mt (lt_dataLen_iff raw offset).mp (Nat.not_lt_of_le beyond)
  simp [readBytes, bind_run, outside, fail]

include sized

theorem read_accepted (starts : offset.toNat < raw.data_len.toNat)
    (inside : offset.toNat + target ≤ raw.data_len.toNat) :
    readBytes size target offset raw =
      { result := .ok (spanAt raw target offset), state := raw, overflowed := false
        touched := [spanAt raw target offset] } := by
  have held := UInt16.toNat_lt raw.data_len
  obtain ⟨bytes, size_run, bytes_eq⟩ := sized.holds (by omega) raw
  have started := (lt_dataLen_iff raw offset).mpr starts
  have ended := (end_le_dataLen_iff raw offset bytes (by omega)).mpr (by omega)
  simp (disch := omega) [readBytes, bind_run, started, size_run, addUsize_exact, ended,
    dataAddress_run, pointTo, touch, Ran.after, spanAt]

theorem read_outside (starts : offset.toNat < raw.data_len.toNat)
    (near : offset.toNat + target < 2 ^ 64) (outside : raw.data_len.toNat < offset.toNat + target) :
    ∃ error, readBytes size target offset raw =
      { result := .error error, state := raw, overflowed := false, touched := [] } := by
  have widened : raw.data_len.toUInt64.toNat = raw.data_len.toNat := UInt16.toNat_toUInt64 _
  obtain ⟨bytes, size_run, bytes_eq⟩ := sized.holds (by omega) raw
  have target_end := toNat_add_near offset bytes (by omega)
  have started := (lt_dataLen_iff raw offset).mpr starts
  have ends_outside := mt (end_le_dataLen_iff raw offset bytes (by omega)).mp (by omega)
  simp (disch := omega) [readBytes, bind_run, started, size_run, addUsize_exact, ends_outside,
    subUsize_exact, fail]

theorem read_overflows (starts : offset.toNat < raw.data_len.toNat)
    (far : 2 ^ 64 ≤ offset.toNat + target) :
    (readBytes size target offset raw).overflowed = true := by
  have started := (lt_dataLen_iff raw offset).mpr starts
  simp only [readBytes, bind_run, dataLen_run, andThen_ok, after_nothing, started, decide_true,
    ensure_true, pure_run]
  -- either the size has overflowed or its sum with the offset does
  by_cases held : target < 2 ^ 64
  · obtain ⟨bytes, size_run, bytes_eq⟩ := sized.holds held raw
    have sum_far : 2 ^ 64 ≤ offset.toNat + bytes.toNat := by omega
    rw [size_run, andThen_ok, after_nothing]
    exact bind_overflowed _ _ _ (addUsize_overflows offset _ raw sum_far)
  · exact bind_overflowed _ _ _ (sized.overflows (by omega) raw)

theorem write_accepted (bytes : List UInt8) (starts : offset.toNat < raw.data_len.toNat)
    (inside : offset.toNat + target ≤ raw.data_len.toNat) :
    writeBytes size target bytes offset raw =
      { result := .ok (spanAt raw target offset)
        state := { raw with buf := stored raw.buf (raw.data_off.toNat + offset.toNat) bytes }
        overflowed := false
        touched := [spanAt raw bytes.length offset, spanAt raw target offset] } := by
  have held := UInt16.toNat_lt raw.data_len
  obtain ⟨written, size_run, written_eq⟩ := sized.holds (by omega) raw
  have ended := (end_le_dataLen_iff raw offset written (by omega)).mpr (by omega)
  have read_back := read_accepted
    { raw with buf := stored raw.buf (raw.data_off.toNat + offset.toNat) bytes } size target sized
    offset starts inside
  simp (disch := omega) [writeBytes, bind_run, size_run, addUsize_exact, ended, dataAddress_run,
    copyNonoverlapping, touch, read_back, Ran.after, spanAt]

/-- Nothing fits behind the last byte, but reading it back is refused. -/
theorem write_at_end (at_end : offset.toNat = raw.data_len.toNat) (empty : target = 0) :
    writeBytes size target [] offset raw =
      { result := .error (.BadOffset offset raw.data_len.toUInt64), state := raw
        overflowed := false, touched := [spanAt raw 0 offset] } := by
  have held := UInt16.toNat_lt raw.data_len
  obtain ⟨written, size_run, written_eq⟩ := sized.holds (by omega) raw
  have ended := (end_le_dataLen_iff raw offset written (by omega)).mpr (by omega)
  have read_back := read_beyond raw size target offset (Nat.le_of_eq at_end.symm)
  simp (disch := omega) [writeBytes, bind_run, size_run, addUsize_exact, ended, dataAddress_run,
    copyNonoverlapping, touch, read_back, Ran.after, spanAt, stored_none]

theorem write_outside (bytes : List UInt8) (near : offset.toNat + target < 2 ^ 64)
    (outside : raw.data_len.toNat < offset.toNat + target) :
    ∃ error, writeBytes size target bytes offset raw =
      { result := .error error, state := raw
        overflowed := raw.data_len.toNat < offset.toNat, touched := [] } := by
  have widened : raw.data_len.toUInt64.toNat = raw.data_len.toNat := UInt16.toNat_toUInt64 _
  obtain ⟨written, size_run, written_eq⟩ := sized.holds (by omega) raw
  have target_end := toNat_add_near offset written (by omega)
  have ends_outside := mt (end_le_dataLen_iff raw offset written (by omega)).mp (by omega)
  simp (disch := omega) [writeBytes, bind_run, size_run, addUsize_exact, ends_outside,
    subUsize_run, fail, Ran.after]

theorem write_overflows (bytes : List UInt8) (far : 2 ^ 64 ≤ offset.toNat + target) :
    (writeBytes size target bytes offset raw).overflowed = true := by
  simp only [writeBytes, bind_run]
  by_cases held : target < 2 ^ 64
  · obtain ⟨written, size_run, written_eq⟩ := sized.holds held raw
    have sum_far : 2 ^ 64 ≤ offset.toNat + written.toNat := by omega
    rw [size_run, andThen_ok, after_nothing]
    exact bind_overflowed _ _ _ (addUsize_overflows offset _ raw sum_far)
  · exact bind_overflowed _ _ _ (sized.overflows (by omega) raw)

end Accessing
end L2Switch.MbufData
