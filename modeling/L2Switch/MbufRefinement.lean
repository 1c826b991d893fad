import L2Switch.BoundedLists
import L2Switch.Histories
import L2Switch.MbufRuns

/-!
The data operations of a segment as edits of a bounded byte list. An operation whose
checks do not wrap either performs its edit or refuses it and leaves the segment alone.
-/
namespace L2Switch.MbufRefinement
open BoundedEdits ByteMemory Histories MbufData WrappingMachine

inductive MbufOp where
  | extend (offset len : UInt64)
  | shrink (offset len : UInt64)
  | resize (offset : UInt64) (len : Int64)
  | truncate (to_len : UInt64)
  | readData (T : ItemType) (offset : UInt64)
  | writeData {T : ItemType} (offset : UInt64) (item : Items T 1)
  | readDataSlice (T : ItemType) (offset count : UInt64)
  | writeDataSlice {T : ItemType} {count : UInt64} (offset : UInt64) (slice : Items T count)

/-- The pointer a call returns, if it is one that returns a pointer. -/
def MbufOp.run : MbufOp → MbufM (Option Span)
  | .extend offset len => do MbufData.extend offset len; pure none
  | .shrink offset len => do MbufData.shrink offset len; pure none
  | .resize offset len => do MbufData.resize offset len; pure none
  | .truncate to_len => do MbufData.truncate to_len; pure none
  | .readData T offset => do pure (some (← MbufData.readData T offset))
  | .writeData offset item => do pure (some (← MbufData.writeData offset item))
  | .readDataSlice T offset count => do pure (some (← MbufData.readDataSlice T offset count))
  | .writeDataSlice offset slice => do pure (some (← MbufData.writeDataSlice offset slice))

def MbufOp.edit : MbufOp → Edit UInt8
  | .extend offset len => .gap offset.toNat len.toNat
  | .shrink offset len => .cut offset.toNat len.toNat
  | .resize offset len =>
      if len < 0 then .cut offset.toNat len.toInt.natAbs else .gap offset.toNat len.toInt.natAbs
  | .truncate to_len => .keep to_len.toNat
  | .readData T offset => .read offset.toNat T.size_of.toNat
  | .writeData offset item => .overwrite offset.toNat item.bytes
  | .readDataSlice T offset count => .read offset.toNat (T.size_of.toNat * count.toNat)
  | .writeDataSlice offset slice => .overwrite offset.toNat slice.bytes

/-- No sum that a check compares wraps. -/
def MbufOp.ChecksFit (raw : RteMbuf) : MbufOp → Prop
  | .extend _ _ => True
  | .shrink offset len => 0 < len.toNat → offset.toNat + len.toNat < 2 ^ 64
  | .resize offset len => len < 0 → offset.toNat + len.toInt.natAbs < 2 ^ 64
  | .truncate _ => True
  | .readData _ _ => True
  | .writeData offset item => offset.toNat + item.bytes.length < 2 ^ 64
  | .readDataSlice T offset count =>
      offset.toNat < raw.data_len.toNat → offset.toNat + T.size_of.toNat * count.toNat < 2 ^ 64
  | .writeDataSlice offset slice => offset.toNat + slice.bytes.length < 2 ^ 64

/-- An access has to begin inside the data even where it is of no bytes. -/
def Granted (raw : RteMbuf) (edit : Edit UInt8) : Prop :=
  edit.Admissible raw.data raw.capacity ∧ edit.Starts raw.data

def Room (raw : RteMbuf) (span : Span) : Prop :=
  span.Within raw.data_off.toNat raw.buf_len.toNat

/-- The run has done the edit and nothing else. -/
structure Performs (raw : RteMbuf) (edit : Edit UInt8)
    (ran : Ran RteMbuf BufferError (Option Span)) : Prop where
  returned : ∃ out, ran.result = .ok out ∧
    (out.map fun span => window ran.state.buf span.base span.size) = edit.handsOut raw.data
  effect : edit.Effect raw.data ran.state.data
  data_off : ran.state.data_off = raw.data_off
  buf_len : ran.state.buf_len = raw.buf_len
  pkt_len : raw.pkt_len.toNat = raw.data_len.toNat →
    ran.state.pkt_len.toNat = ran.state.data_len.toNat
  outside : ∀ address : Int, address < raw.data_off.toNat ∨ (raw.buf_len.toNat : Int) ≤ address →
    ran.state.buf address = raw.buf address
  touched : ∀ span ∈ ran.touched, Room raw span

structure Refuses (raw : RteMbuf) (ran : Ran RteMbuf BufferError (Option Span)) : Prop where
  failed : ∃ error, ran.result = .error error
  unchanged : ran.state = raw
  touched : ∀ span ∈ ran.touched, Room raw span

/-- The edit is done where it is granted and refused elsewhere. -/
def Settles (raw : RteMbuf) (edit : Edit UInt8)
    (ran : Ran RteMbuf BufferError (Option Span)) : Prop :=
  (Granted raw edit ∧ Performs raw edit ran) ∨ (¬ Granted raw edit ∧ Refuses raw ran)

theorem room_of_le (raw : RteMbuf) (offset count : Nat)
    (inside : raw.data_off.toNat + (offset + count) ≤ raw.buf_len.toNat) :
    Room raw { base := raw.data_off.toNat + offset, size := count } := by
  right
  simp only
  omega

theorem blocks_room (raw : RteMbuf) (src dst count : Nat)
    (src_inside : raw.data_off.toNat + (src + count) ≤ raw.buf_len.toNat)
    (dst_inside : raw.data_off.toNat + (dst + count) ≤ raw.buf_len.toNat) :
    ∀ span ∈ blockSpans (raw.data_off.toNat + src) (raw.data_off.toNat + dst) count,
      Room raw span := by
  intro span member
  unfold blockSpans at member
  split at member
  · cases member
  · simp only [List.mem_cons, List.not_mem_nil, or_false] at member
    rcases member with rfl | rfl
    · exact room_of_le raw src count src_inside
    · exact room_of_le raw dst count dst_inside

theorem quiet_refuses {Value : Type} (raw : RteMbuf) (machine : MbufM Value)
    (next : Value → MbufM (Option Span)) (error : BufferError) (overflowed : Bool)
    (failed : machine raw = { result := .error error, state := raw, overflowed, touched := [] }) :
    Refuses raw ((machine >>= next) raw) := by
  rw [bind_run, failed, andThen_error]
  exact ⟨⟨error, rfl⟩, rfl, List.forall_mem_nil _⟩

section Resizing
variable (raw : RteMbuf) (fits : raw.Fits) (offset len : UInt64)
include fits

theorem extend_performs (some_len : 0 < len.toNat) (inside : offset.toNat ≤ raw.data_len.toNat)
    (room : len.toNat < raw.capacity - raw.data_len.toNat) :
    Performs raw (.gap offset.toNat len.toNat) ((do extend offset len; pure none) raw) := by
  unfold RteMbuf.Fits at fits
  have capacity := capacity_lt raw
  have held : raw.capacity = raw.buf_len.toNat - raw.data_off.toNat := rfl
  have data_len : (extended raw offset len).data_len.toNat = raw.data_len.toNat + len.toNat := by
    simp only [extended, UInt16.toNat_add, UInt64.toNat_toUInt16]
    omega
  rw [bind_run, extend_accepted raw fits offset len some_len inside room, andThen_ok]
  constructor
  · exact ⟨none, rfl, rfl⟩
  · have gap := window_gap raw.buf raw.data_off.toNat raw.data_len.toNat offset.toNat len.toNat inside
    refine ⟨?_, ?_⟩
    · simpa [Ran.after] using data_len
    · simp only [Ran.after, pure_run, RteMbuf.data]
      rw [data_len]
      exact gap
  · rfl
  · rfl
  · intro single
    simp only [Ran.after, pure_run]
    rw [data_len]
    simp only [extended, UInt32.toNat_add, UInt64.toNat_toUInt32]
    omega
  · intro address outside
    exact moved_outside _ _ _ _ _ (by omega)
  · simp only [Ran.after, pure_run, List.append_nil]
    exact blocks_room raw offset.toNat (offset.toNat + len.toNat) _ (by omega) (by omega)

theorem shrink_performs (some_len : 0 < len.toNat)
    (inside : offset.toNat + len.toNat ≤ raw.data_len.toNat) :
    Performs raw (.cut offset.toNat len.toNat) ((do shrink offset len; pure none) raw) := by
  unfold RteMbuf.Fits at fits
  have small := UInt16.toNat_lt raw.data_len
  have data_len : (shrunk raw offset len).data_len.toNat = raw.data_len.toNat - len.toNat := by
    simp only [shrunk, UInt16.toNat_sub, UInt64.toNat_toUInt16]
    omega
  rw [bind_run, shrink_accepted raw offset len some_len inside, andThen_ok]
  constructor
  · exact ⟨none, rfl, rfl⟩
  · have cut := window_cut raw.buf raw.data_off.toNat raw.data_len.toNat offset.toNat len.toNat inside
    simp only [Edit.Effect, Ran.after, pure_run, RteMbuf.data]
    rw [data_len]
    exact cut
  · rfl
  · rfl
  · intro single
    simp only [Ran.after, pure_run]
    rw [data_len]
    simp only [shrunk, UInt32.toNat_sub, UInt64.toNat_toUInt32]
    omega
  · intro address outside
    exact moved_outside _ _ _ _ _ (by omega)
  · simp only [Ran.after, pure_run, List.append_nil]
    exact blocks_room raw (offset.toNat + len.toNat) offset.toNat _ (by omega) (by omega)

theorem extend_settles :
    Settles raw (.gap offset.toNat len.toNat) ((do extend offset len; pure none) raw) := by
  simp only [Settles, Granted, Edit.Admissible, Edit.Starts, data_length, and_true]
  by_cases granted : 0 < len.toNat ∧ offset.toNat ≤ raw.data_len.toNat ∧
      len.toNat < raw.capacity - raw.data_len.toNat
  · obtain ⟨some_len, inside, room⟩ := granted
    exact Or.inl ⟨⟨some_len, inside, room⟩, extend_performs raw fits offset len some_len inside room⟩
  · exact Or.inr ⟨granted, quiet_refuses raw _ _ _ _ (extend_refused raw fits offset len granted)⟩

theorem shrink_settles (near : 0 < len.toNat → offset.toNat + len.toNat < 2 ^ 64) :
    Settles raw (.cut offset.toNat len.toNat) ((do shrink offset len; pure none) raw) := by
  simp only [Settles, Granted, Edit.Admissible, Edit.Starts, data_length, and_true]
  by_cases some_len : 0 < len.toNat
  · by_cases inside : offset.toNat + len.toNat ≤ raw.data_len.toNat
    · exact Or.inl ⟨⟨some_len, inside⟩, shrink_performs raw fits offset len some_len inside⟩
    · have refused := shrink_refused raw offset len (near some_len) fun both => inside both.2
      exact Or.inr ⟨fun both => inside both.2, quiet_refuses raw _ _ _ _ refused⟩
  · have refused := shrink_nothing raw offset len (Nat.eq_zero_of_not_pos some_len)
    exact Or.inr ⟨fun both => some_len both.1, quiet_refuses raw _ _ _ _ refused⟩

end Resizing

theorem truncate_settles (raw : RteMbuf) (to_len : UInt64) :
    Settles raw (.keep to_len.toNat) ((do truncate to_len; pure none) raw) := by
  simp only [Settles, Granted, Edit.Admissible, Edit.Starts, data_length, and_true]
  by_cases shorter : to_len.toNat < raw.data_len.toNat
  · have small := UInt16.toNat_lt raw.data_len
    have data_len := toUInt16_exact to_len (by omega)
    refine Or.inl ⟨shorter, ?_⟩
    rw [bind_run, truncate_accepted raw to_len shorter, andThen_ok]
    constructor
    · exact ⟨none, rfl, rfl⟩
    · simp only [Edit.Effect, RteMbuf.data, after_nothing, pure_run, data_len]
      exact (take_window _ _ _ _ (Nat.le_of_lt shorter)).symm
    · rfl
    · rfl
    · intro single
      simp only [after_nothing, pure_run, data_len, UInt64.toNat_toUInt32]
      omega
    · exact fun address _ => rfl
    · exact List.forall_mem_nil _
  · exact Or.inr ⟨shorter, quiet_refuses raw _ _ _ _ (truncate_refused raw to_len shorter)⟩

theorem span_room (raw : RteMbuf) (fits : raw.Fits) (target : Nat) (offset : UInt64)
    (inside : offset.toNat + target ≤ raw.data_len.toNat) : Room raw (spanAt raw target offset) := by
  unfold RteMbuf.Fits at fits
  exact room_of_le raw offset.toNat target (by omega)

section Accessing
variable (raw : RteMbuf) (fits : raw.Fits) (size : MbufM UInt64) (target : Nat)
  (sized : Sized size target) (offset : UInt64)
include fits sized

theorem read_settles
    (near : offset.toNat < raw.data_len.toNat → offset.toNat + target < 2 ^ 64) :
    Settles raw (.read offset.toNat target)
      ((do pure (some (← readBytes size target offset))) raw) := by
  simp only [Settles, Granted, Edit.Admissible, Edit.Starts, data_length]
  by_cases starts : offset.toNat < raw.data_len.toNat
  · by_cases inside : offset.toNat + target ≤ raw.data_len.toNat
    · refine Or.inl ⟨⟨inside, starts⟩, ?_⟩
      rw [bind_run, read_accepted raw size target sized offset starts inside, andThen_ok]
      constructor
      · refine ⟨_, rfl, congrArg some ?_⟩
        exact (window_drop_take raw.buf raw.data_off.toNat raw.data_len.toNat offset.toNat target
          inside).symm
      · rfl
      · rfl
      · rfl
      · exact id
      · exact fun address _ => rfl
      · simp only [Ran.after, pure_run, List.append_nil, List.mem_singleton, forall_eq]
        exact span_room raw fits target offset inside
    · obtain ⟨error, refused⟩ := read_outside raw size target sized offset starts (near starts)
        (Nat.lt_of_not_le inside)
      exact Or.inr ⟨fun both => inside both.1, quiet_refuses raw _ _ _ _ refused⟩
  · have refused := read_beyond raw size target offset (Nat.le_of_not_lt starts)
    exact Or.inr ⟨fun both => starts both.2, quiet_refuses raw _ _ _ _ refused⟩

theorem write_settles (bytes : List UInt8) (whole : bytes.length = target)
    (near : offset.toNat + target < 2 ^ 64) :
    Settles raw (.overwrite offset.toNat bytes)
      ((do pure (some (← writeBytes size target bytes offset))) raw) := by
  simp only [Settles, Granted, Edit.Admissible, Edit.Starts, data_length, whole]
  by_cases inside : offset.toNat + target ≤ raw.data_len.toNat
  · have room := span_room raw fits target offset inside
    by_cases starts : offset.toNat < raw.data_len.toNat
    · refine Or.inl ⟨⟨inside, starts⟩, ?_⟩
      rw [bind_run, write_accepted raw size target sized offset bytes starts inside, andThen_ok]
      constructor
      · refine ⟨_, rfl, congrArg some ?_⟩
        simp only [Ran.after, pure_run, spanAt, ← whole]
        exact window_stored raw.buf _ bytes
      · exact window_overwrite raw.buf raw.data_off.toNat raw.data_len.toNat offset.toNat bytes
          (by omega)
      · rfl
      · rfl
      · exact id
      · intro address outside
        unfold RteMbuf.Fits at fits
        exact stored_outside _ _ _ _ (by omega)
      · simp only [Ran.after, pure_run, List.append_nil, List.mem_cons, List.not_mem_nil, or_false,
          forall_eq_or_imp, forall_eq, whole]
        exact ⟨room, room⟩
    · have empty : target = 0 := by omega
      have none : bytes = [] := List.eq_nil_of_length_eq_zero (by omega)
      refine Or.inr ⟨fun both => starts both.2, ?_⟩
      subst none
      rw [bind_run, write_at_end raw size target sized offset (by omega) empty, andThen_error]
      refine ⟨⟨_, rfl⟩, rfl, ?_⟩
      simp only [List.mem_singleton, forall_eq]
      exact Or.inl rfl
  · obtain ⟨error, refused⟩ := write_outside raw size target sized offset bytes near
      (Nat.lt_of_not_le inside)
    exact Or.inr ⟨fun both => inside both.1, quiet_refuses raw _ _ _ _ refused⟩

end Accessing

section Resize
variable (raw : RteMbuf) (fits : raw.Fits) (offset : UInt64) (len : Int64)

theorem toInt_cases :
    (len < 0 ∧ (-len).toUInt64.toNat = len.toInt.natAbs) ∨
      (¬ len < 0 ∧ len.toUInt64.toNat = len.toInt.natAbs) := by
  have unsigned : len.toUInt64.toNat = len.toBitVec.toNat := rfl
  have negated : (-len).toUInt64.toNat = (-len.toBitVec).toNat := rfl
  have signed : len.toInt = len.toBitVec.toInt := rfl
  have small := len.toBitVec.isLt
  rw [BitVec.toInt_eq_toNat_cond] at signed
  rw [BitVec.toNat_neg] at negated
  rw [Int64.lt_iff_toInt_lt, negated, unsigned]
  simp only [Int64.toInt_zero]
  split at signed
  · exact Or.inr ⟨by omega, by omega⟩
  · exact Or.inl ⟨by omega, by omega⟩

/-- Only the smallest `isize` has no negation; its wrapped one is the right `usize`. -/
theorem resize_negative (negative : len < 0) :
    resize offset len raw =
      (shrink offset (-len).toUInt64 raw).after (len.toInt = -2 ^ 63) [] := by
  simp [resize, negative, bind_run, negIsize_run]

theorem resize_positive (positive : ¬ len < 0) :
    resize offset len raw = extend offset len.toUInt64 raw := by
  simp [resize, positive]

theorem settles_after (edit : Edit UInt8) (ran : Ran RteMbuf BufferError (Option Span))
    (overflowed : Bool) (settles : Settles raw edit ran) :
    Settles raw edit (ran.after overflowed []) := by
  rcases settles with ⟨granted, performs⟩ | ⟨refused, refuses⟩
  · exact Or.inl ⟨granted, performs.returned, performs.effect, performs.data_off, performs.buf_len,
      performs.pkt_len, performs.outside, performs.touched⟩
  · exact Or.inr ⟨refused, refuses.failed, refuses.unchanged, refuses.touched⟩

include fits in
theorem resize_settles (near : len < 0 → offset.toNat + len.toInt.natAbs < 2 ^ 64) :
    Settles raw (MbufOp.resize offset len).edit ((do resize offset len; pure none) raw) := by
  rcases toInt_cases len with ⟨negative, size⟩ | ⟨positive, size⟩
  · have shrunk := shrink_settles raw fits offset (-len).toUInt64 fun _ => by
      rw [size]
      exact near negative
    rw [size] at shrunk
    simp only [MbufOp.edit, negative, ↓reduceIte]
    rw [bind_run, resize_negative raw offset len negative, after_andThen]
    exact settles_after raw _ _ _ shrunk
  · have extended := extend_settles raw fits offset len.toUInt64
    rw [size] at extended
    simp only [MbufOp.edit, positive, ↓reduceIte]
    rw [bind_run, resize_positive raw offset len positive]
    exact extended

end Resize

theorem op_settles (raw : RteMbuf) (fits : raw.Fits) (op : MbufOp) (near : op.ChecksFit raw) :
    Settles raw op.edit (op.run raw) := by
  cases op with
  | extend offset len => exact extend_settles raw fits offset len
  | shrink offset len => exact shrink_settles raw fits offset len near
  | resize offset len => exact resize_settles raw fits offset len near
  | truncate to_len => exact truncate_settles raw to_len
  | readData T offset =>
      have small := T.fits
      have held := UInt16.toNat_lt raw.data_len
      exact read_settles raw fits _ _ (item_sized T) offset fun starts => by omega
  | writeData offset item =>
      rename_i T
      have whole : item.bytes.length = T.size_of.toNat := by simp [item.whole]
      exact write_settles raw fits _ _ (item_sized T) offset item.bytes whole (whole ▸ near)
  | readDataSlice T offset count =>
      exact read_settles raw fits _ _ (slice_sized T count) offset near
  | writeDataSlice offset slice =>
      exact write_settles raw fits _ _ (slice_sized _ _) offset slice.bytes slice.whole
        (slice.whole ▸ near)

/-- The caller keeps every position it names in range and accesses at least one byte. -/
def MbufOp.Bounded (op : MbufOp) : Prop := op.edit.Proper ∧ op.edit.reach < 2 ^ 64

theorem bounded_checks_fit (raw : RteMbuf) (op : MbufOp) (bounded : op.Bounded) :
    op.ChecksFit raw := by
  cases op with
  | extend offset len | truncate to_len | readData T offset => trivial
  | shrink offset len => exact fun _ => bounded.2
  | resize offset len =>
      intro negative
      simpa [MbufOp.Bounded, MbufOp.edit, negative, Edit.reach] using bounded.2
  | writeData offset item => exact bounded.2
  | readDataSlice T offset count => exact fun _ => bounded.2
  | writeDataSlice offset slice => exact bounded.2

/-- The call succeeds exactly where the edit is admissible; it then has the edit's effect
and hands out its cells, and otherwise the bytes are as they were. -/
structure Implements (raw : RteMbuf) (op : MbufOp) : Prop where
  succeeds_iff : (∃ out, (op.run raw).result = .ok out) ↔ op.edit.Admissible raw.data raw.capacity
  does : ∀ out, (op.run raw).result = .ok out →
    op.edit.Effect raw.data (op.run raw).state.data ∧
      (out.map fun span => window (op.run raw).state.buf span.base span.size) =
        op.edit.handsOut raw.data
  keeps : ∀ error, (op.run raw).result = .error error → (op.run raw).state.data = raw.data

def mbufStep (raw : RteMbuf) (op : MbufOp) : Option RteMbuf := some (op.run raw).state

/-- What stays as it was when the sequence began. -/
structure Kept (start raw : RteMbuf) : Prop where
  fits : raw.Fits
  single : raw.pkt_len.toNat = raw.data_len.toNat
  data_off : raw.data_off = start.data_off
  buf_len : raw.buf_len = start.buf_len
  outside : ∀ address : Int,
    address < start.data_off.toNat ∨ (start.buf_len.toNat : Int) ≤ address →
      raw.buf address = start.buf address

/-- A state from which every bounded call does what its edit says. -/
structure Refines (start raw : RteMbuf) : Prop extends Kept start raw where
  implements : ∀ op : MbufOp, op.Bounded → Implements raw op

theorem data_within (raw : RteMbuf) (fits : raw.Fits) : raw.data.length ≤ raw.capacity := by
  unfold RteMbuf.Fits at fits
  rw [data_length, RteMbuf.capacity]
  omega

theorem bounded_implements (raw : RteMbuf) (fits : raw.Fits) (op : MbufOp) (bounded : op.Bounded) :
    Implements raw op := by
  have starts := proper_starts raw.data raw.capacity op.edit bounded.1
  rcases op_settles raw fits op (bounded_checks_fit raw op bounded) with
    ⟨granted, performs⟩ | ⟨refused, refuses⟩
  · obtain ⟨out, result, handed⟩ := performs.returned
    refine ⟨⟨fun _ => granted.1, fun _ => ⟨out, result⟩⟩, fun other returned => ?_, fun error failed => ?_⟩
    · rw [result] at returned
      cases returned
      exact ⟨performs.effect, handed⟩
    · rw [result] at failed
      cases failed
  · obtain ⟨error, failed⟩ := refuses.failed
    refine ⟨⟨?_, fun admissible => absurd ⟨admissible, starts admissible⟩ refused⟩, ?_, ?_⟩
    · rintro ⟨out, returned⟩
      rw [failed] at returned
      cases returned
    · intro out returned
      rw [failed] at returned
      cases returned
    · intro other _
      rw [refuses.unchanged]

theorem op_kept (start raw : RteMbuf) (kept : Kept start raw) (op : MbufOp) (bounded : op.Bounded) :
    Kept start (op.run raw).state := by
  rcases op_settles raw kept.fits op (bounded_checks_fit raw op bounded) with
    ⟨granted, performs⟩ | ⟨_, refuses⟩
  · have within := effect_fits raw.data _ raw.capacity op.edit (data_within raw kept.fits)
      granted.1 performs.effect
    have fits := kept.fits
    constructor
    · unfold RteMbuf.Fits at fits ⊢
      rw [data_length, RteMbuf.capacity] at within
      rw [performs.data_off, performs.buf_len]
      omega
    · exact performs.pkt_len kept.single
    · rw [performs.data_off, kept.data_off]
    · rw [performs.buf_len, kept.buf_len]
    · intro address away
      rw [performs.outside address (by rwa [kept.data_off, kept.buf_len]), kept.outside address away]
  · rw [refuses.unchanged]
    exact kept

/-- Along every sequence of bounded calls a segment is a bounded byte list under edits. -/
theorem refines_bounded_list (start : RteMbuf) (fits : start.Fits)
    (single : start.pkt_len.toNat = start.data_len.toNat) (ops : List MbufOp)
    (bounded : ∀ op ∈ ops, op.Bounded) : Always mbufStep (Refines start) start ops := by
  have executed := run_isSome_of_total mbufStep (fun _ _ => rfl) start ops
  refine always_of_admits mbufStep (Kept start) (Refines start) (fun _ op => op.Bounded) ?_ ?_
    start ops ⟨fits, single, rfl, rfl, fun _ _ => rfl⟩
    ((admits_acts_iff mbufStep MbufOp.Bounded start ops executed).mpr bounded)
  · rintro raw op next kept small ⟨⟩
    exact op_kept start raw kept op small
  · intro raw kept
    exact { kept with implements := fun op small => bounded_implements raw kept.fits op small }

/-- A buffer of 16 bytes with 4 bytes of headroom and the data 0, 1, .., 5. -/
def sixBytes : RteMbuf :=
  { buf := fun address => UInt8.ofNat (address - 4).toNat
    buf_len := 16, data_off := 4, data_len := 6, pkt_len := 6 }

theorem six_bytes_refine :
    Always mbufStep (Refines sixBytes) sixBytes
      [.extend 2 3, .resize 0 (-4), .shrink 7 9, .truncate 1] :=
  refines_bounded_list sixBytes (by unfold RteMbuf.Fits; decide) rfl _ (by
    simp only [List.forall_mem_cons, MbufOp.Bounded]
    exact ⟨⟨trivial, by decide⟩, ⟨trivial, by decide⟩, ⟨trivial, by decide⟩, ⟨trivial, by decide⟩,
      List.forall_mem_nil _⟩)

end L2Switch.MbufRefinement
