import L2Switch.MbufSafety

/-!
Headers put into a packet and taken out again. As the comments of dpdk/mbuf.rs ask,
`extend` makes the room before `write_data` fills it; the way back reads the header and
cuts it out with `shrink`.
-/
namespace L2Switch.MbufLayers
open BoundedEdits ByteMemory MbufData MbufRefinement MbufSafety WrappingMachine

structure Header where
  T : ItemType
  offset : UInt64
  item : Items T 1

def Header.bytes (header : Header) : List UInt8 := header.item.bytes

/-- A call with what the pointer it returns shows at that moment. -/
def call (op : MbufOp) : MbufM (Option (List UInt8)) := do
  let out ← op.run
  let buf ← gets RteMbuf.buf
  pure (out.map fun span => window buf span.base span.size)

def push (header : Header) : MbufM Unit := do
  let _ ← call (.extend header.offset header.T.size_of)
  let _ ← call (.writeData header.offset header.item)

def pop (T : ItemType) (offset : UInt64) : MbufM (Option (List UInt8)) := do
  let read ← call (.readData T offset)
  let _ ← call (.shrink offset T.size_of)
  pure read

def pushAll : List Header → MbufM Unit
  | [] => pure ()
  | header :: rest => do
      push header
      pushAll rest

/-- The header pushed last comes off first. -/
def popAll : List Header → MbufM (List (Option (List UInt8)))
  | [] => pure []
  | header :: rest => do
      let later ← popAll rest
      let read ← pop header.T header.offset
      pure (read :: later)

def inserted (data : List UInt8) (header : Header) : List UInt8 :=
  data.take header.offset.toNat ++ header.bytes ++ data.drop header.offset.toNat

def stacked : List UInt8 → List Header → List UInt8
  | data, [] => data
  | data, header :: rest => stacked (inserted data header) rest

/-- A header of some bytes, begun inside the data or at its end, and a byte to spare. -/
def Fitting (capacity length : Nat) (header : Header) : Prop :=
  0 < header.bytes.length ∧ header.offset.toNat ≤ length ∧ header.bytes.length < capacity - length

def Stackable (capacity : Nat) : Nat → List Header → Prop
  | _, [] => True
  | length, header :: rest =>
      Fitting capacity length header ∧ Stackable capacity (length + header.bytes.length) rest

theorem bytes_length (header : Header) : header.bytes.length = header.T.size_of.toNat := by
  simp [Header.bytes, header.item.whole]

theorem inserted_length (data : List UInt8) (header : Header)
    (inside : header.offset.toNat ≤ data.length) :
    (inserted data header).length = data.length + header.bytes.length := by
  simp only [inserted, List.length_append, List.length_take, List.length_drop]
  omega

/-- What a call comes to where its edit is admissible. -/
theorem call_granted (raw : RteMbuf) (kept : Kept raw raw) (op : MbufOp) (bounded : op.Bounded)
    (guarded : Guarded raw op) (admissible : op.edit.Admissible raw.data raw.capacity) :
    ∃ after, (call op raw).outcome = (.ok (op.edit.handsOut raw.data), after, false) ∧
      Kept raw after ∧ op.edit.Effect raw.data after.data := by
  have implements := bounded_implements raw kept.fits op bounded
  obtain ⟨out, returned⟩ := implements.succeeds_iff.mpr admissible
  obtain ⟨effect, shown⟩ := implements.does out returned
  have clean := (overflowed_iff raw kept.fits op).mpr guarded
  refine ⟨(op.run raw).state, ?_, op_kept raw raw kept op bounded, effect⟩
  have first : (op.run raw).outcome = (.ok out, (op.run raw).state, false) := by
    simp only [Ran.outcome, returned, clean]
  rw [call, outcome_bind_ok _ _ _ _ _ first, ← shown]
  rfl

theorem kept_self (raw : RteMbuf) (fits : raw.Fits) (single : raw.pkt_len.toNat = raw.data_len.toNat) :
    Kept raw raw :=
  { fits, single, data_off := rfl, buf_len := rfl, outside := fun _ _ => rfl }

theorem kept_here (start raw : RteMbuf) (kept : Kept start raw) : Kept raw raw :=
  kept_self raw kept.fits kept.single

theorem kept_trans (start middle after : RteMbuf) (first : Kept start middle)
    (second : Kept middle after) : Kept start after :=
  { fits := second.fits, single := second.single
    data_off := second.data_off.trans first.data_off, buf_len := second.buf_len.trans first.buf_len
    outside := fun address away =>
      (second.outside address (by rwa [first.data_off, first.buf_len])).trans
        (first.outside address away) }

theorem kept_capacity (start raw : RteMbuf) (kept : Kept start raw) :
    raw.capacity = start.capacity := by
  rw [RteMbuf.capacity, kept.data_off, kept.buf_len, RteMbuf.capacity]

section OneHeader
variable (raw : RteMbuf) (kept : Kept raw raw) (header : Header)
include kept

theorem push_fitting (fitting : Fitting raw.capacity raw.data.length header) :
    ∃ after, (push header raw).outcome = (.ok (), after, false) ∧ Kept raw after ∧
      after.data = inserted raw.data header := by
  obtain ⟨some_byte, inside, room⟩ := fitting
  have size := bytes_length header
  have small := capacity_lt raw
  have single := kept.single
  have length := data_length raw
  obtain ⟨gapped, extends_by, same, gap⟩ := call_granted raw kept
    (.extend header.offset header.T.size_of) ⟨trivial, by simp only [MbufOp.edit, Edit.reach]; omega⟩
    (by simp only [Guarded, ExtendFits]; omega)
    (by simp only [MbufOp.edit, Edit.Admissible]; omega)
  simp only [MbufOp.edit, ← size] at gap
  have grown := gap.1
  have length' := data_length gapped
  obtain ⟨after, writes, same', filled⟩ := call_granted gapped (kept_here raw gapped same)
    (.writeData header.offset header.item)
    ⟨List.ne_nil_of_length_pos some_byte, by
      simp only [MbufOp.edit, Edit.reach, show header.item.bytes = header.bytes from rfl]; omega⟩
    (by simp only [Guarded]; omega)
    (by simp only [MbufOp.edit, Edit.Admissible, show header.item.bytes = header.bytes from rfl]; omega)
  refine ⟨after, ?_, kept_trans raw gapped after same same', ?_⟩
  · rw [push, outcome_bind_ok _ _ _ _ _ extends_by, outcome_bind_ok _ _ _ _ _ writes]
    rfl
  · exact gap_overwritten raw.data gapped.data after.data header.bytes _ gap filled

/-- A header that does not fit is refused before anything is moved. -/
theorem push_refused (unfitting : ¬ Fitting raw.capacity raw.data.length header) :
    (push header raw).outcome = (.error .NotResized, raw, false) := by
  have refused := extend_refused raw kept.fits header.offset header.T.size_of (by
    rw [← bytes_length, ← data_length]
    exact unfitting)
  have first : (MbufData.extend header.offset header.T.size_of raw).outcome =
      (.error .NotResized, raw, false) := by
    rw [refused]
    rfl
  have called : (call (.extend header.offset header.T.size_of) raw).outcome =
      (.error .NotResized, raw, false) :=
    outcome_bind_error _ _ _ _ _ (outcome_bind_error _ _ _ _ _ first)
  exact outcome_bind_error _ _ _ _ _ called

/-- A header comes off as it was put in and leaves what it was put into. -/
theorem pop_inserted (data : List UInt8) (some_byte : 0 < header.bytes.length)
    (inside : header.offset.toNat ≤ data.length) (holds : raw.data = inserted data header) :
    ∃ after, (pop header.T header.offset raw).outcome = (.ok (some header.bytes), after, false) ∧
      Kept raw after ∧ after.data = data := by
  have size := bytes_length header
  have grown := inserted_length data header inside
  have small := UInt16.toNat_lt raw.data_len
  have single := kept.single
  have length := data_length raw
  rw [holds] at length
  obtain ⟨seen, reads, same, unchanged⟩ := call_granted raw kept (.readData header.T header.offset)
    ⟨by simp only [MbufOp.edit, Edit.Proper]; omega, by simp only [MbufOp.edit, Edit.reach]; omega⟩
    trivial (by simp only [MbufOp.edit, Edit.Admissible, holds]; omega)
  have held : seen.data = inserted data header := Eq.trans unchanged holds
  have shown : (MbufOp.readData header.T header.offset).edit.handsOut raw.data =
      some header.bytes := by
    rw [holds, MbufOp.edit, ← size]
    exact read_inserted data header.bytes _ inside
  have length' := data_length seen
  have single' := same.single
  rw [held] at length'
  obtain ⟨after, shrinks, same', cut⟩ := call_granted seen (kept_here raw seen same)
    (.shrink header.offset header.T.size_of)
    ⟨trivial, by simp only [MbufOp.edit, Edit.reach]; omega⟩
    (by simp only [Guarded, ShrinkFits]; omega)
    (by simp only [MbufOp.edit, Edit.Admissible, held]; omega)
  rw [held, MbufOp.edit, ← size] at cut
  refine ⟨after, ?_, kept_trans raw seen after same same', cut_inserted data _ _ _ inside cut⟩
  rw [pop, outcome_bind_ok _ _ _ _ _ reads, outcome_bind_ok _ _ _ _ _ shrinks, shown]
  rfl

end OneHeader

/-- Pushing stops at the first header without room, with what went in before it in place;
what went in comes off again header by header, and leaves the packet as it was. -/
structure RoundTrips (raw : RteMbuf) (headers : List Header) : Prop where
  clean : (pushAll headers raw).overflowed = false
  accepted_iff : (pushAll headers raw).result = .ok () ↔
    Stackable raw.capacity raw.data.length headers
  stacked_up : ∃ accepted left_out, headers = accepted ++ left_out ∧
    Stackable raw.capacity raw.data.length accepted ∧
    (∀ header ∈ left_out.head?,
      ¬ Fitting raw.capacity (stacked raw.data accepted).length header) ∧
    (pushAll headers raw).state.data = stacked raw.data accepted
  undone : Stackable raw.capacity raw.data.length headers → ∃ after,
    (popAll headers (pushAll headers raw).state).outcome =
        (.ok (headers.map fun header => some header.bytes), after, false) ∧
      Kept raw after ∧ after.data = raw.data

theorem pushAll_fitting (raw after : RteMbuf) (header : Header) (rest : List Header)
    (pushed : (push header raw).outcome = (.ok (), after, false)) :
    (pushAll (header :: rest) raw).outcome = (pushAll rest after).outcome :=
  outcome_bind_ok _ _ _ _ _ pushed

/-- Where there is room for all of the headers they end up one around the other. -/
theorem pushAll_stackable (raw : RteMbuf) (kept : Kept raw raw) (headers : List Header)
    (stackable : Stackable raw.capacity raw.data.length headers) : ∃ after,
    (pushAll headers raw).outcome = (.ok (), after, false) ∧ Kept raw after ∧
      after.data = stacked raw.data headers := by
  induction headers generalizing raw with
  | nil => exact ⟨raw, rfl, kept, rfl⟩
  | cons header rest ih =>
      obtain ⟨fitting, room⟩ := stackable
      obtain ⟨middle, pushed, same, data⟩ := push_fitting raw kept header fitting
      rw [← inserted_length raw.data header fitting.2.1, ← data,
        ← kept_capacity raw middle same] at room
      obtain ⟨after, later, same', data'⟩ := ih middle (kept_here raw middle same) room
      refine ⟨after, (pushAll_fitting raw middle header rest pushed).trans later,
        kept_trans raw middle after same same', ?_⟩
      rw [data', data]
      rfl

theorem pushAll_refused (raw : RteMbuf) (header : Header) (rest : List Header)
    (refused : (push header raw).outcome = (.error .NotResized, raw, false)) :
    (pushAll (header :: rest) raw).outcome = (.error .NotResized, raw, false) :=
  outcome_bind_error _ _ _ _ _ refused

/-- Without the room no sequence of headers goes in to its end. -/
theorem stackable_of_pushed (raw after : RteMbuf) (kept : Kept raw raw) (headers : List Header)
    (pushed : (pushAll headers raw).outcome = (.ok (), after, false)) :
    Stackable raw.capacity raw.data.length headers := by
  induction headers generalizing raw with
  | nil => trivial
  | cons header rest ih =>
      by_cases fitting : Fitting raw.capacity raw.data.length header
      · obtain ⟨middle, first, same, data⟩ := push_fitting raw kept header fitting
        have later := ih middle (kept_here raw middle same)
          ((pushAll_fitting raw middle header rest first).symm.trans pushed)
        rw [kept_capacity raw middle same, data, inserted_length raw.data header fitting.2.1] at later
        exact ⟨fitting, later⟩
      · rw [pushAll_refused raw header rest (push_refused raw kept header fitting)] at pushed
        cases pushed

theorem popAll_cons (raw middle after : RteMbuf) (header : Header) (rest : List Header)
    (later : List (Option (List UInt8))) (read : Option (List UInt8))
    (first : (popAll rest raw).outcome = (.ok later, middle, false))
    (last : (pop header.T header.offset middle).outcome = (.ok read, after, false)) :
    (popAll (header :: rest) raw).outcome = (.ok (read :: later), after, false) := by
  rw [popAll, outcome_bind_ok _ _ _ _ _ first, outcome_bind_ok _ _ _ _ _ last]
  rfl

theorem round_trips_refused (raw : RteMbuf) (kept : Kept raw raw) (header : Header)
    (rest : List Header) (unfitting : ¬ Fitting raw.capacity raw.data.length header) :
    RoundTrips raw (header :: rest) := by
  have whole := pushAll_refused raw header rest (push_refused raw kept header unfitting)
  simp only [Ran.outcome, Prod.mk.injEq] at whole
  obtain ⟨result, state, overflowed⟩ := whole
  refine { clean := overflowed, accepted_iff := ?_, stacked_up := ?_, undone := ?_ }
  · rw [result]
    exact iff_of_false (fun same => by cases same) fun stackable => unfitting stackable.1
  · refine ⟨[], header :: rest, rfl, trivial, ?_, by rw [state]; rfl⟩
    rintro _ ⟨⟩
    exact unfitting
  · exact fun stackable => absurd stackable.1 unfitting

theorem round_trips_fitting (raw after : RteMbuf) (header : Header) (rest : List Header)
    (fitting : Fitting raw.capacity raw.data.length header)
    (pushed : (push header raw).outcome = (.ok (), after, false)) (same : Kept raw after)
    (data : after.data = inserted raw.data header) (later : RoundTrips after rest) :
    RoundTrips raw (header :: rest) := by
  have whole := pushAll_fitting raw after header rest pushed
  simp only [Ran.outcome, Prod.mk.injEq] at whole
  obtain ⟨result, state, overflowed⟩ := whole
  obtain ⟨clean, accepted_iff, ⟨accepted, left_out, split, stackable, stops, stacked_up⟩, undone⟩ :=
    later
  rw [kept_capacity raw after same, data, inserted_length raw.data header fitting.2.1]
    at accepted_iff stackable undone
  rw [kept_capacity raw after same, data] at stops
  rw [data] at stacked_up
  refine { clean := overflowed.trans clean, accepted_iff := ?_, stacked_up := ?_, undone := ?_ }
  · rw [result, accepted_iff, Stackable, and_iff_right fitting]
  · refine ⟨header :: accepted, left_out, by rw [split]; rfl, ⟨fitting, stackable⟩, stops, ?_⟩
    rw [state, stacked_up]
    rfl
  · -- the headers pushed after this one come off before it
    rintro ⟨_, room⟩
    obtain ⟨middle, first, same', bared⟩ := undone room
    obtain ⟨last, popped, same'', whole⟩ := pop_inserted middle (kept_here after middle same') header
      raw.data fitting.1 fitting.2.1 bared
    have same''' : Kept after last := kept_trans after middle last same' same''
    refine ⟨last, ?_, kept_trans raw after last same same''', whole⟩
    rw [state]
    exact popAll_cons _ middle last header rest _ _ first popped

/-- However many headers are put into a packet, and wherever, they come out as they went in. -/
theorem headers_round_trip (raw : RteMbuf) (fits : raw.Fits)
    (single : raw.pkt_len.toNat = raw.data_len.toNat) (headers : List Header) :
    RoundTrips raw headers := by
  induction headers generalizing raw with
  | nil =>
      exact { clean := rfl, accepted_iff := iff_of_true rfl trivial
              stacked_up := ⟨[], [], rfl, trivial, fun _ head => (by cases head), rfl⟩
              undone := fun _ => ⟨raw, rfl, kept_self raw fits single, rfl⟩ }
  | cons header rest ih =>
      have kept := kept_self raw fits single
      by_cases fitting : Fitting raw.capacity raw.data.length header
      · obtain ⟨after, pushed, same, data⟩ := push_fitting raw kept header fitting
        exact round_trips_fitting raw after header rest fitting pushed same data
          (ih after same.fits same.single)
      · exact round_trips_refused raw kept header rest fitting

def twoByteHeader (offset : UInt64) : Header :=
  { T := { size_of := 2, fits := by decide }, offset
    item := { bytes := [0xaa, 0xbb], whole := rfl, fits := by decide } }

/-- The third header would leave no byte of the room unused. -/
theorem six_bytes_round_trip :
    Stackable sixBytes.capacity sixBytes.data.length [twoByteHeader 0, twoByteHeader 8] ∧
      RoundTrips sixBytes [twoByteHeader 0, twoByteHeader 8, twoByteHeader 3] := by
  refine ⟨?_, headers_round_trip sixBytes (by unfold RteMbuf.Fits; decide) rfl _⟩
  simp only [Stackable, Fitting]
  decide

end L2Switch.MbufLayers
