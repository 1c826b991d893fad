import L2Switch.MbufRuns
import L2Switch.RingChannel

/-!
`Mbuf::new` and `Mbuf::from_bytes` of dpdk/mbuf.rs. `alloc` is what
`_rte_pktmbuf_alloc` hands out: a pointer and the segment behind it, or null. An mbuf
that an early return drops goes back to its pool.
-/
namespace L2Switch.FromBytes
open ByteMemory WrappingMachine MbufData DpdkRings RingChannel

/-- The length fields of a segment that has just been allocated are zero. -/
structure FreshMbuf where
  raw : RteMbuf
  fits : raw.Fits
  no_data : raw.data_len = 0
  no_packet : raw.pkt_len = 0

inductive BuildError where
  | Exhausted
  | buffer (error : BufferError)

/-- What a call returns with the segment behind it, and the mbufs it freed. -/
structure Built where
  result : Except BuildError (Mbuf × RteMbuf)
  overflowed : Bool
  freed : List MbufPtr

def new (alloc : Option (MbufPtr × FreshMbuf)) : Except BuildError (Mbuf × FreshMbuf) :=
  match alloc with
  | none => .error .Exhausted
  | some (raw, fresh) => .ok ({ inner := .Original raw }, fresh)

def u8 : ItemType := { size_of := 1, fits := by decide }

def fill {count : UInt64} (data : Items u8 count) : MbufM Unit := do
  extend 0 count
  let _ ← writeDataSlice 0 data

def fromBytes (alloc : Option (MbufPtr × FreshMbuf)) {count : UInt64} (data : Items u8 count) :
    Built :=
  match new alloc with
  | .error error => { result := .error error, overflowed := false, freed := [] }
  | .ok (mbuf, fresh) =>
      let ran := fill data fresh.raw
      match ran.result with
      | .ok _ => { result := .ok (mbuf, ran.state), overflowed := ran.overflowed, freed := [] }
      -- both `?` drop `mbuf` on the way out
      | .error error =>
          { result := .error (.buffer error), overflowed := ran.overflowed, freed := mbuf.drop }

/-- The call succeeds, and reading the buffer gives the bytes. -/
structure Holds (ptr : MbufPtr) {count : UInt64} (data : Items u8 count) (built : Built) : Prop where
  clean : built.overflowed = false
  kept : built.freed = []
  held : ∃ raw, built.result = .ok ({ inner := .Original ptr }, raw) ∧
    raw.data_len.toNat = count.toNat ∧ raw.pkt_len.toNat = count.toNat ∧
    ∃ span, readDataSlice u8 0 count raw =
        { result := .ok span, state := raw, overflowed := false, touched := [span] } ∧
      window raw.buf span.base span.size = data.bytes

/-- The call fails for want of room, and the mbuf goes back once. -/
structure TurnedDown (ptr : MbufPtr) (built : Built) : Prop where
  failed : built.result = .error (.buffer .NotResized)
  freed : built.freed = [ptr]

structure BuildsWhatFits (ptr : MbufPtr) (fresh : FreshMbuf) (room : Nat) {count : UInt64}
    (data : Items u8 count) : Prop where
  fitting : 1 ≤ count.toNat → count.toNat ≤ room →
    Holds ptr data (fromBytes (some (ptr, fresh)) data)
  larger : room < count.toNat → TurnedDown ptr (fromBytes (some (ptr, fresh)) data)

theorem u8_bytes (count : UInt64) : u8.size_of.toNat * count.toNat = count.toNat :=
  Nat.one_mul count.toNat

section Filling
variable (ptr : MbufPtr) (fresh : FreshMbuf) {count : UInt64} (data : Items u8 count)

theorem fresh_empty : fresh.raw.data_len.toNat = 0 := by simp [fresh.no_data]

/-- The segment once it has grown, before anything is written to it. -/
def grown (count : UInt64) : RteMbuf :=
  { fresh.raw with data_len := count.toUInt16, pkt_len := count.toUInt32 }

def filled : RteMbuf :=
  { grown fresh count with buf := stored fresh.raw.buf fresh.raw.data_off.toNat data.bytes }

theorem grow_accepted (some_byte : 1 ≤ count.toNat) (room : count.toNat < fresh.raw.capacity) :
    extend 0 count fresh.raw = .quiet () (grown fresh count) := by
  have empty := fresh_empty fresh
  have small := capacity_lt fresh.raw
  have accepted := extend_accepted fresh.raw fresh.fits 0 count some_byte (Nat.zero_le _) (by omega)
  have counted : decide (2 ^ 32 ≤ fresh.raw.pkt_len.toNat + count.toNat) = false := by
    simp only [fresh.no_packet, UInt32.toNat_zero, decide_eq_false_iff_not]
    omega
  rw [counted] at accepted
  simpa [empty, blockSpans, extended, grown, fresh.no_data, fresh.no_packet] using accepted

theorem fill_accepted (some_byte : 1 ≤ count.toNat) (room : count.toNat < fresh.raw.capacity) :
    fill data fresh.raw =
      { result := .ok (), state := filled fresh data, overflowed := false
        touched := [spanAt (grown fresh count) data.bytes.length 0,
          spanAt (grown fresh count) (u8.size_of.toNat * count.toNat) 0] } := by
  have small := capacity_lt fresh.raw
  have len : (grown fresh count).data_len.toNat = count.toNat := toUInt16_exact count (by omega)
  have target := u8_bytes count
  have written := write_accepted (grown fresh count) (mulUsize u8.size_of count)
    (u8.size_of.toNat * count.toNat) (slice_sized u8 count) 0 data.bytes
    (by rw [len]; exact some_byte) (by rw [len, target]; simp)
  simp only [UInt64.toNat_zero, Int.natCast_zero, Int.add_zero] at written
  simp only [fill, bind_run, grow_accepted fresh some_byte room, andThen_ok, after_nothing,
    writeDataSlice, written]
  rfl

theorem fill_refused (full : ¬ (1 ≤ count.toNat ∧ count.toNat < fresh.raw.capacity)) :
    fill data fresh.raw =
      { result := .error .NotResized, state := fresh.raw, overflowed := false, touched := [] } := by
  have empty : fresh.raw.data_len.toNat = 0 := by simp [fresh.no_data]
  have refused := extend_refused fresh.raw fresh.fits 0 count (by
    rw [empty]
    exact fun room => full ⟨room.1, room.2.2⟩)
  simp [fill, bind_run, refused]

theorem filled_read (some_byte : 1 ≤ count.toNat) (room : count.toNat < fresh.raw.capacity) :
    ∃ span, readDataSlice u8 0 count (filled fresh data) =
        { result := .ok span, state := filled fresh data, overflowed := false, touched := [span] } ∧
      window (filled fresh data).buf span.base span.size = data.bytes := by
  have small := capacity_lt fresh.raw
  have len : (filled fresh data).data_len.toNat = count.toNat := toUInt16_exact count (by omega)
  have target := u8_bytes count
  refine ⟨_, read_accepted (filled fresh data) (mulUsize u8.size_of count)
    (u8.size_of.toNat * count.toNat) (slice_sized u8 count) 0 (by rw [len]; exact some_byte)
    (by rw [len, target]; simp), ?_⟩
  have whole := window_stored fresh.raw.buf fresh.raw.data_off.toNat data.bytes
  rw [data.whole] at whole
  simpa [spanAt, filled, grown] using whole

theorem built_holds (some_byte : 1 ≤ count.toNat) (room : count.toNat < fresh.raw.capacity) :
    Holds ptr data (fromBytes (some (ptr, fresh)) data) := by
  have small := capacity_lt fresh.raw
  simp only [fromBytes, new, fill_accepted fresh data some_byte room]
  exact { clean := rfl
          kept := rfl
          held := ⟨filled fresh data, rfl, toUInt16_exact count (by omega),
            toUInt32_exact count (by omega), filled_read fresh data some_byte room⟩ }

theorem built_turned_down (full : ¬ (1 ≤ count.toNat ∧ count.toNat < fresh.raw.capacity)) :
    TurnedDown ptr (fromBytes (some (ptr, fresh)) data) := by
  simp only [fromBytes, new, fill_refused fresh data full]
  exact { failed := rfl, freed := rfl }

/-- A slice that fills the tailroom to its last byte is turned down, and no other that fits. -/
theorem builds_iff_not_exact :
    ∃ room, tailroom fresh.raw = .quiet room fresh.raw ∧
      (BuildsWhatFits ptr fresh room.toNat data ↔
        ¬ (1 ≤ count.toNat ∧ count.toNat = room.toNat)) := by
  have empty := fresh_empty fresh
  obtain ⟨room, measured, all⟩ := tailroom_run fresh.raw fresh.fits
  rw [empty, Nat.sub_zero] at all
  refine ⟨room, measured, ?_⟩
  rw [all]
  constructor
  · rintro builds ⟨some_byte, exact_⟩
    have down := built_turned_down ptr fresh data (fun fits => Nat.ne_of_lt fits.2 exact_)
    obtain ⟨raw, succeeded, _⟩ := (builds.fitting some_byte (Nat.le_of_eq exact_)).held
    rw [down.failed] at succeeded
    cases succeeded
  · intro inexact
    constructor
    · intro some_byte fits
      exact built_holds ptr fresh data some_byte
        (Nat.lt_of_le_of_ne fits fun same => inexact ⟨some_byte, same⟩)
    · intro larger
      exact built_turned_down ptr fresh data fun fits => Nat.lt_asymm larger fits.2

end Filling

/-- An empty segment of two bytes. -/
def twoBytes : FreshMbuf :=
  { raw := { buf := fun _ => 0, buf_len := 2, data_off := 0, data_len := 0, pkt_len := 0 }
    fits := by unfold RteMbuf.Fits; decide
    no_data := rfl
    no_packet := rfl }

/-- Two bytes do not go into two bytes. -/
theorem exact_fit_refused :
    ¬ BuildsWhatFits 1 twoBytes 2
      ({ bytes := [7, 8], whole := by decide, fits := by decide } : Items u8 2) := by
  intro builds
  obtain ⟨raw, succeeded, _⟩ := (builds.fitting (by decide) (by decide)).held
  have down := built_turned_down 1 twoBytes
    ({ bytes := [7, 8], whole := by decide, fits := by decide } : Items u8 2) (by decide)
  rw [down.failed] at succeeded
  cases succeeded

end L2Switch.FromBytes
