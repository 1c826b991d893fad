import L2Switch.ByteMemory
import L2Switch.WrappingMachine

/-!
The data operations of dpdk/mbuf.rs on a single segment. Every sum, difference,
product and negation the Rust code evaluates is one of the machine's, in the order in
which the code evaluates it; a cast with `as` narrows silently. Memory is addressed
from `buf_addr`, in both directions.
-/
namespace L2Switch.MbufData
open ByteMemory WrappingMachine

structure RteMbuf where
  buf : Int → UInt8
  buf_len : UInt16
  data_off : UInt16
  data_len : UInt16
  pkt_len : UInt32

inductive BufferError where
  | BadOffset (offset len : UInt64)
  | NotResized
  | OutOfBuffer (size len : UInt64)
  deriving DecidableEq

/-- A type with its `SizeOf`; none is larger than `isize::MAX` bytes. -/
structure ItemType where
  size_of : UInt64
  fits : size_of.toNat < 2 ^ 63

/-- `count` values of a type, laid out one after the other as in any Rust slice. -/
structure Items (T : ItemType) (count : UInt64) where
  bytes : List UInt8
  whole : bytes.length = T.size_of.toNat * count.toNat
  fits : bytes.length < 2 ^ 63

abbrev MbufM (Value : Type) := Machine RteMbuf BufferError Value

def dataLen : MbufM UInt64 := gets fun raw => raw.data_len.toUInt64

/-- Pointers into the buffer count from `buf_addr`. -/
def dataAddress (offset : UInt64) : MbufM Int := do
  let data_off ← gets RteMbuf.data_off
  let address ← addIsize data_off.toUInt64.toInt64 offset.toInt64
  pure address.toInt

def tailroom : MbufM UInt64 := do
  let raw ← gets id
  let room ← subU16 (← subU16 raw.buf_len raw.data_off) raw.data_len
  pure room.toUInt64

/-- `ptr::copy`. -/
def copy (src dst : Int) (count : UInt64) : MbufM Unit := do
  touch [{ base := src, size := count.toNat }, { base := dst, size := count.toNat }]
  update fun raw => { raw with buf := moved raw.buf src dst count.toNat }

/-- `ptr::copy_nonoverlapping` from values outside the buffer. -/
def copyNonoverlapping (bytes : List UInt8) (dst : Int) : MbufM Unit := do
  touch [{ base := dst, size := bytes.length }]
  update fun raw => { raw with buf := stored raw.buf dst bytes }

/-- A pointer that is handed out counts as an access to what it points to. -/
def pointTo (target : Span) : MbufM Span := do
  touch [target]
  pure target

def extend (offset len : UInt64) : MbufM Unit := do
  ensure (0 < len) (pure .NotResized)
  ensure (offset ≤ (← dataLen)) (pure .NotResized)
  ensure (len < (← tailroom)) (pure .NotResized)
  -- shift down data to make room
  let to_copy ← subUsize (← dataLen) offset
  whenPositive to_copy do
    let src ← dataAddress offset
    let dst ← dataAddress (← addUsize offset len)
    copy src dst to_copy
  let data_len ← addU16 (← gets RteMbuf.data_len) len.toUInt16
  update fun raw => { raw with data_len }
  let pkt_len ← addU32 (← gets RteMbuf.pkt_len) len.toUInt32
  update fun raw => { raw with pkt_len }

def shrink (offset len : UInt64) : MbufM Unit := do
  ensure (0 < len) (pure .NotResized)
  ensure ((← addUsize offset len) ≤ (← dataLen)) (pure .NotResized)
  -- shifts up data to fill the room
  let to_copy ← subUsize (← subUsize (← dataLen) offset) len
  whenPositive to_copy do
    let src ← dataAddress (← addUsize offset len)
    let dst ← dataAddress offset
    copy src dst to_copy
  let data_len ← subU16 (← gets RteMbuf.data_len) len.toUInt16
  update fun raw => { raw with data_len }
  let pkt_len ← subU32 (← gets RteMbuf.pkt_len) len.toUInt32
  update fun raw => { raw with pkt_len }

def resize (offset : UInt64) (len : Int64) : MbufM Unit :=
  if len < 0 then do shrink offset (← negIsize len).toUInt64
  else extend offset len.toUInt64

def truncate (to_len : UInt64) : MbufM Unit := do
  ensure (to_len < (← dataLen)) (pure .NotResized)
  update fun raw => { raw with data_len := to_len.toUInt16 }
  update fun raw => { raw with pkt_len := to_len.toUInt32 }

/-- What `read_data` and `read_data_slice` share: they differ in how they get the size in
bytes, which each of them evaluates again for its error. -/
def readBytes (size : MbufM UInt64) (target : Nat) (offset : UInt64) : MbufM Span := do
  ensure (offset < (← dataLen)) (do pure (.BadOffset offset (← dataLen)))
  ensure ((← addUsize offset (← size)) ≤ (← dataLen))
    (do pure (.OutOfBuffer (← size) (← subUsize (← dataLen) offset)))
  pointTo { base := ← dataAddress offset, size := target }

def readData (T : ItemType) (offset : UInt64) : MbufM Span :=
  readBytes (pure T.size_of) T.size_of.toNat offset

def readDataSlice (T : ItemType) (offset count : UInt64) : MbufM Span :=
  readBytes (mulUsize T.size_of count) (T.size_of.toNat * count.toNat) offset

/-- Unlike a read, a write does not look at `offset` before it evaluates the error. -/
def writeBytes (size : MbufM UInt64) (target : Nat) (bytes : List UInt8) (offset : UInt64) :
    MbufM Span := do
  ensure ((← addUsize offset (← size)) ≤ (← dataLen))
    (do pure (.OutOfBuffer (← size) (← subUsize (← dataLen) offset)))
  copyNonoverlapping bytes (← dataAddress offset)
  readBytes size target offset

def writeData {T : ItemType} (offset : UInt64) (item : Items T 1) : MbufM Span :=
  writeBytes (pure T.size_of) T.size_of.toNat item.bytes offset

def writeDataSlice {T : ItemType} {count : UInt64} (offset : UInt64) (slice : Items T count) :
    MbufM Span :=
  writeBytes (mulUsize T.size_of count) (T.size_of.toNat * count.toNat) slice.bytes offset

/-- The segment's data lies inside its buffer. -/
def RteMbuf.Fits (raw : RteMbuf) : Prop :=
  raw.data_off.toNat + raw.data_len.toNat ≤ raw.buf_len.toNat

def RteMbuf.data (raw : RteMbuf) : List UInt8 :=
  window raw.buf raw.data_off.toNat raw.data_len.toNat

/-- What the data can grow to; its room ends where the buffer does. -/
def RteMbuf.capacity (raw : RteMbuf) : Nat := raw.buf_len.toNat - raw.data_off.toNat

@[simp] theorem data_length (raw : RteMbuf) : raw.data.length = raw.data_len.toNat := by
  simp [RteMbuf.data]

theorem capacity_lt (raw : RteMbuf) : raw.capacity < 2 ^ 16 := by
  have := UInt16.toNat_lt raw.buf_len
  unfold RteMbuf.capacity
  omega

@[simp] theorem dataLen_run (raw : RteMbuf) : dataLen raw = .quiet raw.data_len.toUInt64 raw := rfl

theorem tailroom_run (raw : RteMbuf) (fits : raw.Fits) :
    ∃ room, tailroom raw = .quiet room raw ∧ room.toNat = raw.capacity - raw.data_len.toNat := by
  unfold RteMbuf.Fits at fits
  have behind : (raw.buf_len - raw.data_off).toNat = raw.capacity :=
    UInt16.toNat_sub_of_le _ _ (UInt16.le_iff_toNat_le.mpr (by omega))
  have held : raw.data_len.toNat ≤ (raw.buf_len - raw.data_off).toNat := by
    rw [behind, RteMbuf.capacity]
    omega
  refine ⟨(raw.buf_len - raw.data_off - raw.data_len).toUInt64, ?_, ?_⟩
  · simp (disch := omega) only [tailroom, bind_run, gets_run, andThen_ok, after_nothing,
      subU16_exact, pure_run, id]
  · rw [UInt16.toNat_toUInt64, UInt16.toNat_sub_of_le _ _ (UInt16.le_iff_toNat_le.mpr held), behind]

theorem toInt_toInt64 (value : UInt64) (small : value.toNat < 2 ^ 63) :
    value.toInt64.toInt = value.toNat := by
  rw [← Int64.toInt_toBitVec, UInt64.toBitVec_toInt64, BitVec.toInt_eq_toNat_of_lt]
  · rfl
  · change 2 * value.toNat < 2 ^ 64
    omega

theorem dataAddress_run (raw : RteMbuf) (offset : UInt64) (near : offset.toNat < 2 ^ 32) :
    dataAddress offset raw = .quiet (raw.data_off.toNat + offset.toNat : Int) raw := by
  have small := UInt16.toNat_lt raw.data_off
  have first : raw.data_off.toUInt64.toInt64.toInt = raw.data_off.toNat :=
    toInt_toInt64 _ (by simpa using by omega)
  have second : offset.toInt64.toInt = offset.toNat := toInt_toInt64 offset (by omega)
  have sum : (raw.data_off.toUInt64.toInt64 + offset.toInt64).toInt =
      raw.data_off.toNat + offset.toNat := by
    rw [Int64.toInt_add, first, second, Int.bmod_def]
    omega
  simp (disch := omega) [dataAddress, bind_run, addIsize_exact, sum]

end L2Switch.MbufData
