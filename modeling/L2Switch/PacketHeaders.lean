import L2Switch.Addresses
import L2Switch.ByteMemory

/-!
Header extraction across the C boundary. The C functions of shim.c hand out
pointers into the packet, null for anything but version 4; the Rust wrappers of
net/ether.rs and net/ipv4.rs copy a whole header from whatever pointer they get.
Multi-byte fields are loaded as the little-endian host reads them.
-/
namespace L2Switch.PacketHeaders
open ByteMemory

/-- The fields of an `rte_mbuf` that extraction depends on. `buf` is the memory
from `buf_addr` on; it does not end where the packet does. -/
structure RteMbuf where
  buf : Nat → UInt8
  data_off : UInt16
  data_len : UInt16

/-- Byte `offset` of the packet as `rte_pktmbuf_mtod` reaches it. -/
def RteMbuf.data (mbuf : RteMbuf) (offset : Nat) : UInt8 := mbuf.buf (mbuf.data_off.toNat + offset)

def sizeofEtherHdr : Nat := 14

def sizeofIpv4Hdr : Nat := 20

def nativeU16 (bytes : Nat → UInt8) (offset : Nat) : UInt16 :=
  (bytes offset).toUInt16 ||| (bytes (offset + 1)).toUInt16 <<< 8

def nativeU32 (bytes : Nat → UInt8) (offset : Nat) : UInt32 :=
  (nativeU16 bytes offset).toUInt32 ||| (nativeU16 bytes (offset + 2)).toUInt32 <<< 16

def macAt (bytes : Nat → UInt8) (offset : Nat) : Vector UInt8 6 :=
  Vector.ofFn fun index => bytes (offset + index)

structure RteEtherHdr where
  d_addr : Vector UInt8 6
  s_addr : Vector UInt8 6
  ether_type : UInt16

structure RteIpv4Hdr where
  version_ihl : UInt8
  type_of_service : UInt8
  total_length : UInt16
  packet_id : UInt16
  fragment_offset : UInt16
  time_to_live : UInt8
  next_proto_id : UInt8
  hdr_checksum : UInt16
  src_addr : UInt32
  dst_addr : UInt32

def RteEtherHdr.layout (bytes : Nat → UInt8) : RteEtherHdr :=
  { d_addr := macAt bytes 0, s_addr := macAt bytes 6, ether_type := nativeU16 bytes 12 }

def RteIpv4Hdr.layout (bytes : Nat → UInt8) : RteIpv4Hdr :=
  { version_ihl := bytes 0, type_of_service := bytes 1, total_length := nativeU16 bytes 2
    packet_id := nativeU16 bytes 4, fragment_offset := nativeU16 bytes 6
    time_to_live := bytes 8, next_proto_id := bytes 9, hdr_checksum := nativeU16 bytes 10
    src_addr := nativeU32 bytes 12, dst_addr := nativeU32 bytes 16 }

/-- `_pkt_ether_hdr`; pointers count from the start of the packet. -/
def pktEtherHdr (pkt : Option RteMbuf) : Option Nat :=
  match pkt with
  | none => none
  | some _ => some 0

def version (versionIhl : UInt8) : UInt8 := versionIhl >>> 4 &&& 0b1111

/-- `_pkt_ipv4_hdr` reads the version byte whatever the length or EtherType. -/
def pktIpv4Hdr (pkt : RteMbuf) : Access (Option Nat) := do
  let ipv4 ← load pkt.data (some sizeofEtherHdr) 1
  if version (ipv4 0) ≠ 4 then pure none else pure (some sizeofEtherHdr)

def etherHdrFromMbuf (buf : RteMbuf) : Access RteEtherHdr := do
  let bytes ← load buf.data (pktEtherHdr (some buf)) sizeofEtherHdr
  pure (.layout bytes)

def ipv4HdrFromMbuf (buf : RteMbuf) : Access RteIpv4Hdr := do
  let pointer ← pktIpv4Hdr buf
  let bytes ← load buf.data pointer sizeofIpv4Hdr
  pure (.layout bytes)

structure FiveTuple where
  src_mac : MacAddr
  dst_mac : MacAddr
  src_ip : Ipv4Addr
  dst_ip : Ipv4Addr
  proto : UInt8
  deriving DecidableEq

def FiveTuple.new (ihdr : RteIpv4Hdr) (ehdr : RteEtherHdr) : FiveTuple :=
  { src_mac := ⟨ehdr.s_addr⟩, dst_mac := ⟨ehdr.d_addr⟩
    src_ip := .fromU32 ihdr.src_addr, dst_ip := .fromU32 ihdr.dst_addr
    proto := ihdr.next_proto_id }

def FiveTuple.getDMac (tuple : FiveTuple) : MacAddr := tuple.dst_mac

def FiveTuple.getDIp (tuple : FiveTuple) : Ipv4Addr := tuple.dst_ip

/-- The two `from_mbuf` calls of `process_packets` and the tuple made of them. -/
def extractFiveTuple (mbuf : RteMbuf) : Access FiveTuple := do
  let ether_hdr ← etherHdrFromMbuf mbuf
  let ipv4_hdr ← ipv4HdrFromMbuf mbuf
  pure (.new ipv4_hdr ether_hdr)

/-- The tuple the headers' bytes stand for, whether or not they may be read. -/
def RteMbuf.tuple (mbuf : RteMbuf) : FiveTuple :=
  .new (.layout fun offset => mbuf.data (sizeofEtherHdr + offset)) (.layout mbuf.data)

/-- An Ethernet frame long enough for both headers that says it carries IPv4. -/
def Ipv4Frame (mbuf : RteMbuf) : Prop :=
  sizeofEtherHdr + sizeofIpv4Hdr ≤ mbuf.data_len.toNat ∧
    (mbuf.data 12 = 0x08 ∧ mbuf.data 13 = 0x00) ∧ version (mbuf.data 14) = 4

instance (mbuf : RteMbuf) : Decidable (Ipv4Frame mbuf) :=
  inferInstanceAs (Decidable (_ ∧ _ ∧ _))

theorem ether_hdr_access (mbuf : RteMbuf) :
    etherHdrFromMbuf mbuf = ⟨List.range' 0 14, .ok (.layout mbuf.data)⟩ := by
  simp [etherHdrFromMbuf, pktEtherHdr, load_some, bind_of_ok, sizeofEtherHdr]

theorem ipv4_hdr_access (mbuf : RteMbuf) (four : version (mbuf.data 14) = 4) :
    ipv4HdrFromMbuf mbuf = ⟨14 :: List.range' 14 20,
      .ok (.layout fun offset => mbuf.data (sizeofEtherHdr + offset))⟩ := by
  simp [ipv4HdrFromMbuf, pktIpv4Hdr, load_some, bind_of_ok, sizeofEtherHdr, sizeofIpv4Hdr, four]

theorem ipv4_hdr_null (mbuf : RteMbuf) (other : version (mbuf.data 14) ≠ 4) :
    ipv4HdrFromMbuf mbuf = ⟨[14], .error .null_dereference⟩ := by
  simp [ipv4HdrFromMbuf, pktIpv4Hdr, load_some, load_none, bind_of_ok, bind_of_error,
    sizeofEtherHdr, other]

theorem extract_version_four (mbuf : RteMbuf) (four : version (mbuf.data 14) = 4) :
    extractFiveTuple mbuf =
      ⟨List.range' 0 14 ++ 14 :: List.range' 14 20, .ok mbuf.tuple⟩ := by
  simp [extractFiveTuple, ether_hdr_access, ipv4_hdr_access mbuf four, bind_of_ok, RteMbuf.tuple]

theorem extract_other_version (mbuf : RteMbuf) (other : version (mbuf.data 14) ≠ 4) :
    extractFiveTuple mbuf = ⟨List.range' 0 14 ++ [14], .error .null_dereference⟩ := by
  simp [extractFiveTuple, ether_hdr_access, ipv4_hdr_null mbuf other, bind_of_ok, bind_of_error]

/-- A tuple comes out exactly for version 4, and then 34 bytes were read. -/
theorem extract_within_iff (mbuf : RteMbuf) (four : version (mbuf.data 14) = 4) :
    (extractFiveTuple mbuf).Within mbuf.data_len.toNat ↔ 34 ≤ mbuf.data_len.toNat := by
  rw [extract_version_four mbuf four]
  have headers := range_within_iff 14 20 mbuf.data_len.toNat (by decide)
  constructor
  · intro within
    exact headers.mp fun offset member => within offset (by simp [member])
  · intro room offset member
    simp only [List.mem_append, List.mem_cons, List.mem_range'_1] at member
    omega

end L2Switch.PacketHeaders
