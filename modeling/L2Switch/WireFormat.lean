import Mathlib.Algebra.Group.Nat.Defs
import L2Switch.ProcessPackets

/-!
What a `FiveTuple` should say about a packet, read off the wire: the octets of every
address in the order in which the packet carries them. The headers' `u32` fields are
loaded in the host's order and turned into addresses from the most significant byte.
-/
namespace L2Switch.WireFormat
open ByteMemory PacketHeaders ProcessPackets

def macOnWire (mbuf : RteMbuf) (offset : Nat) : MacAddr :=
  .new (mbuf.data offset) (mbuf.data (offset + 1)) (mbuf.data (offset + 2))
    (mbuf.data (offset + 3)) (mbuf.data (offset + 4)) (mbuf.data (offset + 5))

def ipOnWire (mbuf : RteMbuf) (offset : Nat) : Ipv4Addr :=
  .new (mbuf.data offset) (mbuf.data (offset + 1)) (mbuf.data (offset + 2)) (mbuf.data (offset + 3))

structure Decodes (mbuf : RteMbuf) (tuple : FiveTuple) : Prop where
  dst_mac : tuple.dst_mac = macOnWire mbuf 0
  src_mac : tuple.src_mac = macOnWire mbuf 6
  proto : tuple.proto = mbuf.data 23
  src_ip : tuple.src_ip = ipOnWire mbuf 26
  dst_ip : tuple.dst_ip = ipOnWire mbuf 30

/-- The tuple built from the packet says what the packet does, and so do the calls that
are made for it, whatever becomes of them. -/
def FollowsWire (pnum : UInt16) (mbuf : RteMbuf) : Prop :=
  ∃ tuple, (extractFiveTuple mbuf).result = .ok tuple ∧ Decodes mbuf tuple ∧
    ∀ callees statics, (processMbuf callees pnum mbuf statics).calls =
      [.insert pnum tuple, .add (macOnWire mbuf 0) (ipOnWire mbuf 30)]

/-- An address that reads the same from its last octet on. -/
def Palindrome (mbuf : RteMbuf) (offset : Nat) : Prop :=
  mbuf.data offset = mbuf.data (offset + 3) ∧ mbuf.data (offset + 1) = mbuf.data (offset + 2)

theorem low_or_high (low high width : Nat) (small : low < 2 ^ width) :
    low ||| high <<< width = low + 2 ^ width * high := by
  rw [Nat.or_comm, ← Nat.shiftLeft_add_eq_or_of_lt small, Nat.shiftLeft_eq, Nat.add_comm,
    Nat.mul_comm]

theorem nativeU16_toNat (bytes : Nat → UInt8) (offset : Nat) :
    (nativeU16 bytes offset).toNat = (bytes offset).toNat + 2 ^ 8 * (bytes (offset + 1)).toNat := by
  have low := (bytes offset).toNat_lt
  have high := (bytes (offset + 1)).toNat_lt
  have unshifted : ((bytes (offset + 1)).toUInt16 <<< 8).toNat = (bytes (offset + 1)).toNat <<< 8 := by
    simp only [UInt16.toNat_shiftLeft, UInt8.toNat_toUInt16, Nat.shiftLeft_eq]
    change _ * 2 ^ 8 % 2 ^ 16 = _ * 2 ^ 8
    omega
  rw [nativeU16, UInt16.toNat_or, unshifted, UInt8.toNat_toUInt16, low_or_high _ _ 8 low]

theorem nativeU32_toNat (bytes : Nat → UInt8) (offset : Nat) :
    (nativeU32 bytes offset).toNat =
      (nativeU16 bytes offset).toNat + 2 ^ 16 * (nativeU16 bytes (offset + 2)).toNat := by
  have low := (nativeU16 bytes offset).toNat_lt
  have high := (nativeU16 bytes (offset + 2)).toNat_lt
  have unshifted : ((nativeU16 bytes (offset + 2)).toUInt32 <<< 16).toNat =
      (nativeU16 bytes (offset + 2)).toNat <<< 16 := by
    simp only [UInt32.toNat_shiftLeft, UInt16.toNat_toUInt32, Nat.shiftLeft_eq]
    change _ * 2 ^ 16 % 2 ^ 32 = _ * 2 ^ 16
    omega
  rw [nativeU32, UInt32.toNat_or, unshifted, UInt16.toNat_toUInt32, low_or_high _ _ 16 low]

/-- The host reads the last of the four bytes as the most significant one. -/
theorem fromU32_nativeU32 (bytes : Nat → UInt8) (offset : Nat) :
    Ipv4Addr.fromU32 (nativeU32 bytes offset) =
      .new (bytes (offset + 3)) (bytes (offset + 2)) (bytes (offset + 1)) (bytes offset) := by
  have value := nativeU32_toNat bytes offset
  rw [nativeU16_toNat, nativeU16_toNat] at value
  have := (bytes offset).toNat_lt
  have := (bytes (offset + 1)).toNat_lt
  have := (bytes (offset + 2)).toNat_lt
  have := (bytes (offset + 2 + 1)).toNat_lt
  have shifted : ∀ places : UInt32, (nativeU32 bytes offset >>> places).toUInt8.toNat =
      (nativeU32 bytes offset).toNat / 2 ^ (places.toNat % 32) % 2 ^ 8 := by
    intro places
    rw [UInt32.toNat_toUInt8, UInt32.toNat_shiftRight, Nat.shiftRight_eq_div_pow]
  have first : (nativeU32 bytes offset >>> 24).toUInt8 = bytes (offset + 3) := by
    refine UInt8.toNat_inj.mp ((shifted 24).trans ?_)
    change _ / 2 ^ 24 % 2 ^ 8 = (bytes (offset + 2 + 1)).toNat
    omega
  have second : (nativeU32 bytes offset >>> 16).toUInt8 = bytes (offset + 2) := by
    refine UInt8.toNat_inj.mp ((shifted 16).trans ?_)
    change _ / 2 ^ 16 % 2 ^ 8 = _
    omega
  have third : (nativeU32 bytes offset >>> 8).toUInt8 = bytes (offset + 1) := by
    refine UInt8.toNat_inj.mp ((shifted 8).trans ?_)
    change _ / 2 ^ 8 % 2 ^ 8 = _
    omega
  have fourth : (nativeU32 bytes offset).toUInt8 = bytes offset := by
    refine UInt8.toNat_inj.mp ?_
    rw [UInt32.toNat_toUInt8]
    omega
  rw [Ipv4Addr.fromU32, first, second, third, fourth]

theorem reversed_iff (mbuf : RteMbuf) (offset : Nat) :
    Ipv4Addr.new (mbuf.data (offset + 3)) (mbuf.data (offset + 2)) (mbuf.data (offset + 1))
        (mbuf.data offset) = ipOnWire mbuf offset ↔
      Palindrome mbuf offset := by
  simp only [Ipv4Addr.new, ipOnWire, Palindrome, Ipv4Addr.mk.injEq, Vector.mk.injEq,
    Array.mk.injEq, List.cons.injEq, and_true]
  constructor
  · rintro ⟨outer, inner, _, _⟩
    exact ⟨outer.symm, inner.symm⟩
  · rintro ⟨outer, inner⟩
    exact ⟨outer.symm, inner.symm, inner, outer⟩

/-- The packet's tuple with both addresses turned round. -/
theorem tuple_eq (mbuf : RteMbuf) :
    mbuf.tuple =
      { dst_mac := macOnWire mbuf 0, src_mac := macOnWire mbuf 6, proto := mbuf.data 23
        src_ip := .new (mbuf.data 29) (mbuf.data 28) (mbuf.data 27) (mbuf.data 26)
        dst_ip := .new (mbuf.data 33) (mbuf.data 32) (mbuf.data 31) (mbuf.data 30) } := by
  have src := fromU32_nativeU32 (fun offset => mbuf.data (sizeofEtherHdr + offset)) 12
  have dst := fromU32_nativeU32 (fun offset => mbuf.data (sizeofEtherHdr + offset)) 16
  simp only [RteMbuf.tuple, FiveTuple.new, RteIpv4Hdr.layout, src, dst]
  rfl

theorem decodes_iff (mbuf : RteMbuf) :
    Decodes mbuf mbuf.tuple ↔ Palindrome mbuf 26 ∧ Palindrome mbuf 30 := by
  rw [tuple_eq]
  constructor
  · rintro ⟨_, _, _, src, dst⟩
    exact ⟨(reversed_iff mbuf 26).mp src, (reversed_iff mbuf 30).mp dst⟩
  · rintro ⟨src, dst⟩
    exact ⟨rfl, rfl, rfl, (reversed_iff mbuf 26).mpr src, (reversed_iff mbuf 30).mpr dst⟩

/-- A well-formed packet is decoded as the wire has it exactly when neither of its
addresses can be told from its reversal. -/
theorem follows_wire_iff (pnum : UInt16) (mbuf : RteMbuf) (frame : Ipv4Frame mbuf) :
    FollowsWire pnum mbuf ↔ Palindrome mbuf 26 ∧ Palindrome mbuf 30 := by
  have four := frame.2.2
  have extracted := extract_version_four mbuf four
  rw [← decodes_iff]
  constructor
  · rintro ⟨tuple, built, decodes, _⟩
    rw [extracted] at built
    cases built
    exact decodes
  · intro decodes
    refine ⟨mbuf.tuple, by rw [extracted], decodes, fun callees statics => ?_⟩
    have dst_mac : mbuf.tuple.getDMac = macOnWire mbuf 0 := decodes.dst_mac
    have dst_ip : mbuf.tuple.getDIp = ipOnWire mbuf 30 := decodes.dst_ip
    rw [processMbuf_version_four callees pnum mbuf statics four]
    simp only [callsFor, dst_mac, dst_ip]

/-- A TCP packet from 10.0.0.1 to 10.0.0.2. -/
def tcpMbuf : RteMbuf :=
  { buf := fun address => if address = 12 then 0x08 else if address = 14 then 0x45 else
      if address = 23 then 6 else if address = 26 then 10 else if address = 29 then 1 else
      if address = 30 then 10 else if address = 33 then 2 else 0
    data_off := 0, data_len := 60 }

theorem tcp_follows_iff : FollowsWire 0 tcpMbuf ↔ Palindrome tcpMbuf 26 ∧ Palindrome tcpMbuf 30 :=
  follows_wire_iff 0 tcpMbuf (by decide)

/-- `add` is called with 2.0.0.10 where the packet carries 10.0.0.2. -/
theorem address_reversed :
    ¬ ∀ (pnum : UInt16) (mbuf : RteMbuf), Ipv4Frame mbuf → FollowsWire pnum mbuf := by
  intro claimed
  obtain ⟨tuple, built, decodes, _⟩ := claimed 0 tcpMbuf (by decide)
  have dst_ip := decodes.dst_ip
  cases built
  revert dst_ip
  decide

end L2Switch.WireFormat
