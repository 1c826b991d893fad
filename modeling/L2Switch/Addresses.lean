import L2Switch.BitRuns

/-!
The address types: the forwarding table is keyed by MAC and IPv4 addresses. An IP
address stands for a number, by `u32::from`, `u128::from` and the conversions back,
and the standard library orders addresses as it does their numbers.
-/
namespace L2Switch
open BitRuns

structure MacAddr where
  octets : Vector UInt8 6
  deriving DecidableEq

structure Ipv4Addr where
  octets : Vector UInt8 4
  deriving DecidableEq

structure Ipv6Addr where
  octets : Vector UInt8 16
  deriving DecidableEq

def MacAddr.new (a b c d e f : UInt8) : MacAddr := ⟨#v[a, b, c, d, e, f]⟩

def Ipv4Addr.new (a b c d : UInt8) : Ipv4Addr := ⟨#v[a, b, c, d]⟩

/-- `From<u32> for Ipv4Addr` takes the most significant byte as the first octet. -/
def Ipv4Addr.fromU32 (value : UInt32) : Ipv4Addr :=
  .new (value >>> 24).toUInt8 (value >>> 16).toUInt8 (value >>> 8).toUInt8 value.toUInt8

example : Ipv4Addr.fromU32 0xc0a80001 = .new 192 168 0 1 := by decide

class IpAddr (Addr : Type) (bits : outParam Nat) where
  toBits : Addr → BitVec bits
  ofBits : BitVec bits → Addr
  ofBits_toBits : ∀ address, ofBits (toBits address) = address
  toBits_ofBits : ∀ value, toBits (ofBits value) = value

attribute [simp] IpAddr.ofBits_toBits IpAddr.toBits_ofBits

theorem address_eq_of_toNat {Addr : Type} {bits : Nat} [IpAddr Addr bits] (one other : Addr)
    (equal : (IpAddr.toBits one).toNat = (IpAddr.toBits other).toNat) : one = other := by
  rw [← IpAddr.ofBits_toBits one, BitVec.eq_of_toNat_eq equal, IpAddr.ofBits_toBits]

def octetsOf {bits : Nat} (count : Nat) (value : BitVec bits) : Vector UInt8 count :=
  ⟨(toOctets count value.toNat).toArray, by simp⟩

theorem octetsOf_toList {bits : Nat} (count : Nat) (value : BitVec bits) :
    (octetsOf count value).toList = toOctets count value.toNat := by
  simp [octetsOf]

theorem octetsOf_fromOctets (count bits : Nat) (width : 256 ^ count = 2 ^ bits)
    (octets : Vector UInt8 count) :
    octetsOf count (BitVec.ofNat bits (fromOctets octets.toList)) = octets := by
  have fits := fromOctets_lt octets.toList
  rw [Vector.length_toList, width] at fits
  have back := toOctets_fromOctets octets.toList
  rw [Vector.length_toList] at back
  apply Vector.toList_inj.mp
  rw [octetsOf_toList, BitVec.toNat_ofNat, Nat.mod_eq_of_lt fits, back]

theorem fromOctets_octetsOf (count bits : Nat) (width : 256 ^ count = 2 ^ bits)
    (value : BitVec bits) :
    BitVec.ofNat bits (fromOctets (octetsOf count value).toList) = value := by
  have fits := value.isLt
  rw [← width] at fits
  apply BitVec.eq_of_toNat_eq
  rw [octetsOf_toList, fromOctets_toOctets count value.toNat fits, BitVec.toNat_ofNat,
    Nat.mod_eq_of_lt value.isLt]

instance : IpAddr Ipv4Addr 32 where
  toBits address := BitVec.ofNat 32 (fromOctets address.octets.toList)
  ofBits value := ⟨octetsOf 4 value⟩
  ofBits_toBits address := congrArg Ipv4Addr.mk (octetsOf_fromOctets 4 32 rfl address.octets)
  toBits_ofBits value := fromOctets_octetsOf 4 32 rfl value

instance : IpAddr Ipv6Addr 128 where
  toBits address := BitVec.ofNat 128 (fromOctets address.octets.toList)
  ofBits value := ⟨octetsOf 16 value⟩
  ofBits_toBits address := congrArg Ipv6Addr.mk (octetsOf_fromOctets 16 128 rfl address.octets)
  toBits_ofBits value := fromOctets_octetsOf 16 128 rfl value

/-- The two readings of `From<u32> for Ipv4Addr` agree. -/
theorem ofBits_eq_fromU32 (value : UInt32) :
    IpAddr.ofBits value.toBitVec = Ipv4Addr.fromU32 value := by
  have small := value.toNat_lt
  have octet : ∀ (number : Nat) (byte : UInt8), number % 256 = byte.toNat → UInt8.ofNat number = byte := by
    intro number byte same
    exact UInt8.toNat_inj.mp (by rw [UInt8.toNat_ofNat', same])
  apply congrArg Ipv4Addr.mk
  apply Vector.toList_inj.mp
  rw [octetsOf_toList, UInt32.toNat_toBitVec]
  simp only [toOctets, Vector.toList_mk, List.cons.injEq, and_true]
  refine ⟨octet _ _ ?_, octet _ _ ?_, octet _ _ ?_, octet _ _ ?_⟩ <;>
    simp [Nat.shiftRight_eq_div_pow] <;> omega

end L2Switch
