import L2Switch.BitRuns
import L2Switch.Addresses
import L2Switch.RadixText
import L2Switch.WrappingMachine

/-!
The CIDR ranges of net/cidr: v4.rs and v6.rs differ in the address type, the integer
type of its number and the constant for that type's width, so one set of definitions
over the three stands for both. The text of a single address is the standard library's.
-/
namespace L2Switch.CidrRanges
open BitRuns IpAddr RadixText WrappingMachine

inductive CidrError where
  | malformed (reason : String)
  | invalidPrefixLength
  deriving DecidableEq

structure Cidr (Addr : Type) (bits : Nat) where
  address : Addr
  mask : BitVec bits
  deriving DecidableEq

abbrev ipv4AddrBits : Nat := 32

abbrev ipv6AddrBits : Nat := 128

abbrev Ipv4Cidr := Cidr Ipv4Addr ipv4AddrBits

abbrev Ipv6Cidr := Cidr Ipv6Addr ipv6AddrBits

/-- Which of the two files a definition is read in. -/
inductive Family where
  | v4
  | v6

abbrev Family.Addr : Family → Type
  | .v4 => Ipv4Addr
  | .v6 => Ipv6Addr

abbrev Family.bits : Family → Nat
  | .v4 => ipv4AddrBits
  | .v6 => ipv6AddrBits

instance : (family : Family) → IpAddr family.Addr family.bits
  | .v4 => inferInstanceAs (IpAddr Ipv4Addr 32)
  | .v6 => inferInstanceAs (IpAddr Ipv6Addr 128)

theorem Family.bits_positive (family : Family) : 0 < family.bits := by
  cases family <;> decide

/-- The next address, if there is one, and the address at which the source's `end` stands. -/
structure CidrIterator (bits : Nat) where
  next : Option (BitVec bits)
  last : BitVec bits

/-- Parsing undoes printing, and a printed address has no `/`. -/
structure AddressText (Addr : Type) where
  print : Addr → String
  parse : String → Except String Addr
  parse_print : ∀ address, parse (print address) = .ok address
  print_noSlash : ∀ address, '/' ∉ (print address).toList

variable {State Error Addr : Type} {bits : Nat} [IpAddr Addr bits]

namespace Cidr

instance : Inhabited (Cidr Addr bits) := ⟨{ address := ofBits 0#(bits), mask := 0#(bits) }⟩

def broadcast (cidr : Cidr Addr bits) : Addr :=
  ofBits (cidr.mask &&& toBits cidr.address ||| ~~~cidr.mask)

def contains (cidr : Cidr Addr bits) (address : Addr) : Bool :=
  cidr.mask &&& toBits cidr.address == cidr.mask &&& toBits address

def length (cidr : Cidr Addr bits) : Nat := leadingZeros (~~~cidr.mask)

omit [IpAddr Addr bits] in
theorem length_le (cidr : Cidr Addr bits) : cidr.length ≤ bits := leadingZeros_le _

def netmask (cidr : Cidr Addr bits) : Addr := ofBits cidr.mask

def network (cidr : Cidr Addr bits) : Addr := ofBits (cidr.mask &&& toBits cidr.address)

def new (address : Addr) (length : Nat) : Except CidrError (Cidr Addr bits) :=
  if length = 0 then .ok { address, mask := BitVec.allOnes bits }
  else if length ≤ bits then .ok { address, mask := BitVec.allOnes bits <<< (bits - length) }
  else .error (.malformed "Not a valid length")

def netmaskLength (netmask : Addr) : Except CidrError Nat :=
  let mask := toBits netmask
  let length := leadingZeros (~~~mask)
  if leadingZeros mask = 0 ∧ trailingZeros mask = countZeros mask then .ok length
  else .error .invalidPrefixLength

def withNetmask (address netmask : Addr) : Except CidrError (Cidr Addr bits) := do
  let length ← netmaskLength netmask
  new address length

/-- By `length_le` only the power can overflow. -/
def size (cidr : Cidr Addr bits) : Machine State Error UInt64 :=
  powUsize 2 (bits - cidr.length)

end Cidr

/-- The casts of `size` to the number's type drop its upper bits. -/
def CidrIterator.new (start : Addr) (size : UInt64) : Machine State Error (CidrIterator bits) := do
  let start := toBits start
  let span ← subBits (BitVec.ofNat bits size.toNat) 1#(bits)
  let last ← addBits start span
  pure { next := some start, last }

def Cidr.iter (cidr : Cidr Addr bits) : Machine State Error (CidrIterator bits) := do
  let size ← cidr.size
  CidrIterator.new cidr.network size

def Iterator.next : Machine (CidrIterator bits) Error (Option Addr) := do
  match (← gets CidrIterator.next) with
  | none => pure none
  | some next =>
      if next = (← gets CidrIterator.last) then
        update fun iterator => { iterator with next := none }
      else
        let following ← addBits next 1#(bits)
        update fun iterator => { iterator with next := some following }
      pure (some (ofBits next))

/-- The answers of so many calls of `next`. -/
def Iterator.calls : Nat → Machine (CidrIterator bits) Error (List (Option Addr))
  | 0 => pure []
  | count + 1 => do
      let answer ← next
      let later ← calls count
      pure (answer :: later)

def Cidr.fromStr (codec : AddressText Addr) (s : String) : Except CidrError (Cidr Addr bits) :=
  match s.toList.splitOn '/' with
  | [addr, lenOrNetmask] => do
      let address ← (codec.parse (.ofList addr)).mapError .malformed
      -- `usize::from_str_radix(len_or_netmask, 10)`
      match fromStrRadix 10 UInt64.size lenOrNetmask with
      | some len => Cidr.new address len
      | none => do
          let netmask ← (codec.parse (.ofList lenOrNetmask)).mapError .malformed
          Cidr.withNetmask address netmask
  | _ => .error (.malformed "No `/` found")

def Cidr.display (codec : AddressText Addr) (cidr : Cidr Addr bits) : String :=
  codec.print cidr.address ++ "/" ++ toString cidr.length

/-- A value that `new`, `with_netmask` or `from_str` returned. -/
inductive Constructed : Cidr Addr bits → Prop where
  | new (address : Addr) (length : Nat) (cidr : Cidr Addr bits)
      (returned : Cidr.new address length = .ok cidr) : Constructed cidr
  | withNetmask (address netmask : Addr) (cidr : Cidr Addr bits)
      (returned : Cidr.withNetmask address netmask = .ok cidr) : Constructed cidr
  | fromStr (codec : AddressText Addr) (text : String) (cidr : Cidr Addr bits)
      (returned : Cidr.fromStr codec text = .ok cidr) : Constructed cidr

end L2Switch.CidrRanges
