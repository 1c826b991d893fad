import L2Switch.CidrPrefixes

/-!
What `iter` of a range yields. The iterator stops by equality with the last address, so
what it still has to yield is the run of addresses from its next one to the last; where
`size` and the end of the range are computed without overflow that run is the range.
-/
namespace L2Switch.CidrIteration
open BitRuns CidrPrefixes CidrRanges IpAddr WrappingMachine

variable {State Error Addr : Type} {bits : Nat} [IpAddr Addr bits]

def addressesFrom (start last : BitVec bits) : List Addr :=
  (List.range (last.toNat + 1 - start.toNat)).map fun offset =>
    ofBits (BitVec.ofNat bits (start.toNat + offset))

def remaining (iterator : CidrIterator bits) : List Addr :=
  match iterator.next with
  | none => []
  | some next => addressesFrom next iterator.last

/-- The iterator has not gone past its last address. -/
def Valid (iterator : CidrIterator bits) : Prop :=
  ∀ next, iterator.next = some next → next ≤ iterator.last

theorem addressesFrom_last (last : BitVec bits) :
    (addressesFrom last last : List Addr) = [ofBits last] := by
  simp [addressesFrom]

theorem toNat_one (start last : BitVec bits) (before : start < last) : (1#(bits)).toNat = 1 := by
  have small := BitVec.lt_def.mp before
  have bounded := last.isLt
  rw [BitVec.toNat_ofNat, Nat.mod_eq_of_lt (by omega)]

theorem toNat_following (start last : BitVec bits) (before : start < last) :
    (start + 1#(bits)).toNat = start.toNat + 1 := by
  have small := BitVec.lt_def.mp before
  have bounded := last.isLt
  rw [BitVec.toNat_add, toNat_one start last before, Nat.mod_eq_of_lt (by omega)]

theorem addressesFrom_cons (start last : BitVec bits) (before : start < last) :
    (addressesFrom start last : List Addr) =
      ofBits start :: addressesFrom (start + 1#(bits)) last := by
  have small := BitVec.lt_def.mp before
  have count : last.toNat + 1 - start.toNat = (last.toNat + 1 - (start.toNat + 1)) + 1 := by omega
  rw [addressesFrom, addressesFrom, toNat_following start last before, count,
    List.range_succ_eq_map, List.map_cons, List.map_map]
  congr 1
  · simp
  · apply List.map_congr_left
    intro offset _
    rw [Function.comp, Nat.add_assoc, Nat.add_comm 1]

/-- One call yields the first of the addresses that remain and keeps the others. -/
theorem next_run (iterator : CidrIterator bits) (valid : Valid iterator) :
    ∃ later, (Iterator.next : Machine (CidrIterator bits) Error (Option Addr)) iterator =
        .quiet (remaining iterator).head? later ∧
      Valid later ∧ (remaining later : List Addr) = (remaining iterator).tail := by
  obtain ⟨upcoming, last⟩ := iterator
  cases upcoming with
  | none => exact ⟨_, rfl, valid, rfl⟩
  | some next =>
      have bounded : next ≤ last := valid next rfl
      by_cases final : next = last
      · subst final
        refine ⟨{ next := none, last := next }, ?_, ?_, ?_⟩
        · simp [Iterator.next, remaining, addressesFrom_last, bind_run]
        · intro following found
          cases found
        · simp [remaining, addressesFrom_last]
      · have different : next.toNat ≠ last.toNat := fun same => final (BitVec.eq_of_toNat_eq same)
        have before : next < last := BitVec.lt_def.mpr (Nat.lt_of_le_of_ne bounded different)
        have fits : next.toNat + (1#(bits)).toNat < 2 ^ bits := by
          rw [toNat_one next last before]
          have small := BitVec.lt_def.mp before
          have limit := last.isLt
          omega
        refine ⟨{ next := some (next + 1#(bits)), last := last }, ?_, ?_, ?_⟩
        · simp [Iterator.next, remaining, addressesFrom_cons next last before, bind_run, final,
            addBits_exact _ _ _ fits]
        · rintro following ⟨⟩
          have small := BitVec.lt_def.mp before
          rw [BitVec.le_def, toNat_following next last before]
          exact small
        · simp [remaining, addressesFrom_cons next last before]

/-- Calls yield the addresses that remain in their order and nothing after them. -/
theorem calls_run (count : Nat) (iterator : CidrIterator bits) (valid : Valid iterator) :
    ∃ later, (Iterator.calls count : Machine (CidrIterator bits) Error (List (Option Addr))) iterator =
        .quiet ((List.range count).map ((remaining iterator)[·]?)) later := by
  induction count generalizing iterator with
  | zero => exact ⟨iterator, rfl⟩
  | succ count ih =>
      obtain ⟨next, called, stillValid, rest⟩ := @next_run Error Addr bits _ iterator valid
      obtain ⟨later, answered⟩ := ih next stillValid
      refine ⟨later, ?_⟩
      rw [Iterator.calls, bind_run, called, andThen_ok, bind_run, answered, andThen_ok, rest,
        List.range_succ_eq_map, List.map_cons, List.map_map, List.head?_eq_getElem?]
      simp [Function.comp_def, List.getElem?_tail]

theorem span_exact (free : Nat) (below : free < bits) (state : State) :
    ∃ span : BitVec bits, span.toNat = 2 ^ free - 1 ∧
      (subBits (BitVec.ofNat bits (2 ^ free)) 1#(bits) : Machine State Error (BitVec bits)) state =
        .quiet span state := by
  have positive := Nat.two_pow_pos free
  have fits : 2 ^ free < 2 ^ bits := Nat.pow_lt_pow_right (by decide) below
  have size : (BitVec.ofNat bits (2 ^ free)).toNat = 2 ^ free := by
    rw [BitVec.toNat_ofNat, Nat.mod_eq_of_lt fits]
  have one : (1#(bits)).toNat = 1 := by
    rw [BitVec.toNat_ofNat, Nat.mod_eq_of_lt (by omega)]
  have ordered : (1#(bits)).toNat ≤ (BitVec.ofNat bits (2 ^ free)).toNat := by omega
  refine ⟨_, ?_, subBits_exact _ _ state ordered⟩
  rw [BitVec.toNat_sub_of_le ordered, size, one]

section Building
variable (cidr : Cidr Addr bits) (free : Nat) (low : FreeBits cidr free)
include low

omit [IpAddr Addr bits] in
theorem size_of_free : (cidr.size : Machine State Error UInt64) = powUsize 2 free := by
  rw [Cidr.size, length_of_free cidr free low, Nat.sub_sub_self low.1]

omit [IpAddr Addr bits] in
theorem size_exact (small : free < 64) (state : State) :
    (cidr.size : Machine State Error UInt64) state = .quiet (.ofNat (2 ^ free)) state := by
  have fits : 2 ^ free < 2 ^ 64 := Nat.pow_lt_pow_right (by decide) small
  rw [size_of_free cidr free low]
  exact powUsize_exact 2 free state fits

omit [IpAddr Addr bits] in
theorem size_overflows (large : 64 ≤ free) (state : State) :
    ((cidr.size : Machine State Error UInt64) state).overflowed = true := by
  rw [size_of_free cidr free low]
  exact powUsize_overflows 2 free state (Nat.pow_le_pow_right (by decide) large)

/-- A range of fewer than 2^64 addresses is built from its network to its broadcast address. -/
theorem iter_exact (small : free < 64) (below : free < bits) (state : State) :
    (cidr.iter : Machine State Error (CidrIterator bits)) state =
      .quiet { next := some (toBits cidr.network), last := toBits cidr.broadcast } state := by
  obtain ⟨span, worth, subtracted⟩ := @span_exact State Error bits free below state
  have size : (UInt64.ofNat (2 ^ free)).toNat = 2 ^ free := by
    rw [UInt64.toNat_ofNat', Nat.mod_eq_of_lt (Nat.pow_lt_pow_right (by decide) small)]
  have ends : (toBits cidr.network).toNat + span.toNat = (toBits cidr.broadcast).toNat := by
    rw [worth, network_of_free cidr free low, broadcast_of_free cidr free low]
  have fits : (toBits cidr.network).toNat + span.toNat < 2 ^ bits := by
    rw [ends]
    exact (toBits cidr.broadcast).isLt
  have sum : toBits cidr.network + span = toBits cidr.broadcast := by
    apply BitVec.eq_of_toNat_eq
    rw [BitVec.toNat_add, ends, Nat.mod_eq_of_lt (toBits cidr.broadcast).isLt]
  rw [Cidr.iter, bind_run, size_exact cidr free low small, andThen_ok, CidrIterator.new, size,
    bind_run, subtracted, andThen_ok, bind_run, addBits_exact _ _ _ fits, andThen_ok, sum]
  rfl

theorem iter_overflows (large : 64 ≤ free) (state : State) :
    ((cidr.iter : Machine State Error (CidrIterator bits)) state).overflowed = true :=
  bind_overflowed _ _ state (size_overflows cidr free low large state)

end Building

theorem mem_addressesFrom_iff (start last : BitVec bits) (address : Addr) :
    address ∈ (addressesFrom start last : List Addr) ↔
      start ≤ toBits address ∧ toBits address ≤ last := by
  have limit := last.isLt
  rw [addressesFrom, List.mem_map, BitVec.le_def, BitVec.le_def]
  constructor
  · rintro ⟨offset, member, rfl⟩
    have inside := List.mem_range.mp member
    rw [toBits_ofBits, BitVec.toNat_ofNat, Nat.mod_eq_of_lt (by omega)]
    omega
  · rintro ⟨above, below⟩
    refine ⟨(toBits address).toNat - start.toNat, List.mem_range.mpr (by omega), ?_⟩
    rw [Nat.add_sub_cancel' above, BitVec.ofNat_toNat, BitVec.setWidth_eq, ofBits_toBits]

theorem addressesFrom_increasing (start last : BitVec bits) :
    (addressesFrom start last : List Addr).Pairwise fun earlier later =>
      toBits earlier < toBits later := by
  have limit := last.isLt
  apply List.pairwise_map.mpr
  refine List.Pairwise.imp_of_mem ?_ List.pairwise_lt_range
  intro earlier later earlierIn laterIn before
  have insideEarlier := List.mem_range.mp earlierIn
  have insideLater := List.mem_range.mp laterIn
  rw [BitVec.lt_def, toBits_ofBits, toBits_ofBits, BitVec.toNat_ofNat, BitVec.toNat_ofNat,
    Nat.mod_eq_of_lt (by omega), Nat.mod_eq_of_lt (by omega)]
  omega

theorem addressesFrom_head (start last : BitVec bits) (ordered : start ≤ last) :
    (addressesFrom start last : List Addr).head? = some (ofBits start) := by
  have bounded := BitVec.le_def.mp ordered
  have count : last.toNat + 1 - start.toNat = (last.toNat - start.toNat) + 1 := by omega
  rw [addressesFrom, count, List.range_succ_eq_map]
  simp

theorem addressesFrom_getLast (start last : BitVec bits) (ordered : start ≤ last) :
    (addressesFrom start last : List Addr).getLast? = some (ofBits last) := by
  have bounded := BitVec.le_def.mp ordered
  have count : last.toNat + 1 - start.toNat = (last.toNat - start.toNat) + 1 := by omega
  rw [addressesFrom, count, List.range_succ]
  simp [Nat.add_sub_cancel' bounded]

/-- The calls on a freshly built iterator yield these addresses in increasing order and
nothing more, they are those of the range, and no operation overflows. -/
structure IteratesOver (cidr : Cidr Addr bits) (addresses : List Addr) : Prop where
  increasing : addresses.Pairwise fun earlier later => toBits earlier < toBits later
  members : ∀ address, address ∈ addresses ↔ cidr.contains address = true
  first : addresses.head? = some cidr.network
  final : addresses.getLast? = some cidr.broadcast
  answers : ∃ iterator,
    (cidr.iter : Machine Unit Empty (CidrIterator bits)) () = .quiet iterator () ∧
      ∀ count, ∃ later,
        (Iterator.calls count : Machine (CidrIterator bits) Empty (List (Option Addr))) iterator =
          .quiet ((List.range count).map (addresses[·]?)) later

theorem network_le_broadcast (cidr : Cidr Addr bits) (free : Nat) (low : FreeBits cidr free) :
    toBits cidr.network ≤ toBits cidr.broadcast := by
  rw [BitVec.le_def, network_of_free cidr free low, broadcast_of_free cidr free low]
  exact Nat.le_add_right _ _

theorem iterates_over_range (cidr : Cidr Addr bits) (free : Nat) (low : FreeBits cidr free)
    (small : free < 64) (below : free < bits) :
    IteratesOver cidr (addressesFrom (toBits cidr.network) (toBits cidr.broadcast)) := by
  have ordered := network_le_broadcast cidr free low
  refine ⟨addressesFrom_increasing _ _, ?_, ?_, ?_, ?_⟩
  · intro address
    rw [mem_addressesFrom_iff, contains_iff_between cidr free low]
  · rw [addressesFrom_head _ _ ordered, ofBits_toBits]
  · rw [addressesFrom_getLast _ _ ordered, ofBits_toBits]
  · refine ⟨_, iter_exact cidr free low small below (), ?_⟩
    intro count
    apply calls_run
    rintro next ⟨⟩
    exact ordered

theorem iterates_iff_small (cidr : Cidr Addr bits) (free : Nat) (low : FreeBits cidr free)
    (below : free < bits) : (∃ addresses, IteratesOver cidr addresses) ↔ free < 64 := by
  constructor
  · rintro ⟨addresses, exact⟩
    obtain ⟨iterator, built, _⟩ := exact.answers
    refine Nat.lt_of_not_le fun large => ?_
    have overflowed := @iter_overflows Unit Empty Addr bits _ cidr free low large ()
    rw [built] at overflowed
    cases overflowed
  · intro small
    exact ⟨_, iterates_over_range cidr free low small below⟩

/-- An IPv6 range can be iterated exactly when it has fewer than 2^64 addresses. -/
theorem v6_iterates_iff (cidr : Ipv6Cidr) (made : Constructed cidr) :
    (∃ addresses, IteratesOver cidr addresses) ↔ 64 < cidr.length := by
  obtain ⟨free, below, low⟩ := free_of_constructed (by decide) cidr made
  rw [iterates_iff_small cidr free low below, length_of_free cidr free low]
  change _ ↔ 64 < 128 - free
  omega

/-- 20f6:1b85:cc34:: -/
def testAddress : Ipv6Addr := ofBits 0x20f61b85cc3400000000000000000000#128

theorem four_addresses_iterate_iff :
    (∃ addresses, IteratesOver { address := testAddress, mask := onesAbove 128 2 } addresses) ↔
      64 < Cidr.length { address := testAddress, mask := onesAbove 128 2 } :=
  v6_iterates_iff _ (.new testAddress 126 _ rfl)

/-- The size of a /64 is one more than a usize can hold. -/
theorem common_prefix_overflows :
    ¬ ∀ cidr : Ipv6Cidr, Constructed cidr → ∃ addresses, IteratesOver cidr addresses := by
  intro claimed
  have low : FreeBits { address := testAddress, mask := onesAbove 128 64 } 64 := ⟨by decide, rfl⟩
  have iterates := claimed _ (.new testAddress 64 _ rfl)
  exact absurd ((iterates_iff_small _ 64 low (by decide)).mp iterates) (by decide)

theorem length_addressesFrom (cidr : Cidr Addr bits) (free : Nat) (low : FreeBits cidr free) :
    (addressesFrom (toBits cidr.network) (toBits cidr.broadcast) : List Addr).length = 2 ^ free := by
  have positive := Nat.two_pow_pos free
  rw [addressesFrom, List.length_map, List.length_range, broadcast_of_free cidr free low,
    network_of_free cidr free low]
  omega

/-- Every IPv4 range that was returned can be iterated, and `size` says how often. -/
theorem v4_iterates (cidr : Ipv4Cidr) (made : Constructed cidr) :
    ∃ addresses size, IteratesOver cidr addresses ∧
      (cidr.size : Machine Unit Empty UInt64) () = .quiet size () ∧
      addresses.length = size.toNat := by
  obtain ⟨free, below, low⟩ := free_of_constructed (by decide) cidr made
  have small : free < 64 := Nat.lt_trans below (by decide)
  refine ⟨_, _, iterates_over_range cidr free low small below, size_exact cidr free low small (), ?_⟩
  rw [length_addressesFrom cidr free low, UInt64.toNat_ofNat',
    Nat.mod_eq_of_lt (Nat.pow_lt_pow_right (by decide) small)]

theorem last_four_iterate :
    ∃ addresses size,
      IteratesOver { address := Ipv4Addr.new 255 255 255 255, mask := onesAbove 32 2 } addresses ∧
        (Cidr.size { address := Ipv4Addr.new 255 255 255 255, mask := onesAbove 32 2 } :
          Machine Unit Empty UInt64) () = .quiet size () ∧
        addresses.length = size.toNat :=
  v4_iterates _ (.new (.new 255 255 255 255) 30 _ rfl)

end L2Switch.CidrIteration
