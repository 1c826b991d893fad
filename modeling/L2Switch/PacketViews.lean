import L2Switch.FromBytes
import L2Switch.MbufLayers
import L2Switch.WireFormat

/-!
A packet as both sides of the engine see it. mbuf.rs edits the data bytes of a segment;
`process_packets` hands the same segment to C and copies two headers out of it. What it
tells PORTMAP and FORWARDING_TABLE is read off the first 34 data bytes, whoever put them
there; what becomes of its call of `add` is not asked here.
-/
namespace L2Switch.PacketViews
open BoundedEdits ByteMemory FromBytes Histories MbufLayers MbufRefinement PacketHeaders
open ProcessPackets WireFormat WrappingMachine

def headersSize : Nat := sizeofEtherHdr + sizeofIpv4Hdr

/-- The segment as C is given it: its memory counts from `buf_addr`. -/
def packet (raw : MbufData.RteMbuf) : RteMbuf :=
  { buf := fun address => raw.buf address, data_off := raw.data_off, data_len := raw.data_len }

def tupleAt (bytes : Nat → UInt8) : FiveTuple :=
  .new (.layout fun offset => bytes (sizeofEtherHdr + offset)) (.layout bytes)

def byteAt (bytes : List UInt8) (offset : Nat) : UInt8 := bytes.getD offset 0

/-- The tuple of a packet that begins with these bytes. -/
def tupleOf (bytes : List UInt8) : FiveTuple := tupleAt (byteAt bytes)

def CarriesIpv4 (bytes : List UInt8) : Prop :=
  headersSize ≤ bytes.length ∧ version (byteAt bytes sizeofEtherHdr) = 4

instance (bytes : List UInt8) : Decidable (CarriesIpv4 bytes) :=
  inferInstanceAs (Decidable (_ ∧ _))

/-- Whatever `add` and `tx_to_clients` do when they are called: the packet's headers are
copied without a fault and from its data bytes only, PORTMAP is given this tuple, and the
tuple's destination goes to `add`. -/
structure Yields (pnum : UInt16) (raw : MbufData.RteMbuf) (tuple : FiveTuple) : Prop where
  clean : ∀ callees statics, (processMbuf callees pnum (packet raw) statics).Clean
  calls : ∀ callees statics,
    (processMbuf callees pnum (packet raw) statics).calls = callsFor pnum tuple
  portmap : ∀ callees statics, (processMbuf callees pnum (packet raw) statics).statics.portmap =
    (statics.insert pnum tuple).portmap

theorem packet_data (raw : MbufData.RteMbuf) (offset : Nat) (inside : offset < raw.data_len.toNat) :
    (packet raw).data offset = byteAt raw.data offset := by
  have within : offset < raw.data.length := by rwa [MbufData.data_length]
  rw [byteAt, List.getD_eq_getElem?_getD, List.getElem?_eq_getElem within, Option.getD_some]
  simp [packet, RteMbuf.data, MbufData.RteMbuf.data]

theorem etherHdr_congr (first second : Nat → UInt8)
    (same : ∀ offset < sizeofEtherHdr, first offset = second offset) :
    RteEtherHdr.layout first = .layout second := by
  have mac : ∀ start, start + 6 ≤ sizeofEtherHdr → macAt first start = macAt second start := by
    intro start within
    apply Vector.ext
    intro index inside
    simp only [macAt, Vector.getElem_ofFn]
    exact same _ (by omega)
  simp only [RteEtherHdr.layout, mac 0 (by decide), mac 6 (by decide), nativeU16,
    same 12 (by decide), same 13 (by decide)]

theorem ipv4Hdr_congr (first second : Nat → UInt8)
    (same : ∀ offset < sizeofIpv4Hdr, first offset = second offset) :
    RteIpv4Hdr.layout first = .layout second := by
  have half : ∀ start, start + 2 ≤ sizeofIpv4Hdr → nativeU16 first start = nativeU16 second start :=
    fun start within => by rw [nativeU16, nativeU16, same _ (by omega), same _ (by omega)]
  simp only [RteIpv4Hdr.layout, nativeU32, same 0 (by decide), same 1 (by decide),
    same 8 (by decide), same 9 (by decide), half 2 (by decide), half 4 (by decide),
    half 6 (by decide), half 10 (by decide), half 12 (by decide), half 14 (by decide),
    half 16 (by decide), half 18 (by decide)]

/-- No byte behind the two headers has a say in the tuple. -/
theorem tupleAt_congr (first second : Nat → UInt8)
    (same : ∀ offset < headersSize, first offset = second offset) :
    tupleAt first = tupleAt second := by
  have ipv4 := ipv4Hdr_congr (fun offset => first (sizeofEtherHdr + offset))
    (fun offset => second (sizeofEtherHdr + offset))
    fun offset inside => same _ (Nat.add_lt_add_left inside sizeofEtherHdr)
  have ether := etherHdr_congr first second
    fun offset inside => same offset (Nat.lt_of_lt_of_le inside (Nat.le_add_right _ _))
  rw [tupleAt, tupleAt, ipv4, ether]

section SameFront
variable (first second : List UInt8) (front : first.take headersSize = second.take headersSize)
include front

theorem byteAt_front (offset : Nat) (inside : offset < headersSize) :
    byteAt first offset = byteAt second offset := by
  have same := congrArg (·[offset]?) front
  simp only [List.getElem?_take_of_lt inside] at same
  rw [byteAt, byteAt, List.getD_eq_getElem?_getD, List.getD_eq_getElem?_getD, same]

theorem tupleOf_front : tupleOf first = tupleOf second :=
  tupleAt_congr _ _ (byteAt_front first second front)

theorem carries_front : CarriesIpv4 first ↔ CarriesIpv4 second := by
  have length := congrArg List.length front
  simp only [List.length_take] at length
  rw [CarriesIpv4, CarriesIpv4, byteAt_front first second front sizeofEtherHdr (by decide)]
  exact and_congr_left fun _ => by omega

end SameFront

/-- A packet is processed cleanly exactly where its data bytes carry IPv4. -/
theorem clean_iff (callees : Callees) (pnum : UInt16) (raw : MbufData.RteMbuf) (statics : Statics) :
    (processMbuf callees pnum (packet raw) statics).Clean ↔ CarriesIpv4 raw.data := by
  rw [processMbuf_clean_iff, CarriesIpv4, MbufData.data_length, and_comm]
  refine and_congr_right fun long => ?_
  rw [packet_data raw 14 (Nat.lt_of_lt_of_le (by decide) long)]
  rfl

theorem yields_of_carries (pnum : UInt16) (raw : MbufData.RteMbuf) (carries : CarriesIpv4 raw.data) :
    Yields pnum raw (tupleOf raw.data) := by
  have long : headersSize ≤ raw.data_len.toNat := by
    rw [← MbufData.data_length]
    exact carries.1
  have tuple : (packet raw).tuple = tupleOf raw.data :=
    tupleAt_congr _ _ fun offset inside => packet_data raw offset (Nat.lt_of_lt_of_le inside long)
  have four : version ((packet raw).data 14) = 4 := by
    rw [packet_data raw 14 (Nat.lt_of_lt_of_le (by decide) long)]
    exact carries.2
  refine { clean := fun callees statics => (clean_iff callees pnum raw statics).mpr carries
           calls := fun callees statics => ?_, portmap := fun callees statics => ?_ }
  · rw [processMbuf_version_four callees pnum _ statics four, tuple]
  · rw [processMbuf_version_four callees pnum _ statics four, tuple]
    exact (record_frame callees pnum _ _ statics).2.2.1

/-- What a packet is taken for, by the bytes it begins with. -/
theorem yields_front (pnum : UInt16) (raw : MbufData.RteMbuf) (bytes : List UInt8)
    (front : raw.data.take headersSize = bytes.take headersSize) :
    Yields pnum raw (tupleOf bytes) ↔ CarriesIpv4 bytes := by
  rw [← tupleOf_front _ _ front, ← carries_front _ _ front]
  constructor
  · intro yields
    exact (clean_iff (.asWritten consumes) pnum raw freshStatics).mp (yields.clean _ _)
  · exact yields_of_carries pnum raw

section Built
variable (ptr : DpdkRings.MbufPtr) (fresh : FreshMbuf) {count : UInt64}
  (frame : MbufData.Items u8 count)

theorem frame_length : frame.bytes.length = count.toNat := by rw [frame.whole, u8_bytes]

theorem filled_data (room : count.toNat < fresh.raw.capacity) :
    (filled fresh frame).data = frame.bytes := by
  have small := MbufData.capacity_lt fresh.raw
  have len : (filled fresh frame).data_len.toNat = frame.bytes.length := by
    rw [frame_length]
    exact MbufData.toUInt16_exact count (by omega)
  rw [MbufData.RteMbuf.data, len]
  exact window_stored fresh.raw.buf fresh.raw.data_off.toNat frame.bytes

theorem built_iff (raw : MbufData.RteMbuf) :
    (fromBytes (some (ptr, fresh)) frame).result = .ok ({ inner := .Original ptr }, raw) ↔
      (1 ≤ count.toNat ∧ count.toNat < fresh.raw.capacity) ∧ raw = filled fresh frame := by
  by_cases fitting : 1 ≤ count.toNat ∧ count.toNat < fresh.raw.capacity
  · simp [fromBytes, FromBytes.new, fill_accepted fresh frame fitting.1 fitting.2, fitting, eq_comm]
  · simp [fromBytes, FromBytes.new, fill_refused fresh frame fitting, fitting]

/-- A frame handed to `from_bytes` is what `process_packets` finds in the packet, exactly
where it carries IPv4 and leaves a byte of the tailroom unused. -/
theorem built_yields_iff (pnum : UInt16) :
    ∃ room, MbufData.tailroom fresh.raw = .quiet room fresh.raw ∧
      ((∃ raw, (fromBytes (some (ptr, fresh)) frame).result = .ok ({ inner := .Original ptr }, raw) ∧
          Yields pnum raw (tupleOf frame.bytes)) ↔
        CarriesIpv4 frame.bytes ∧ frame.bytes.length < room.toNat) := by
  obtain ⟨room, measured, all⟩ := MbufData.tailroom_run fresh.raw fresh.fits
  rw [fresh_empty fresh, Nat.sub_zero] at all
  have length := frame_length frame
  have seen : count.toNat < fresh.raw.capacity →
      (Yields pnum (filled fresh frame) (tupleOf frame.bytes) ↔ CarriesIpv4 frame.bytes) :=
    fun room => yields_front pnum _ _ (congrArg _ (filled_data fresh frame room))
  refine ⟨room, measured, ?_⟩
  rw [all, length]
  simp only [built_iff]
  constructor
  · rintro ⟨_, ⟨fitting, rfl⟩, yields⟩
    exact ⟨(seen fitting.2).mp yields, fitting.2⟩
  · rintro ⟨carries, fits⟩
    have some_byte : 1 ≤ count.toNat := by
      rw [← length]
      exact Nat.le_trans (by decide) carries.1
    exact ⟨_, ⟨⟨some_byte, fits⟩, rfl⟩, (seen fits).mpr carries⟩

end Built

section Edited

/-- The segment where it began but for the bytes behind the headers. -/
structure SameHeaders (start raw : MbufData.RteMbuf) : Prop where
  kept : Kept start raw
  front : raw.data.take headersSize = start.data.take headersSize

theorem op_same_headers (start raw : MbufData.RteMbuf) (same : SameHeaders start raw) (op : MbufOp)
    (bounded : op.Bounded) (spares : op.edit.Spares headersSize) :
    SameHeaders start (op.run raw).state := by
  have kept := op_kept start raw same.kept op bounded
  have implements := bounded_implements raw same.kept.fits op bounded
  refine { kept, front := Eq.trans ?_ same.front }
  cases ran : (op.run raw).result with
  | ok out =>
      exact spared raw.data _ raw.capacity headersSize op.edit spares
        (implements.succeeds_iff.mp ⟨out, ran⟩) (implements.does out ran).1
  -- a call that is refused has edited nothing
  | error error => rw [implements.keeps error ran]

/-- However the bytes behind the headers are moved, cut off or written over, the packet is
taken for what it was before. -/
theorem payload_edits_unseen (pnum : UInt16) (start : MbufData.RteMbuf) (fits : start.Fits)
    (single : start.pkt_len.toNat = start.data_len.toNat) (carries : CarriesIpv4 start.data)
    (ops : List MbufOp) (behind : ∀ op ∈ ops, op.Bounded ∧ op.edit.Spares headersSize) :
    Always mbufStep (fun raw => Yields pnum raw (tupleOf start.data)) start ops := by
  have executed := run_isSome_of_total mbufStep (fun _ _ => rfl) start ops
  refine always_of_admits mbufStep (SameHeaders start) _
    (fun _ op => op.Bounded ∧ op.edit.Spares headersSize) ?_ ?_ start ops
    { kept := kept_self start fits single, front := rfl }
    ((admits_acts_iff mbufStep _ start ops executed).mpr behind)
  · rintro raw op next same ⟨bounded, spares⟩ ⟨⟩
    exact op_same_headers start raw same op bounded spares
  · intro raw same
    exact (yields_front pnum raw start.data same.front).mpr carries

/-- Two headers and six bytes behind them, with room for more. -/
def sixBehind : MbufData.RteMbuf :=
  { buf := fun address => if address = 18 then 0x45 else 0
    buf_len := 64, data_off := 4, data_len := 40, pkt_len := 40 }

theorem six_behind_unseen :
    Always mbufStep (fun raw => Yields 0 raw (tupleOf sixBehind.data)) sixBehind
      [.extend 34 9, .resize 36 (-4), .shrink 40 1, .truncate 34] :=
  payload_edits_unseen 0 sixBehind (by unfold MbufData.RteMbuf.Fits; decide) rfl (by decide) _ (by
    simp only [List.forall_mem_cons, MbufOp.Bounded]
    exact ⟨⟨⟨trivial, by decide⟩, (by decide : headersSize ≤ 34)⟩,
      ⟨⟨trivial, by decide⟩, (by decide : headersSize ≤ 36)⟩,
      ⟨⟨trivial, by decide⟩, (by decide : headersSize ≤ 40)⟩,
      ⟨⟨trivial, by decide⟩, (by decide : headersSize ≤ 34)⟩, List.forall_mem_nil _⟩)

end Edited

section Structs

/-- A `u16` of a C struct in the host's memory. -/
def u16Bytes (value : UInt16) : List UInt8 := [value.toUInt8, (value >>> 8).toUInt8]

def u32Bytes (value : UInt32) : List UInt8 :=
  u16Bytes value.toUInt16 ++ u16Bytes (value >>> 16).toUInt16

def etherBytes (hdr : RteEtherHdr) : List UInt8 :=
  hdr.d_addr.toList ++ hdr.s_addr.toList ++ u16Bytes hdr.ether_type

def ipv4Bytes (hdr : RteIpv4Hdr) : List UInt8 :=
  [hdr.version_ihl, hdr.type_of_service] ++ u16Bytes hdr.total_length ++ u16Bytes hdr.packet_id ++
    u16Bytes hdr.fragment_offset ++ [hdr.time_to_live, hdr.next_proto_id] ++
    u16Bytes hdr.hdr_checksum ++ u32Bytes hdr.src_addr ++ u32Bytes hdr.dst_addr

theorem etherBytes_length (hdr : RteEtherHdr) : (etherBytes hdr).length = sizeofEtherHdr := by
  simp [etherBytes, u16Bytes, sizeofEtherHdr]

theorem ipv4Bytes_length (hdr : RteIpv4Hdr) : (ipv4Bytes hdr).length = sizeofIpv4Hdr := rfl

theorem u16_read_back (value : UInt16) (bytes : Nat → UInt8) (offset : Nat)
    (low : bytes offset = value.toUInt8) (high : bytes (offset + 1) = (value >>> 8).toUInt8) :
    nativeU16 bytes offset = value := by
  have small := value.toNat_lt
  apply UInt16.toNat_inj.mp
  rw [nativeU16_toNat, low, high, UInt16.toNat_toUInt8, UInt16.toNat_toUInt8,
    UInt16.toNat_shiftRight, Nat.shiftRight_eq_div_pow]
  change value.toNat % 2 ^ 8 + 2 ^ 8 * (value.toNat / 2 ^ 8 % 2 ^ 8) = value.toNat
  omega

theorem u32_read_back (value : UInt32) (bytes : Nat → UInt8) (offset : Nat)
    (low : nativeU16 bytes offset = value.toUInt16)
    (high : nativeU16 bytes (offset + 2) = (value >>> 16).toUInt16) :
    nativeU32 bytes offset = value := by
  have small := value.toNat_lt
  apply UInt32.toNat_inj.mp
  rw [nativeU32_toNat, low, high, UInt32.toNat_toUInt16, UInt32.toNat_toUInt16,
    UInt32.toNat_shiftRight, Nat.shiftRight_eq_div_pow]
  change value.toNat % 2 ^ 16 + 2 ^ 16 * (value.toNat / 2 ^ 16 % 2 ^ 16) = value.toNat
  omega

theorem ipv4_read_back (hdr : RteIpv4Hdr) (rest : List UInt8) :
    RteIpv4Hdr.layout (byteAt (ipv4Bytes hdr ++ rest)) = hdr := by
  have half : ∀ value start, _ := fun value start =>
    u16_read_back value (byteAt (ipv4Bytes hdr ++ rest)) start
  have src := u32_read_back hdr.src_addr (byteAt (ipv4Bytes hdr ++ rest)) 12
    (half _ 12 rfl rfl) (half _ 14 rfl rfl)
  have dst := u32_read_back hdr.dst_addr (byteAt (ipv4Bytes hdr ++ rest)) 16
    (half _ 16 rfl rfl) (half _ 18 rfl rfl)
  rw [RteIpv4Hdr.layout, half hdr.total_length 2 rfl rfl, half hdr.packet_id 4 rfl rfl,
    half hdr.fragment_offset 6 rfl rfl, half hdr.hdr_checksum 10 rfl rfl, src, dst]
  rfl

/-- An address is read where its six bytes lie. -/
theorem macAt_eq (address : Vector UInt8 6) (bytes : Nat → UInt8) (start : Nat)
    (held : ∀ index (inside : index < 6), bytes (start + index) = address[index]) :
    macAt bytes start = address := by
  apply Vector.ext
  intro index inside
  rw [macAt, Vector.getElem_ofFn, held index inside]

theorem ether_read_back (hdr : RteEtherHdr) (rest : List UInt8) :
    RteEtherHdr.layout (byteAt (etherBytes hdr ++ rest)) = hdr := by
  have d_mac := macAt_eq hdr.d_addr (byteAt (etherBytes hdr ++ rest)) 0 (by
    intro index inside
    simp [byteAt, etherBytes, List.getElem?_append, inside])
  have s_mac := macAt_eq hdr.s_addr (byteAt (etherBytes hdr ++ rest)) 6 (by
    intro index inside
    have behind : ¬ 6 + index < 6 := Nat.not_lt.mpr (Nat.le_add_right 6 index)
    simp [byteAt, etherBytes, List.getElem?_append, inside, behind])
  have kind := u16_read_back hdr.ether_type (byteAt (etherBytes hdr ++ rest)) 12
    (by simp [byteAt, etherBytes, u16Bytes, List.getElem?_append])
    (by simp [byteAt, etherBytes, u16Bytes, List.getElem?_append])
  rw [RteEtherHdr.layout, d_mac, s_mac, kind]

theorem byteAt_behind (ether : RteEtherHdr) (rest : List UInt8) (offset : Nat) :
    byteAt (etherBytes ether ++ rest) (sizeofEtherHdr + offset) = byteAt rest offset := by
  rw [byteAt, byteAt, List.getD_eq_getElem?_getD,
    List.getElem?_append_right (by rw [etherBytes_length]; omega), etherBytes_length,
    Nat.add_sub_cancel_left, List.getD_eq_getElem?_getD]

/-- What the C structs at the front of a packet say is what they were written with. -/
theorem tupleOf_structs (ether : RteEtherHdr) (ipv4 : RteIpv4Hdr) (rest : List UInt8) :
    tupleOf (etherBytes ether ++ (ipv4Bytes ipv4 ++ rest)) = .new ipv4 ether := by
  simp only [tupleOf, tupleAt, byteAt_behind]
  rw [ether_read_back]
  exact congrArg (FiveTuple.new · ether) (ipv4_read_back ipv4 rest)

theorem carries_structs (ether : RteEtherHdr) (ipv4 : RteIpv4Hdr) (rest : List UInt8) :
    CarriesIpv4 (etherBytes ether ++ (ipv4Bytes ipv4 ++ rest)) ↔ version ipv4.version_ihl = 4 := by
  have first := byteAt_behind ether (ipv4Bytes ipv4 ++ rest) 0
  rw [Nat.add_zero] at first
  rw [CarriesIpv4, first]
  refine and_iff_right ?_
  rw [List.length_append, List.length_append, etherBytes_length, ipv4Bytes_length, headersSize]
  omega

def etherHeader (hdr : RteEtherHdr) : Header :=
  { T := { size_of := 14, fits := by decide }, offset := 0
    item := { bytes := etherBytes hdr, whole := etherBytes_length hdr
              fits := by rw [etherBytes_length]; decide } }

def ipv4Header (hdr : RteIpv4Hdr) : Header :=
  { T := { size_of := 20, fits := by decide }, offset := 0
    item := { bytes := ipv4Bytes hdr, whole := ipv4Bytes_length hdr
              fits := by rw [ipv4Bytes_length]; decide } }

/-- An IPv4 header pushed on any data and an Ethernet header on top of it are what the
packet is taken for, exactly where both find room and the version is 4. -/
theorem structs_yield_iff (pnum : UInt16) (raw : MbufData.RteMbuf) (fits : raw.Fits)
    (single : raw.pkt_len.toNat = raw.data_len.toNat) (ether : RteEtherHdr) (ipv4 : RteIpv4Hdr) :
    (∃ after, (pushAll [ipv4Header ipv4, etherHeader ether] raw).outcome = (.ok (), after, false) ∧
        Yields pnum after (.new ipv4 ether)) ↔
      raw.data_len.toNat + headersSize < raw.capacity ∧ version ipv4.version_ihl = 4 := by
  have kept := kept_self raw fits single
  have room : Stackable raw.capacity raw.data.length [ipv4Header ipv4, etherHeader ether] ↔
      raw.data_len.toNat + headersSize < raw.capacity := by
    have upper : (etherHeader ether).bytes.length = 14 := etherBytes_length ether
    have lower : (ipv4Header ipv4).bytes.length = 20 := ipv4Bytes_length ipv4
    have at_front : (etherHeader ether).offset.toNat = 0 ∧ (ipv4Header ipv4).offset.toNat = 0 :=
      ⟨rfl, rfl⟩
    simp only [Stackable, Fitting, upper, lower, at_front, headersSize, sizeofEtherHdr,
      sizeofIpv4Hdr, MbufData.data_length, and_true]
    omega
  have seen : ∀ after, after.data = stacked raw.data [ipv4Header ipv4, etherHeader ether] →
      (Yields pnum after (.new ipv4 ether) ↔ version ipv4.version_ihl = 4) := by
    intro after data
    -- pushed last, the Ethernet header lies in front
    have bytes : after.data = etherBytes ether ++ (ipv4Bytes ipv4 ++ raw.data) := by
      rw [data]
      rfl
    rw [← tupleOf_structs ether ipv4 raw.data, ← carries_structs ether ipv4 raw.data]
    exact yields_front pnum after _ (congrArg _ bytes)
  constructor
  · rintro ⟨after, pushed, yields⟩
    have stackable := stackable_of_pushed raw after kept _ pushed
    obtain ⟨_, pushed', _, data⟩ := pushAll_stackable raw kept _ stackable
    rw [pushed] at pushed'
    cases pushed'
    exact ⟨room.mp stackable, (seen after data).mp yields⟩
  · rintro ⟨space, four⟩
    obtain ⟨after, pushed, _, data⟩ := pushAll_stackable raw kept _ (room.mpr space)
    exact ⟨after, pushed, (seen after data).mpr four⟩

def ipv4Struct : RteIpv4Hdr :=
  { version_ihl := 0x45, type_of_service := 0, total_length := 26, packet_id := 7
    fragment_offset := 0, time_to_live := 64, next_proto_id := 17, hdr_checksum := 0
    src_addr := 0x0100000a, dst_addr := 0x0200000a }

def etherStruct : RteEtherHdr :=
  { d_addr := #v[2, 0, 0, 0, 0, 2], s_addr := #v[2, 0, 0, 0, 0, 1], ether_type := 8 }

/-- Six bytes with room for both headers and 20 bytes more. -/
def sixRoomy : MbufData.RteMbuf := { sixBytes with buf_len := 64 }

theorem six_roomy_yield :
    (∃ after, (pushAll [ipv4Header ipv4Struct, etherHeader etherStruct] sixRoomy).outcome =
          (.ok (), after, false) ∧ Yields 0 after (.new ipv4Struct etherStruct)) ↔
      sixRoomy.data_len.toNat + headersSize < sixRoomy.capacity ∧
        version ipv4Struct.version_ihl = 4 :=
  structs_yield_iff 0 sixRoomy (by unfold MbufData.RteMbuf.Fits; decide) rfl etherStruct ipv4Struct

end Structs

end L2Switch.PacketViews
