import L2Switch.CStrings
import L2Switch.NumberText
import L2Switch.RegistryHistory
import L2Switch.RingChannel

/-!
The ring names of both sides as C reads them. The engine passes an owned `CString`; the
client passes the bytes of a formatted `String`, with whatever lies behind them in memory.
-/
namespace L2Switch.RingNames
open CStrings DpdkRings RingChannel EngineRegistry RegistryHistory

/-- The name under which `set_client_status` creates the ring. -/
def ringName : RingType → UInt16 → String
  | .RX, id => rxName id
  | .TX, id => txName id

def label : RingType → String
  | .RX => "RX-"
  | .TX => "TX-"

/-- The text that `setup_channel` formats. -/
def formatted (rtype : RingType) (id : UInt16) : String := label rtype ++ toString id.toNat

def ringOf (channel : Channel) : RingType → Ring
  | .RX => channel.rx_q
  | .TX => channel.tx_q

/-- The lookup of the name at the front of the memory. -/
def rteRingLookupAt (rings : Rings) (memory : List UInt8) : Option RingPtr :=
  (cString memory).bind fun name =>
    (String.fromUTF8? (ByteArray.mk name.toArray)).bind (rteRingLookup rings)

/-- The client's lookup names the ring the engine created, and finds it and no other
whenever the engine has the client on its map. -/
structure SameRing (rtype : RingType) (id : UInt16) (behind : List UInt8) : Prop where
  name : cString (bytes (formatted rtype id) ++ behind) =
    (toCString (ringName rtype id)).bind cString
  finds : ∀ registry, Sound registry → ∀ ring,
    rteRingLookupAt registry.rings (bytes (formatted rtype id) ++ behind) = some ring ↔
      ∃ channel, registry.ring_map.lookup id = some channel ∧ (ringOf channel rtype).raw = ring

theorem formatted_eq (rtype : RingType) (id : UInt16) : formatted rtype id = ringName rtype id := by
  cases rtype <;> rfl

theorem ringName_clean (rtype : RingType) (id : UInt16) : 0 ∉ bytes (ringName rtype id) := by
  apply bytes_clean
  rw [← formatted_eq, formatted, String.toList_append, NumberText.toString_toList, List.mem_append]
  rintro (inLabel | inId)
  · cases rtype <;> simp [label] at inLabel
  · exact NumberText.not_mem_digits id.toNat '\x00' (by decide) inId

/-- A name that ends where the text does is looked up as that text. -/
theorem lookupAt_bytes (rings : Rings) (text : String) (clean : 0 ∉ bytes text)
    (after : List UInt8) :
    rteRingLookupAt rings (bytes text ++ 0 :: after) = rteRingLookup rings text := by
  have read : cString (bytes text ++ 0 :: after) = some (bytes text) :=
    (cString_eq_iff _ _ clean).mpr rfl
  rw [rteRingLookupAt, read, Option.bind_some, fromUTF8_bytes, Option.bind_some]

/-- The client's `lookup_ring` under the tail that C reads. -/
theorem lookupRing_at (rings : Rings) (id : UInt16) (rtype : RingType) (tail : String)
    (visible : '\x00' ∉ tail.toList) (after : List UInt8) :
    ContainerClient.lookupRing rings id rtype (label rtype) tail =
      Ring.fromPtr id rtype
        (rteRingLookupAt rings (bytes (formatted rtype id) ++ (bytes tail ++ 0 :: after))) := by
  have clean : 0 ∉ bytes (formatted rtype id ++ tail) := by
    rw [bytes_append, List.mem_append, not_or]
    exact ⟨formatted_eq rtype id ▸ ringName_clean rtype id, bytes_clean tail visible⟩
  have found := lookupAt_bytes rings _ clean after
  rw [bytes_append, List.append_assoc] at found
  rw [found]
  rfl

/-- Under its name the registry has the client's ring and nothing else. -/
theorem registered_iff (registry : Registry) (sound : Sound registry) (rtype : RingType)
    (id : UInt16) (ring : RingPtr) :
    rteRingLookup registry.rings (ringName rtype id) = some ring ↔
      ∃ channel, registry.ring_map.lookup id = some channel ∧ (ringOf channel rtype).raw = ring := by
  have named : ∀ channel, registry.ring_map.lookup id = some channel →
      rteRingLookup registry.rings (ringName rtype id) = some (ringOf channel rtype).raw := by
    intro channel mapped
    obtain ⟨tx, rx⟩ := sound.wrapped id channel mapped
    cases rtype with
    | RX => exact rx
    | TX => exact tx
  constructor
  · intro found
    obtain ⟨owner, mapped, name⟩ := sound.owned _ ring found
    have same : owner = id := by
      cases rtype with
      | RX =>
          rcases name with crossed | ours
          · exact absurd crossed (rxName_ne_txName id owner)
          · exact (rxName_inj _ _ ours).symm
      | TX =>
          rcases name with ours | crossed
          · exact (txName_inj _ _ ours).symm
          · exact absurd crossed.symm (rxName_ne_txName owner id)
    subst same
    obtain ⟨channel, entry⟩ := Option.isSome_iff_exists.mp mapped
    have ours := (named channel entry).symm.trans found
    exact ⟨channel, entry, Option.some.inj ours⟩
  · rintro ⟨channel, mapped, rfl⟩
    exact named channel mapped

theorem sameRing_iff (rtype : RingType) (id : UInt16) (behind : List UInt8) :
    SameRing rtype id behind ↔ behind.head? = some 0 := by
  have clean := ringName_clean rtype id
  constructor
  · rintro ⟨name, _⟩
    rw [cString_toCString _ clean, formatted_eq] at name
    exact (cString_eq_iff _ _ clean).mp name
  · intro ended
    obtain ⟨after, rfl⟩ : ∃ after, behind = 0 :: after := List.head?_eq_some_iff.mp ended
    constructor
    · rw [cString_toCString _ clean, formatted_eq]
      exact (cString_eq_iff _ _ clean).mpr rfl
    · intro registry sound ring
      rw [formatted_eq, lookupAt_bytes _ _ clean]
      exact registered_iff registry sound rtype id ring

/-- Client and engine name the same two rings exactly when a zero happens to lie behind
each text of the client. -/
theorem names_agree_iff (id : UInt16) (behind : RingType → List UInt8) :
    (∀ rtype, SameRing rtype id (behind rtype)) ↔ ∀ rtype, (behind rtype).head? = some 0 := by
  constructor
  · exact fun same rtype => (sameRing_iff rtype id _).mp (same rtype)
  · exact fun ended rtype => (sameRing_iff rtype id _).mpr (ended rtype)

/-- With a digit behind it, client 1 names the ring of client 12. -/
theorem digit_behind_name :
    cString (bytes (formatted .TX 1) ++ [0x32, 0]) = some (bytes (ringName .TX 12)) ∧
      ¬ SameRing .TX 1 [0x32, 0] := by
  constructor
  · decide
  · rw [sameRing_iff]
    decide

end L2Switch.RingNames
