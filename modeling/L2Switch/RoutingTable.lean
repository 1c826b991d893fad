import L2Switch.Addresses
import L2Switch.Histories
import L2Switch.TwoWayTables

/-!
The forwarding table of net/routing_table.rs with its locks left aside: the two
hash maps as the partial functions they store, and `add` with both membership
tests made in the maps it is about to update. What the locks do to `add` is the
subject of `RoutingLocks`.
-/
namespace L2Switch.RoutingTable
open Histories TwoWayTables

structure Tables where
  mac_table : MacAddr → Option Ipv4Addr
  ip_table : Ipv4Addr → Option MacAddr

def Tables.empty : Tables := { mac_table := fun _ => none, ip_table := fun _ => none }

def Tables.containsMac (tables : Tables) (mac : MacAddr) : Bool := (tables.mac_table mac).isSome

def Tables.containsIp (tables : Tables) (ip : Ipv4Addr) : Bool := (tables.ip_table ip).isSome

def Tables.getMac (tables : Tables) (ip : Ipv4Addr) : Option MacAddr := tables.ip_table ip

def Tables.getIp (tables : Tables) (mac : MacAddr) : Option Ipv4Addr := tables.mac_table mac

def Tables.insertBoth (tables : Tables) (mac : MacAddr) (ip : Ipv4Addr) : Tables :=
  { mac_table := Function.update tables.mac_table mac (some ip)
    ip_table := Function.update tables.ip_table ip (some mac) }

def Tables.add (tables : Tables) (mac : MacAddr) (ip : Ipv4Addr) : Tables :=
  if !tables.containsMac mac || !tables.containsIp ip then tables.insertBoth mac ip else tables

abbrev Sighting := MacAddr × Ipv4Addr

def addStep (tables : Tables) (seen : Sighting) : Option Tables :=
  some (tables.add seen.1 seen.2)

/-- Both lookups answer from one set of pairs. -/
def Tables.Mirror (tables : Tables) : Prop :=
  ∀ mac ip, tables.getIp mac = some ip ↔ tables.getMac ip = some mac

/-- A sighting agrees with the table on whether its two addresses are known. -/
def KnownTogether (tables : Tables) (seen : Sighting) : Prop :=
  tables.containsMac seen.1 = tables.containsIp seen.2

theorem mirror_iff (tables : Tables) :
    tables.Mirror ↔ Mirrored tables.mac_table tables.ip_table := Iff.rfl

theorem empty_mirror : Tables.empty.Mirror := mirrored_empty

theorem add_known (tables : Tables) (mac : MacAddr) (ip : Ipv4Addr)
    (knownMac : tables.containsMac mac = true) (knownIp : tables.containsIp ip = true) :
    tables.add mac ip = tables := by
  simp [Tables.add, knownMac, knownIp]

theorem add_unknown (tables : Tables) (mac : MacAddr) (ip : Ipv4Addr)
    (unknown : tables.mac_table mac = none ∨ tables.ip_table ip = none) :
    tables.add mac ip = tables.insertBoth mac ip := by
  rcases unknown with missing | missing <;>
    simp [Tables.add, Tables.containsMac, Tables.containsIp, missing]

/-- `add` either does nothing, with both addresses known, or writes both entries. -/
theorem add_cases (tables : Tables) (mac : MacAddr) (ip : Ipv4Addr) :
    (tables.containsMac mac = true ∧ tables.containsIp ip = true ∧ tables.add mac ip = tables) ∨
      ((tables.mac_table mac = none ∨ tables.ip_table ip = none) ∧
        tables.add mac ip = tables.insertBoth mac ip) := by
  cases partner : tables.mac_table mac with
  | none => exact Or.inr ⟨Or.inl rfl, add_unknown tables mac ip (Or.inl partner)⟩
  | some other =>
      cases owner : tables.ip_table ip with
      | none => exact Or.inr ⟨Or.inr rfl, add_unknown tables mac ip (Or.inr owner)⟩
      | some holder =>
          have knownMac : tables.containsMac mac = true := by simp [Tables.containsMac, partner]
          have knownIp : tables.containsIp ip = true := by simp [Tables.containsIp, owner]
          exact Or.inl ⟨knownMac, knownIp, add_known tables mac ip knownMac knownIp⟩

/-- `add` removes nothing, so it keeps the mirror exactly when its two addresses
are both new or both known. -/
theorem add_mirror_iff (tables : Tables) (seen : Sighting) (mirror : tables.Mirror) :
    (tables.add seen.1 seen.2).Mirror ↔ KnownTogether tables seen := by
  rcases add_cases tables seen.1 seen.2 with ⟨knownMac, knownIp, same⟩ | ⟨unknown, written⟩
  · simpa [KnownTogether, same, knownMac, knownIp] using mirror
  · rw [written, mirror_iff]
    refine (mirrored_write_iff tables.mac_table tables.ip_table mirror seen.1 seen.2
      unknown).trans ?_
    unfold KnownTogether Tables.containsMac Tables.containsIp
    rcases unknown with missing | missing
    · cases partner : tables.ip_table seen.2 <;> simp [missing]
    · cases partner : tables.mac_table seen.1 <;> simp [missing]

/-- The two tables mirror each other in every state a sequence of sightings
reaches exactly when each sighting finds its addresses both new or both known. -/
theorem mirror_along_iff (sightings : List Sighting) :
    Always addStep Tables.Mirror Tables.empty sightings ↔
      Admits addStep KnownTogether Tables.empty sightings := by
  have executed := run_isSome_of_total addStep (fun _ _ => rfl) Tables.empty sightings
  refine always_iff_admits addStep Tables.Mirror Tables.Mirror KnownTogether ?_
    (fun _ mirror => mirror) ?_ Tables.empty sightings empty_mirror executed
  · rintro tables seen next mirror together ⟨⟩
    exact (add_mirror_iff tables seen mirror).mpr together
  · rintro tables seen next mirror apart ⟨⟩ after
    exact apart ((add_mirror_iff tables seen mirror).mp after)

def firstHost : MacAddr := .new 2 0 0 0 0 1

/-- One host seen under a second address leaves the first one pointing at it. -/
theorem readdressed_host_breaks_mirror :
    ¬ ∀ (sightings : List Sighting) (reached : Tables),
      run addStep Tables.empty sightings = some reached →
        ∀ mac ip, reached.getIp mac = some ip ↔ reached.getMac ip = some mac := by
  intro claimed
  have mirror := claimed [(firstHost, .new 10 0 0 1), (firstHost, .new 10 0 0 2)] _ rfl
    firstHost (.new 10 0 0 1)
  revert mirror
  decide

end L2Switch.RoutingTable
