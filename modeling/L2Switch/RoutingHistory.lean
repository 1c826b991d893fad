import Mathlib.Data.List.Induction
import L2Switch.TwoWayTables
import L2Switch.RoutingTable

/-!
What the forwarding table says after any sequence of sightings: which addresses it
knows, which pairs it can hold, what one more `add` changes, and when the order of
the sightings does not matter.
-/
namespace L2Switch.RoutingHistory
open Histories TwoWayTables RoutingTable

def tablesAfter (sightings : List Sighting) : Tables :=
  sightings.foldl (fun tables seen => tables.add seen.1 seen.2) .empty

def macsOf (sightings : List Sighting) : List MacAddr := sightings.map Prod.fst

def ipsOf (sightings : List Sighting) : List Ipv4Addr := sightings.map Prod.snd

@[simp] theorem tablesAfter_append (sightings : List Sighting) (seen : Sighting) :
    tablesAfter (sightings ++ [seen]) = (tablesAfter sightings).add seen.1 seen.2 := by
  simp [tablesAfter]

theorem add_recorded_mac (tables : Tables) (mac : MacAddr) (ip : Ipv4Addr) :
    Recorded tables.mac_table mac ip (tables.add mac ip).mac_table := by
  rcases add_cases tables mac ip with ⟨known, _, same⟩ | ⟨_, written⟩
  · rw [same]
    exact .skipped known
  · rw [written]
    exact .written

theorem add_recorded_ip (tables : Tables) (mac : MacAddr) (ip : Ipv4Addr) :
    Recorded tables.ip_table ip mac (tables.add mac ip).ip_table := by
  rcases add_cases tables mac ip with ⟨_, known, same⟩ | ⟨_, written⟩
  · rw [same]
    exact .skipped known
  · rw [written]
    exact .written

theorem mac_history : KeepsHistory Prod.fst Prod.snd fun sightings : List Sighting =>
    (tablesAfter sightings).mac_table where
  empty _ := rfl
  append earlier seen := by
    rw [tablesAfter_append]
    exact add_recorded_mac (tablesAfter earlier) seen.1 seen.2

theorem ip_history : KeepsHistory Prod.snd Prod.fst fun sightings : List Sighting =>
    (tablesAfter sightings).ip_table where
  empty _ := rfl
  append earlier seen := by
    rw [tablesAfter_append]
    exact add_recorded_ip (tablesAfter earlier) seen.1 seen.2

/-- The macs known are those that were sighted. -/
theorem containsMac_iff (sightings : List Sighting) (mac : MacAddr) :
    (tablesAfter sightings).containsMac mac = true ↔ mac ∈ macsOf sightings :=
  isSome_iff mac_history sightings mac

theorem containsIp_iff (sightings : List Sighting) (ip : Ipv4Addr) :
    (tablesAfter sightings).containsIp ip = true ↔ ip ∈ ipsOf sightings :=
  isSome_iff ip_history sightings ip

theorem add_getIp_other (tables : Tables) (mac other : MacAddr) (ip : Ipv4Addr)
    (different : other ≠ mac) : (tables.add mac ip).getIp other = tables.getIp other :=
  recorded_other _ _ mac other ip (add_recorded_mac tables mac ip) different

theorem add_getMac_other (tables : Tables) (mac : MacAddr) (ip other : Ipv4Addr)
    (different : other ≠ ip) : (tables.add mac ip).getMac other = tables.getMac other :=
  recorded_other _ _ ip other mac (add_recorded_ip tables mac ip) different

/-- The latest sighting wins as long as one of its addresses is new; a sighting of two
addresses that were both sighted before, together or not, changes nothing. No `add` ever
changes an entry of another address. -/
theorem latest_wins_unless_both_sighted (sightings : List Sighting) (mac : MacAddr) (ip : Ipv4Addr) :
    (¬ (mac ∈ macsOf sightings ∧ ip ∈ ipsOf sightings) →
        ((tablesAfter sightings).add mac ip).getIp mac = some ip ∧
          ((tablesAfter sightings).add mac ip).getMac ip = some mac) ∧
      (mac ∈ macsOf sightings ∧ ip ∈ ipsOf sightings →
        (tablesAfter sightings).add mac ip = tablesAfter sightings) ∧
      (∀ other, other ≠ mac →
        ((tablesAfter sightings).add mac ip).getIp other = (tablesAfter sightings).getIp other) ∧
      ∀ other, other ≠ ip →
        ((tablesAfter sightings).add mac ip).getMac other = (tablesAfter sightings).getMac other := by
  have macs := containsMac_iff sightings mac
  have ips := containsIp_iff sightings ip
  refine ⟨fun fresh => ?_, fun both => ?_, ?_, ?_⟩
  · rcases add_cases (tablesAfter sightings) mac ip with ⟨knownMac, knownIp, _⟩ | ⟨_, written⟩
    · exact absurd ⟨macs.mp knownMac, ips.mp knownIp⟩ fresh
    · rw [written]
      exact ⟨Function.update_self mac _ _, Function.update_self ip _ _⟩
  · exact add_known _ mac ip (macs.mpr both.1) (ips.mpr both.2)
  · exact fun other different => add_getIp_other _ mac other ip different
  · exact fun other different => add_getMac_other _ mac ip other different

def secondHost : MacAddr := .new 2 0 0 0 0 2

/-- Two hosts that exchange their addresses are not noticed. -/
theorem exchanged_addresses_ignored :
    ¬ ∀ (sightings : List Sighting) (mac : MacAddr) (ip : Ipv4Addr),
      ((tablesAfter sightings).add mac ip).getIp mac = some ip ∧
        ((tablesAfter sightings).add mac ip).getMac ip = some mac ∧
        (∀ other, other ≠ mac → (tablesAfter sightings).getIp other ≠ some ip →
          ((tablesAfter sightings).add mac ip).getIp other = (tablesAfter sightings).getIp other) ∧
        ∀ other, other ≠ ip → (tablesAfter sightings).getMac other ≠ some mac →
          ((tablesAfter sightings).add mac ip).getMac other =
            (tablesAfter sightings).getMac other := by
  intro claimed
  have latest := (claimed [(firstHost, .new 10 0 0 1), (secondHost, .new 10 0 0 2)]
    firstHost (.new 10 0 0 2)).1
  revert latest
  decide

theorem getIp_sighted (sightings : List Sighting) (mac : MacAddr) (ip : Ipv4Addr)
    (found : (tablesAfter sightings).getIp mac = some ip) : (mac, ip) ∈ sightings := by
  rcases entry_of_found mac_history sightings mac ip found with ⟨seen, member, rfl, rfl⟩
  exact member

theorem getMac_sighted (sightings : List Sighting) (mac : MacAddr) (ip : Ipv4Addr)
    (found : (tablesAfter sightings).getMac ip = some mac) : (mac, ip) ∈ sightings := by
  rcases entry_of_found ip_history sightings ip mac found with ⟨seen, member, rfl, rfl⟩
  exact member

/-- No sighted address is forgotten and no pair is made up from two sightings, whether
or not the sightings contradict each other. -/
theorem records_what_was_sighted (sightings : List Sighting) :
    (∀ mac, (tablesAfter sightings).containsMac mac = true ↔ mac ∈ macsOf sightings) ∧
      (∀ ip, (tablesAfter sightings).containsIp ip = true ↔ ip ∈ ipsOf sightings) ∧
      (∀ mac ip, (tablesAfter sightings).getIp mac = some ip → (mac, ip) ∈ sightings) ∧
      ∀ mac ip, (tablesAfter sightings).getMac ip = some mac → (mac, ip) ∈ sightings :=
  ⟨containsMac_iff sightings, containsIp_iff sightings, getIp_sighted sightings,
    getMac_sighted sightings⟩

/-- Each mac is sighted with one ip only, and each ip with one mac. -/
def Consistent (sightings : List Sighting) : Prop :=
  ∀ first ∈ sightings, ∀ second ∈ sightings, first.1 = second.1 ↔ first.2 = second.2

instance (sightings : List Sighting) : Decidable (Consistent sightings) :=
  inferInstanceAs (Decidable (∀ first ∈ sightings, ∀ second ∈ sightings, _))

theorem consistent_getIp (sightings : List Sighting) (consistent : Consistent sightings)
    (mac : MacAddr) (ip : Ipv4Addr) :
    (tablesAfter sightings).getIp mac = some ip ↔ (mac, ip) ∈ sightings := by
  constructor
  · exact getIp_sighted sightings mac ip
  · intro member
    apply (found_iff mac_history sightings _ mac ip).mpr
    · exact ⟨(mac, ip), member, rfl, rfl⟩
    · exact fun first firstIn second secondIn => (consistent first firstIn second secondIn).mp

theorem consistent_getMac (sightings : List Sighting) (consistent : Consistent sightings)
    (mac : MacAddr) (ip : Ipv4Addr) :
    (tablesAfter sightings).getMac ip = some mac ↔ (mac, ip) ∈ sightings := by
  constructor
  · exact getMac_sighted sightings mac ip
  · intro member
    apply (found_iff ip_history sightings _ ip mac).mpr
    · exact ⟨(mac, ip), member, rfl, rfl⟩
    · exact fun first firstIn second secondIn => (consistent first firstIn second secondIn).mpr

theorem tables_eq (left right : Tables) (macs : ∀ mac, left.getIp mac = right.getIp mac)
    (ips : ∀ ip, left.getMac ip = right.getMac ip) : left = right := by
  cases left
  cases right
  exact congrArg₂ Tables.mk (funext macs) (funext ips)

/-- Consistent sightings of the same pairs give the same tables, in whatever order and
however often each pair was seen. -/
theorem tablesAfter_congr (first second : List Sighting) (consistent : Consistent first)
    (samePairs : ∀ seen, seen ∈ second ↔ seen ∈ first) : tablesAfter second = tablesAfter first := by
  have alike : Consistent second := fun left leftIn right rightIn =>
    consistent left ((samePairs left).mp leftIn) right ((samePairs right).mp rightIn)
  apply tables_eq
  · intro mac
    apply Option.ext
    intro ip
    rw [consistent_getIp second alike, consistent_getIp first consistent, samePairs]
  · intro ip
    apply Option.ext
    intro mac
    rw [consistent_getMac second alike, consistent_getMac first consistent, samePairs]

theorem order_irrelevant (sightings : List Sighting) (consistent : Consistent sightings) :
    (∀ mac ip, (tablesAfter sightings).getIp mac = some ip ↔ (mac, ip) ∈ sightings) ∧
      (∀ mac ip, (tablesAfter sightings).getMac ip = some mac ↔ (mac, ip) ∈ sightings) ∧
      (∀ reordered : List Sighting, reordered.Perm sightings →
        tablesAfter reordered = tablesAfter sightings) ∧
      ∀ repeats : List Sighting, (∀ seen ∈ repeats, seen ∈ sightings) →
        tablesAfter (sightings ++ repeats) = tablesAfter sightings := by
  refine ⟨consistent_getIp sightings consistent, consistent_getMac sightings consistent, ?_, ?_⟩
  · intro reordered perm
    exact tablesAfter_congr sightings reordered consistent fun _ => perm.mem_iff
  · intro repeats observed
    apply tablesAfter_congr sightings _ consistent
    intro seen
    rw [List.mem_append]
    exact ⟨fun either => either.elim id (observed seen), Or.inl⟩

theorem two_hosts_in_either_order :
    Consistent [(firstHost, .new 10 0 0 1), (secondHost, .new 10 0 0 2)] ∧
      tablesAfter [(secondHost, .new 10 0 0 2), (firstHost, .new 10 0 0 1)] =
        tablesAfter [(firstHost, .new 10 0 0 1), (secondHost, .new 10 0 0 2)] :=
  ⟨by decide, (order_irrelevant _ (by decide)).2.2.1 _ (List.Perm.swap _ _ [])⟩

end L2Switch.RoutingHistory
