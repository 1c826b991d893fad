import L2Switch.Learning

/-!
What FORWARDING_TABLE would be worth with the locking of `add` left aside. While nothing has
stopped the thread it is a function of the packets worked off, so two runs are compared by
these packets alone, however their tasks, ports, batches and queues took turns.
-/
namespace L2Switch.LearntTables
open Histories PacketHeaders ProcessPackets ReceiveLoop RoutingHistory RoutingTable
open EngineMessages Learning WorkHorse

/-- The pairs that the packets worked off carry. -/
def sighted (horse : Horse) : List Sighting := sightings (frames horse.processed)

/-- Asked by either address, the tables answer with these pairs and no others. -/
structure Tells (tables : Tables) (pairs : List Sighting) : Prop where
  by_mac : ∀ mac ip, tables.getIp mac = some ip ↔ (mac, ip) ∈ pairs
  by_ip : ∀ mac ip, tables.getMac ip = some mac ↔ (mac, ip) ∈ pairs

/-- Some port received a packet that carries this pair. -/
def Arrived (horse : Horse) (pair : Sighting) : Prop :=
  ∃ batch ∈ horse.rx.received, ∃ mbuf ∈ batch.buf,
    (mbuf.tuple.getDMac, mbuf.tuple.getDIp) = pair

/-- No address worked off is forgotten, no pair is made up, and the answers are exact as
long as no two packets contradict each other. -/
structure Trusted (horse : Horse) : Prop where
  remembered : ∀ mac ip, (mac, ip) ∈ sighted horse →
    horse.statics.forwarding_table.containsMac mac = true ∧
      horse.statics.forwarding_table.containsIp ip = true
  received : ∀ mac ip, horse.statics.forwarding_table.getIp mac = some ip ∨
    horse.statics.forwarding_table.getMac ip = some mac → Arrived horse (mac, ip)
  exact_iff : Tells horse.statics.forwarding_table (sighted horse) ↔ Consistent (sighted horse)

/-- The tables can tell neither of two contradicting packets. -/
theorem tells_iff (pairs : List Sighting) : Tells (tablesAfter pairs) pairs ↔ Consistent pairs := by
  constructor
  · intro tells first firstIn second secondIn
    constructor
    · intro same
      have one := (tells.by_mac first.1 first.2).mpr firstIn
      have other := (tells.by_mac second.1 second.2).mpr secondIn
      rw [same, other] at one
      exact (Option.some.inj one).symm
    · intro same
      have one := (tells.by_ip first.1 first.2).mpr firstIn
      have other := (tells.by_ip second.1 second.2).mpr secondIn
      rw [same, other] at one
      exact (Option.some.inj one).symm
  · intro consistent
    exact { by_mac := consistent_getIp pairs consistent
            by_ip := consistent_getMac pairs consistent }

/-- Tables that tell their pairs are the same just when the pairs are. -/
theorem tables_same_iff (first second : List Sighting) (consistent : Consistent first)
    (consistent' : Consistent second) :
    tablesAfter second = tablesAfter first ↔ ∀ pair, pair ∈ second ↔ pair ∈ first := by
  constructor
  · rintro same ⟨mac, ip⟩
    rw [← consistent_getIp second consistent', ← consistent_getIp first consistent, same]
  · exact tablesAfter_congr first second consistent

theorem sighted_arrived (horse : Horse) (worked : Worked horse) (pair : Sighting)
    (member : pair ∈ sighted horse) : Arrived horse pair := by
  obtain ⟨frame, seen, rfl⟩ := List.mem_map.mp member
  obtain ⟨batch, processed, inside⟩ := List.mem_flatMap.mp seen
  obtain ⟨mbuf, carried, rfl⟩ := List.mem_map.mp inside
  have pushed : batch ∈ horse.rx.pushed := by
    rw [worked.arrived]
    exact List.mem_append_left _ processed
  exact ⟨batch, worked.received.subset pushed, mbuf, carried, rfl⟩

theorem recorded_trusted (horse : Horse) (recorded : Recorded horse) : Trusted horse := by
  have tables : horse.statics.forwarding_table = tablesAfter (sighted horse) := by
    rw [recorded.statics, updated_forwarding]
    rfl
  refine { remembered := ?_, received := ?_, exact_iff := by rw [tables, tells_iff] }
  · intro mac ip member
    rw [tables, containsMac_iff, containsIp_iff]
    exact ⟨List.mem_map_of_mem member, List.mem_map_of_mem member⟩
  · intro mac ip told
    apply sighted_arrived horse recorded.worked
    rw [tables] at told
    exact told.elim (getIp_sighted _ mac ip) (getMac_sighted _ mac ip)

section Running
variable (sends : RteMbuf → Bool) (ports : List UInt16)

/-- A thread that goes on has met no batch that it could not work off. -/
theorem step_alive (horse : Horse) (act : HorseAct) (next : Horse)
    (before : horse.stopped = none → Recorded horse)
    (stepped : horseStep (.lockingAside sends) ports horse act = some next) :
    next.stopped = none → Recorded next := by
  intro lives
  have alive : horse.stopped = none := by
    cases horseStep_moved _ ports horse next act stepped with
    | worked elem mbufs mine goes => exact goes
    | polled | rx | emptied | checked | slept | controlled => exact lives
  have carried : Carried sends horse act := by
    by_contra other
    exact uncarried_stops sends ports horse act next other stepped lives
  exact step_recorded sends ports horse act next (before alive) carried stepped

variable (sender : Sender) (mbufs : BoundedFifo PortIdMbuf) (engine : Engine)

/-- What is so of every thread that could record what it worked off is so until it is stopped. -/
theorem alive_along (good : Horse → Prop) (sound : ∀ horse, Recorded horse → good horse)
    (acts : List HorseAct) :
    Always (horseStep (.lockingAside sends) ports) (fun horse => horse.stopped = none → good horse)
      (.start sender mbufs engine) acts :=
  always_of_invariant (horseStep (.lockingAside sends) ports)
    (fun horse => horse.stopped = none → Recorded horse) _ (step_alive sends ports)
    (fun horse recorded alive => sound horse (recorded alive)) _ acts
    fun _ => start_recorded sender mbufs engine

/-- Whatever arrives and however the tasks take turns, the locking of `add` left aside. -/
theorem trusted_along (acts : List HorseAct) :
    Always (horseStep (.lockingAside sends) ports) (fun horse => horse.stopped = none → Trusted horse)
      (.start sender mbufs engine) acts :=
  alive_along sends ports sender mbufs engine Trusted recorded_trusted acts

end Running

/-- With the locking of `add` left aside, two runs over consistent traffic have the same table
exactly when they have worked off the same pairs: nothing else of the runs shows in it. -/
theorem schedules_agree (sends sends' : RteMbuf → Bool) (ports ports' : List UInt16)
    (sender sender' : Sender) (mbufs mbufs' : BoundedFifo PortIdMbuf) (engine engine' : Engine)
    (acts acts' : List HorseAct) :
    Always (horseStep (.lockingAside sends) ports) (fun first => first.stopped = none →
      Always (horseStep (.lockingAside sends') ports') (fun second => second.stopped = none →
        Consistent (sighted first) → Consistent (sighted second) →
          (second.statics.forwarding_table = first.statics.forwarding_table ↔
            ∀ pair, pair ∈ sighted second ↔ pair ∈ sighted first))
        (.start sender' mbufs' engine') acts')
      (.start sender mbufs engine) acts := by
  refine alive_along sends ports sender mbufs engine _ (fun first recorded => ?_) acts
  refine alive_along sends' ports' sender' mbufs' engine' _ (fun second recorded' => ?_) acts'
  intro consistent consistent'
  rw [recorded.statics, recorded'.statics, updated_forwarding, updated_forwarding]
  exact tables_same_iff _ _ consistent consistent'

end L2Switch.LearntTables
