import L2Switch.RoutingHistory
import L2Switch.WireFormat
import L2Switch.WorkHorse

/-!
What the switch has learnt from the packets it received, PORTMAP and FORWARDING_TABLE being
empty at first. With the locking of `add` left aside, and whatever body `tx_to_clients` is
given, the two tables hold what the packets worked off said. With the locks as they are the
first packet is the last.
-/
namespace L2Switch.Learning
open Histories ByteMemory PacketHeaders ProcessPackets ReceiveLoop RoutingHistory RoutingLocks
open RoutingTable EngineMessages WorkHorse

def sightings (arrived : List (UInt16 × RteMbuf)) : List Sighting :=
  arrived.map fun frame => (frame.2.tuple.getDMac, frame.2.tuple.getDIp)

/-- The tuple of the last packet that came through a port. -/
def lastTuple (port : UInt16) (arrived : List (UInt16 × RteMbuf)) : Option FiveTuple :=
  ((arrived.filter fun frame => frame.1 = port).getLast?).map fun frame => frame.2.tuple

/-- Nothing has stopped the thread, it has worked off what was pushed first, in that order,
and the tables hold what those packets said and nothing else. -/
structure Learnt (horse : Horse) : Prop where
  alive : horse.stopped = none
  arrived : horse.rx.pushed = horse.processed ++ horse.rx.mbufs.items
  received : horse.rx.pushed.Sublist horse.rx.received
  forwarding : horse.statics.forwarding_table = tablesAfter (sightings (frames horse.processed))
  portmap : ∀ port, horse.statics.portmap port = lastTuple port (frames horse.processed)

/-- The batch about to be worked off holds packets of version 4 only, and `tx_to_clients`
returns from them. -/
def Carried (sends : RteMbuf → Bool) (horse : Horse) : HorseAct → Prop
  | .process => ∀ elem ∈ horse.rx.mbufs.items.head?, ∀ mbuf ∈ elem.buf,
      version (mbuf.data 14) = 4 ∧ sends mbuf = true
  | _ => True

theorem frames_append (before after : List PortIdMbuf) :
    frames (before ++ after) = frames before ++ frames after := List.flatMap_append

theorem updated_singleton (frame : UInt16 × RteMbuf) (statics : Statics) :
    updated [frame] statics =
      { portmap := Function.update statics.portmap frame.1 (some frame.2.tuple)
        forwarding_table :=
          statics.forwarding_table.add frame.2.tuple.getDMac frame.2.tuple.getDIp } := rfl

theorem updated_forwarding (arrived : List (UInt16 × RteMbuf)) :
    (updated arrived freshStatics).forwarding_table = tablesAfter (sightings arrived) := by
  induction arrived using List.reverseRecOn with
  | nil => rfl
  | append_singleton arrived frame ih =>
      have last : sightings (arrived ++ [frame]) =
          sightings arrived ++ [(frame.2.tuple.getDMac, frame.2.tuple.getDIp)] := List.map_append
      rw [updated_append, updated_singleton, last, tablesAfter_append, ← ih]

theorem lastTuple_append (arrived : List (UInt16 × RteMbuf)) (frame : UInt16 × RteMbuf)
    (port : UInt16) : lastTuple port (arrived ++ [frame]) =
      if frame.1 = port then some frame.2.tuple else lastTuple port arrived := by
  rw [lastTuple, List.filter_append]
  by_cases same : frame.1 = port
  · simp [same]
  · simp [same, lastTuple]

theorem updated_portmap (arrived : List (UInt16 × RteMbuf)) (port : UInt16) :
    (updated arrived freshStatics).portmap port = lastTuple port arrived := by
  induction arrived using List.reverseRecOn with
  | nil => rfl
  | append_singleton arrived frame ih =>
      rw [updated_append, updated_singleton, lastTuple_append]
      simp only [Function.update_apply, ih, eq_comm]

theorem push_sublist (rx : Receiving) (batch : PortIdMbuf) (sublist : rx.pushed.Sublist rx.received) :
    (rx.push batch).pushed.Sublist (rx.push batch).received := by
  unfold Receiving.push
  split
  · exact sublist.append (List.Sublist.refl _)
  · exact sublist.trans (List.sublist_append_left _ _)

/-- The accounts of the packets, as long as all of them could be worked off. -/
structure Worked (horse : Horse) : Prop where
  arrived : horse.rx.pushed = horse.processed ++ horse.rx.mbufs.items
  received : horse.rx.pushed.Sublist horse.rx.received

theorem rx_worked (ports : List UInt16) (horse : Horse) (rx : Receiving) (recvd : List RteMbuf)
    (before : Worked horse) (moved : rxStep ports horse.rx recvd = some rx) :
    rx.pushed = horse.processed ++ rx.mbufs.items ∧ rx.pushed.Sublist rx.received := by
  obtain ⟨batches, items, pushed⟩ := rxStep_account ports horse.rx rx recvd moved
  refine ⟨by rw [pushed, items, before.arrived, List.append_assoc], ?_⟩
  rcases rxStep_queue ports horse.rx rx recvd moved with ⟨_, received, same⟩ | ⟨port, rest, _, rfl⟩
  · rw [same, received]
    exact before.received
  · exact push_sublist horse.rx _ before.received

/-- The tables are those that the packets worked off leave. -/
structure Recorded (horse : Horse) : Prop where
  alive : horse.stopped = none
  worked : Worked horse
  statics : horse.statics = updated (frames horse.processed) freshStatics

theorem start_recorded (sender : Sender) (mbufs : BoundedFifo PortIdMbuf) (engine : Engine) :
    Recorded (.start sender mbufs engine) :=
  { alive := rfl, worked := ⟨rfl, List.Sublist.refl _⟩, statics := rfl }

theorem recorded_learnt (horse : Horse) (recorded : Recorded horse) : Learnt horse :=
  { alive := recorded.alive, arrived := recorded.worked.arrived
    received := recorded.worked.received
    forwarding := by rw [recorded.statics, updated_forwarding]
    portmap := fun port => by rw [recorded.statics, updated_portmap] }

section Aside

variable (sends : RteMbuf → Bool)

theorem elem_carried_iff (elem : PortIdMbuf) (statics : Statics) :
    (processElem (.lockingAside sends) elem statics).ending = none ↔
      ∀ mbuf ∈ elem.buf, version (mbuf.data 14) = 4 ∧ sends mbuf = true := by
  rw [processElem_eq, aside_ending_iff,
    forall_frames_iff [elem] fun mbuf => version (mbuf.data 14) = 4 ∧ sends mbuf = true,
    List.forall_mem_singleton]

/-- A batch that can be worked off leaves its packets' updates. -/
theorem elem_updates (elem : PortIdMbuf) (statics : Statics)
    (done : (processElem (.lockingAside sends) elem statics).ending = none) :
    (processElem (.lockingAside sends) elem statics).statics = updated (frames [elem]) statics := by
  rw [processElem_eq] at done ⊢
  exact (aside_records sends _ statics ((aside_ending_iff sends _ statics).mp done)).2

variable (ports : List UInt16)

/-- Where a batch is popped, working it off comes to its end exactly where it can be carried. -/
theorem carried_iff (horse : Horse) (elem : PortIdMbuf) (rest : List PortIdMbuf)
    (items : horse.rx.mbufs.items = elem :: rest) :
    Carried sends horse .process ↔
      (processElem (.lockingAside sends) elem horse.statics).ending = none := by
  rw [elem_carried_iff, Carried, items]
  simp

theorem step_recorded (horse : Horse) (act : HorseAct) (next : Horse) (before : Recorded horse)
    (carried : Carried sends horse act)
    (stepped : horseStep (.lockingAside sends) ports horse act = some next) : Recorded next := by
  obtain ⟨alive, ⟨arrived, received⟩, statics⟩ := before
  cases horseStep_moved _ ports horse next act stepped with
  | polled | emptied | checked | slept | controlled => exact ⟨alive, ⟨arrived, received⟩, statics⟩
  | rx recvd rx mine moved =>
      obtain ⟨arrived', received'⟩ := rx_worked ports horse rx recvd ⟨arrived, received⟩ moved
      exact ⟨alive, ⟨arrived', received'⟩, statics⟩
  | worked elem mbufs mine goes items =>
      have done := (carried_iff sends horse elem mbufs.items items).mp carried
      rw [work_done _ horse elem mbufs done]
      refine ⟨alive, ⟨by simp [arrived, items], received⟩, ?_⟩
      rw [elem_updates sends elem horse.statics done, statics, ← updated_append, frames_append]

/-- A batch that cannot be carried stops the thread. -/
theorem uncarried_stops (horse : Horse) (act : HorseAct) (next : Horse)
    (other : ¬ Carried sends horse act)
    (stepped : horseStep (.lockingAside sends) ports horse act = some next) :
    next.stopped ≠ none := by
  cases horseStep_moved _ ports horse next act stepped with
  | polled | rx | checked | slept => exact absurd trivial other
  | controlled act sender outside => rcases outside with rfl | rfl <;> exact absurd trivial other
  | emptied mine goes empty => exact absurd (by simp [Carried, empty]) other
  | worked elem mbufs mine goes items =>
      rw [carried_iff sends horse elem mbufs.items items] at other
      obtain ⟨ending, ended⟩ := Option.ne_none_iff_exists'.mp other
      rw [work_stopped _ horse elem mbufs ending ended]
      exact Option.some_ne_none _

/-- With the locking of `add` left aside, the switch has learnt what its ports received, in
that order and nothing else, exactly along the runs in which every packet worked off has
version 4 and can be sent on. -/
theorem learns_iff (sender : Sender) (mbufs : BoundedFifo PortIdMbuf) (engine : Engine)
    (acts : List HorseAct)
    (executed : (run (horseStep (.lockingAside sends) ports) (.start sender mbufs engine)
      acts).isSome) :
    Always (horseStep (.lockingAside sends) ports) Learnt (.start sender mbufs engine) acts ↔
      Admits (horseStep (.lockingAside sends) ports) (Carried sends) (.start sender mbufs engine)
        acts :=
  always_iff_admits (horseStep (.lockingAside sends) ports) Recorded Learnt (Carried sends)
    (step_recorded sends ports) recorded_learnt
    (fun horse act next _ other stepped learnt =>
      uncarried_stops sends ports horse act next other stepped learnt.alive) _ acts
    (start_recorded sender mbufs engine) executed

end Aside

def onePacket : BoundedFifo PortIdMbuf :=
  { capacity := 4, items := [{ portid := 1, buf := [WireFormat.tcpMbuf] }], fits := by decide }

theorem one_packet_learnt_iff :
    Always (horseStep (.lockingAside consumes) [1]) Learnt (.start .silent onePacket .new)
        [.poll .processPackets, .process, .process] ↔
      Admits (horseStep (.lockingAside consumes) [1]) (Carried consumes)
        (.start .silent onePacket .new) [.poll .processPackets, .process, .process] :=
  learns_iff consumes [1] .silent onePacket .new _ rfl

section AsWritten

/-- What is left when the first packet was the last. -/
def afterFirst (portid : UInt16) (mbuf : RteMbuf) : Statics × Ending :=
  if version (mbuf.data 14) = 4 then
    (freshStatics.insert portid mbuf.tuple, .waits .mac_table)
  else (freshStatics, .fault .null_dereference)

/-- FORWARDING_TABLE is empty, and nothing was learnt while no packet was worked off. What
stops the thread is the first packet. -/
structure AtFirst (horse : Horse) : Prop where
  unlearnt : horse.statics.forwarding_table = .empty
  processed : ∀ elem ∈ horse.processed, elem.buf = []
  before : horse.stopped = none → horse.statics = freshStatics
  first : ∀ elem ending, horse.stopped = some (elem, ending) →
    ∃ mbuf rest, elem.buf = mbuf :: rest ∧ (horse.statics, ending) = afterFirst elem.portid mbuf

/-- After the first packet no batch is received and none worked off. -/
structure EndsAtFirst (sends : RteMbuf → Bool) (ports : List UInt16) (horse : Horse) : Prop
    extends AtFirst horse where
  last : horse.stopped ≠ none → ∀ later reached,
    run (horseStep (.asWritten sends) ports) horse later = some reached →
      reached.statics = horse.statics ∧ reached.processed = horse.processed ∧
        reached.rx.received = horse.rx.received

variable (sends : RteMbuf → Bool) (ports : List UInt16)

/-- With the locks as they are no second packet is looked at, whatever `tx_to_clients` is. -/
theorem elem_first (elem : PortIdMbuf) (mbuf : RteMbuf) (rest : List RteMbuf)
    (packets : elem.buf = mbuf :: rest) :
    (processElem (.asWritten sends) elem freshStatics).statics = (afterFirst elem.portid mbuf).1 ∧
      (processElem (.asWritten sends) elem freshStatics).ending =
        some (afterFirst elem.portid mbuf).2 := by
  have flat : frames [elem] = (elem.portid, mbuf) :: rest.map fun mbuf => (elem.portid, mbuf) := by
    simp [frames, packets]
  rw [processElem_eq, flat, passOver]
  by_cases four : version (mbuf.data 14) = 4
  · simp [processMbuf_version_four _ _ mbuf _ four, record_asWritten, Pass.andThen, afterFirst, four]
  · simp [processMbuf_other_version _ _ mbuf _ four, Pass.andThen, afterFirst, four]

/-- The accounts that a stopped thread leaves as they are. -/
structure Halted (horse reached : Horse) : Prop where
  running : reached.running = some .processPackets
  stopped : reached.stopped = horse.stopped
  statics : reached.statics = horse.statics
  processed : reached.processed = horse.processed
  received : reached.rx.received = horse.rx.received

/-- A stopped thread lets none of its tasks go on. -/
theorem step_halted (horse reached : Horse) (act : HorseAct) (next : Horse)
    (stopped : horse.stopped ≠ none) (halted : Halted horse reached)
    (stepped : horseStep (.asWritten sends) ports reached act = some next) : Halted horse next := by
  have mine := halted.running
  cases horseStep_moved _ ports reached next act stepped with
  | polled task idle => simp [mine] at idle
  | rx recvd rx polled => simp [mine] at polled
  | emptied polled goes => exact absurd (halted.stopped.symm.trans goes) stopped
  | worked elem mbufs polled goes => exact absurd (halted.stopped.symm.trans goes) stopped
  | checked outcome polled => simp [mine] at polled
  | slept fired outcome polled => simp [mine] at polled
  | controlled =>
      exact ⟨mine, halted.stopped, halted.statics, halted.processed, halted.received⟩

/-- The thread is in `process_packets` when a packet stops it. -/
structure FirstPacket (horse : Horse) : Prop extends AtFirst horse where
  held : horse.stopped ≠ none → horse.running = some .processPackets

theorem firstPacket_ends (horse : Horse) (good : FirstPacket horse) :
    EndsAtFirst sends ports horse := by
  refine { toAtFirst := good.toAtFirst, last := fun stopped later reached executed => ?_ }
  have halted := run_invariant (horseStep (.asWritten sends) ports) (Halted horse)
    (fun reached act next halted stepped =>
      step_halted sends ports horse reached act next stopped halted stepped)
    horse reached later ⟨good.held stopped, rfl, rfl, rfl, rfl⟩ executed
  exact ⟨halted.statics, halted.processed, halted.received⟩

theorem work_firstPacket (horse : Horse) (elem : PortIdMbuf) (mbufs : BoundedFifo PortIdMbuf)
    (good : FirstPacket horse) (mine : horse.running = some .processPackets)
    (goes : horse.stopped = none) :
    FirstPacket (horse.work (.asWritten sends) elem mbufs) := by
  have fresh := good.before goes
  cases packets : elem.buf with
  | nil =>
      have done := (elem_done_iff sends elem horse.statics).mpr packets
      have same : (processElem (.asWritten sends) elem horse.statics).statics = horse.statics := by
        simp [processElem, packets, Pass.idle]
      rw [work_done _ horse elem mbufs done, same]
      refine { unlearnt := good.unlearnt, before := fun _ => fresh, first := good.first
               held := good.held, processed := fun other member => ?_ }
      rcases List.mem_append.mp member with earlier | last
      · exact good.processed other earlier
      · rw [List.mem_singleton.mp last]
        exact packets
  | cons mbuf rest =>
      obtain ⟨statics, ended⟩ := elem_first sends elem mbuf rest packets
      rw [← fresh] at statics ended
      rw [work_stopped _ horse elem mbufs _ ended, statics]
      refine { unlearnt := ?_, processed := good.processed
               before := fun alive => absurd alive (Option.some_ne_none _)
               first := fun _ _ same => ?_, held := fun _ => mine }
      · change (afterFirst elem.portid mbuf).1.forwarding_table = .empty
        unfold afterFirst
        split <;> rfl
      · cases same
        exact ⟨mbuf, rest, packets, rfl⟩

theorem step_firstPacket (horse : Horse) (act : HorseAct) (next : Horse) (good : FirstPacket horse)
    (stepped : horseStep (.asWritten sends) ports horse act = some next) : FirstPacket next := by
  obtain ⟨⟨unlearnt, processed, before, first⟩, held⟩ := good
  have kept : ∀ task, horse.running = some task → task ≠ .processPackets → horse.stopped = none := by
    intro task polled other
    by_contra stopped
    rw [held stopped, Option.some.injEq] at polled
    exact other polled.symm
  cases horseStep_moved _ ports horse next act stepped with
  | polled task idle =>
      exact ⟨⟨unlearnt, processed, before, first⟩, fun stopped => by simp [held stopped] at idle⟩
  | rx recvd rx mine moved =>
      have alive := kept .rxMain mine nofun
      exact ⟨⟨unlearnt, processed, before, first⟩, fun stopped => absurd alive stopped⟩
  | emptied mine goes =>
      exact ⟨⟨unlearnt, processed, before, first⟩, fun stopped => absurd goes stopped⟩
  | worked elem mbufs mine goes =>
      exact work_firstPacket sends horse elem mbufs ⟨⟨unlearnt, processed, before, first⟩, held⟩ mine goes
  | checked outcome mine =>
      have alive := kept .checkNSet mine nofun
      exact ⟨⟨unlearnt, processed, before, first⟩, fun stopped => absurd alive stopped⟩
  | slept fired outcome mine =>
      have alive := kept .checkNSet mine nofun
      exact ⟨⟨unlearnt, processed, before, first⟩, fun stopped => absurd alive stopped⟩
  | controlled => exact ⟨⟨unlearnt, processed, before, first⟩, held⟩

/-- As the source stands the first packet ends it, whatever `tx_to_clients` would do: of
version 4 it is put into PORTMAP and locks FORWARDING_TABLE up, of any other version it is a
null pointer followed. -/
theorem first_packet_is_last (sender : Sender) (mbufs : BoundedFifo PortIdMbuf) (engine : Engine)
    (acts : List HorseAct) :
    Always (horseStep (.asWritten sends) ports) (EndsAtFirst sends ports)
      (.start sender mbufs engine) acts :=
  always_of_invariant (horseStep (.asWritten sends) ports) FirstPacket (EndsAtFirst sends ports)
    (step_firstPacket sends ports) (firstPacket_ends sends ports) _ acts
    { unlearnt := rfl, processed := nofun, before := fun _ => rfl, first := nofun, held := nofun }

end AsWritten

end L2Switch.Learning
