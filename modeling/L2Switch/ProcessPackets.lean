import L2Switch.PacketHeaders
import L2Switch.RoutingLocks

/-!
One poll of `process_packets` over the batches it finds in the queue. A pass records
which packet bytes were read, which calls were made on PORTMAP and FORWARDING_TABLE,
what the two hold then, and what ended the pass before the end of the queue: after
that no later packet is looked at. What `add` and `tx_to_clients` do is given from
outside. As it is written `add` waits for a lock that its own thread holds, so no packet
is ever done with; the other `add` here is the same program with its locks left aside.
-/
namespace L2Switch.ProcessPackets
open ByteMemory PacketHeaders RoutingTable RoutingLocks

structure PortIdMbuf where
  portid : UInt16
  buf : List RteMbuf

/-- A call on PORTMAP or FORWARDING_TABLE, whether or not it comes back. -/
inductive Call where
  | insert (portid : UInt16) (tuple : FiveTuple)
  | add (mac : MacAddr) (ip : Ipv4Addr)
  deriving DecidableEq

structure Statics where
  portmap : UInt16 → Option FiveTuple
  forwarding_table : Tables

def Statics.insert (statics : Statics) (portid : UInt16) (tuple : FiveTuple) : Statics :=
  { statics with portmap := Function.update statics.portmap portid (some tuple) }

def freshStatics : Statics := { portmap := fun _ => none, forwarding_table := .empty }

/-- The update that a call is made for. -/
def Call.apply (statics : Statics) : Call → Statics
  | .insert portid tuple => statics.insert portid tuple
  | .add mac ip => { statics with forwarding_table := statics.forwarding_table.add mac ip }

/-- What keeps a pass from the next packet: a fault, a lock that is never given back, or a
panic in `tx_to_clients`. -/
inductive Ending where
  | fault (fault : Fault)
  | waits (lock : TableLock)
  | panicked
  deriving DecidableEq

/-- `add` gives the tables it leaves or the lock it waits for, `txToClients` whether it
returns. -/
structure Callees where
  add : MacAddr → Ipv4Addr → Tables → Except TableLock Tables
  txToClients : RteMbuf → Bool

/-- `RoutingTable::add` with its locks, called on the one thread that runs. -/
def Callees.asWritten (sends : RteMbuf → Bool) : Callees :=
  { add := addAlone, txToClients := sends }

/-- `add` with its locking left aside. -/
def Callees.lockingAside (sends : RteMbuf → Bool) : Callees :=
  { add := fun mac ip tables => .ok ((RoutingLocks.add mac ip .done).effect tables)
    txToClients := sends }

/-- A `tx_to_clients` that simply consumes its packet. -/
def consumes (_ : RteMbuf) : Bool := true

structure Pass where
  reads : List (RteMbuf × Nat)
  calls : List Call
  statics : Statics
  ending : Option Ending

def Pass.idle (statics : Statics) : Pass := { reads := [], calls := [], statics, ending := none }

def Pass.andThen (first : Pass) (rest : Statics → Pass) : Pass :=
  match first.ending with
  | some _ => first
  | none =>
      let later := rest first.statics
      { later with reads := first.reads ++ later.reads, calls := first.calls ++ later.calls }

def callsFor (pnum : UInt16) (five_tuple : FiveTuple) : List Call :=
  [.insert pnum five_tuple, .add five_tuple.getDMac five_tuple.getDIp]

section Passes
variable (callees : Callees)

def insertTuple (pnum : UInt16) (five_tuple : FiveTuple) (statics : Statics) : Pass :=
  { reads := [], calls := [.insert pnum five_tuple], statics := statics.insert pnum five_tuple
    ending := none }

def addToTable (mac : MacAddr) (ip : Ipv4Addr) (statics : Statics) : Pass :=
  match callees.add mac ip statics.forwarding_table with
  | .error lock => { reads := [], calls := [.add mac ip], statics, ending := some (.waits lock) }
  | .ok forwarding_table =>
      { reads := [], calls := [.add mac ip], statics := { statics with forwarding_table }
        ending := none }

def txToClients (mbuf : RteMbuf) (statics : Statics) : Pass :=
  { reads := [], calls := [], statics
    ending := if callees.txToClients mbuf then none else some .panicked }

def record (pnum : UInt16) (mbuf : RteMbuf) (five_tuple : FiveTuple) (statics : Statics) : Pass :=
  (insertTuple pnum five_tuple statics).andThen fun statics =>
    (addToTable callees five_tuple.getDMac five_tuple.getDIp statics).andThen
      (txToClients callees mbuf)

def processMbuf (pnum : UInt16) (mbuf : RteMbuf) (statics : Statics) : Pass :=
  let access := extractFiveTuple mbuf
  let reads := access.reads.map fun offset => (mbuf, offset)
  match access.result with
  | .error fault => { reads, calls := [], statics, ending := some (.fault fault) }
  | .ok five_tuple =>
      Pass.andThen { reads, calls := [], statics, ending := none }
        (record callees pnum mbuf five_tuple)

def processMbufs (pnum : UInt16) : List RteMbuf → Statics → Pass
  | [], statics => .idle statics
  | mbuf :: rest, statics => (processMbuf callees pnum mbuf statics).andThen (processMbufs pnum rest)

def processElem (elem : PortIdMbuf) (statics : Statics) : Pass :=
  if !elem.buf.isEmpty then processMbufs callees elem.portid elem.buf statics else .idle statics

def processPackets : List PortIdMbuf → Statics → Pass
  | [], statics => .idle statics
  | elem :: mbufs, statics => (processElem callees elem statics).andThen (processPackets mbufs)

/-- Every queued packet with the port it came from, in the order of arrival. -/
def frames (mbufs : List PortIdMbuf) : List (UInt16 × RteMbuf) :=
  mbufs.flatMap fun elem => elem.buf.map fun mbuf => (elem.portid, mbuf)

def passOver : List (UInt16 × RteMbuf) → Statics → Pass
  | [], statics => .idle statics
  | frame :: rest, statics => (processMbuf callees frame.1 frame.2 statics).andThen (passOver rest)

theorem andThen_assoc (first : Pass) (middle last : Statics → Pass) :
    (first.andThen middle).andThen last =
      first.andThen fun statics => (middle statics).andThen last := by
  obtain ⟨reads, calls, statics, ending⟩ := first
  cases ending with
  | some ending => rfl
  | none =>
      simp only [Pass.andThen]
      cases ended : (middle statics).ending <;> simp [ended]

theorem passOver_append (before after : List (UInt16 × RteMbuf)) (statics : Statics) :
    passOver callees (before ++ after) statics =
      (passOver callees before statics).andThen (passOver callees after) := by
  induction before generalizing statics with
  | nil => rfl
  | cons frame rest ih =>
      simp only [List.cons_append, passOver, andThen_assoc]
      exact congrArg _ (funext ih)

theorem processMbufs_eq (pnum : UInt16) (mbufs : List RteMbuf) (statics : Statics) :
    processMbufs callees pnum mbufs statics =
      passOver callees (mbufs.map fun mbuf => (pnum, mbuf)) statics := by
  induction mbufs generalizing statics with
  | nil => rfl
  | cons mbuf rest ih => exact congrArg _ (funext ih)

theorem processElem_eq (elem : PortIdMbuf) (statics : Statics) :
    processElem callees elem statics = passOver callees (frames [elem]) statics := by
  have flat : frames [elem] = elem.buf.map fun mbuf => (elem.portid, mbuf) := by
    simp [frames]
  rw [flat, ← processMbufs_eq]
  unfold processElem
  cases elem.buf <;> rfl

/-- The loops over batches and packets visit the packets one after the other;
testing a batch for emptiness first changes nothing. -/
theorem processPackets_eq (mbufs : List PortIdMbuf) (statics : Statics) :
    processPackets callees mbufs statics = passOver callees (frames mbufs) statics := by
  induction mbufs generalizing statics with
  | nil => rfl
  | cons elem rest ih =>
      have apart : frames (elem :: rest) = frames [elem] ++ frames rest := by
        simp [frames]
      rw [processPackets, processElem_eq, apart, passOver_append]
      exact congrArg _ (funext ih)

theorem record_waits (pnum : UInt16) (mbuf : RteMbuf) (tuple : FiveTuple) (statics : Statics)
    (lock : TableLock)
    (waits : callees.add tuple.getDMac tuple.getDIp statics.forwarding_table = .error lock) :
    record callees pnum mbuf tuple statics =
      { reads := [], calls := callsFor pnum tuple, statics := statics.insert pnum tuple
        ending := some (.waits lock) } := by
  simp [record, insertTuple, addToTable, Statics.insert, waits, Pass.andThen, callsFor]

/-- The packet is sent on only when `add` has come back. -/
theorem record_added (pnum : UInt16) (mbuf : RteMbuf) (tuple : FiveTuple) (statics : Statics)
    (tables : Tables)
    (added : callees.add tuple.getDMac tuple.getDIp statics.forwarding_table = .ok tables) :
    record callees pnum mbuf tuple statics =
      { reads := [], calls := callsFor pnum tuple
        statics := { statics.insert pnum tuple with forwarding_table := tables }
        ending := if callees.txToClients mbuf then none else some .panicked } := by
  simp [record, insertTuple, addToTable, txToClients, Statics.insert, added, Pass.andThen, callsFor]

/-- Whatever becomes of the call of `add`, no more packet bytes are read, both calls are made,
PORTMAP has the tuple before the second one, and nothing faults. -/
theorem record_frame (pnum : UInt16) (mbuf : RteMbuf) (tuple : FiveTuple) (statics : Statics) :
    (record callees pnum mbuf tuple statics).reads = [] ∧
      (record callees pnum mbuf tuple statics).calls = callsFor pnum tuple ∧
      (record callees pnum mbuf tuple statics).statics.portmap =
        (statics.insert pnum tuple).portmap ∧
      ∀ fault, (record callees pnum mbuf tuple statics).ending ≠ some (.fault fault) := by
  cases outcome : callees.add tuple.getDMac tuple.getDIp statics.forwarding_table with
  | error lock => simp [record_waits callees pnum mbuf tuple statics lock outcome]
  | ok tables =>
      rw [record_added callees pnum mbuf tuple statics tables outcome]
      refine ⟨rfl, rfl, rfl, fun fault => ?_⟩
      dsimp only
      split <;> simp

/-- The bytes a packet's headers are copied from, and the calls its tuple is handed to. -/
theorem processMbuf_version_four (pnum : UInt16) (mbuf : RteMbuf) (statics : Statics)
    (four : version (mbuf.data 14) = 4) :
    processMbuf callees pnum mbuf statics =
      { reads := (extractFiveTuple mbuf).reads.map fun offset => (mbuf, offset)
        calls := callsFor pnum mbuf.tuple
        statics := (record callees pnum mbuf mbuf.tuple statics).statics
        ending := (record callees pnum mbuf mbuf.tuple statics).ending } := by
  obtain ⟨reads, calls, _, _⟩ := record_frame callees pnum mbuf mbuf.tuple statics
  simp only [processMbuf, extract_version_four mbuf four, Pass.andThen, reads, calls,
    List.append_nil, List.nil_append]

theorem processMbuf_other_version (pnum : UInt16) (mbuf : RteMbuf) (statics : Statics)
    (other : version (mbuf.data 14) ≠ 4) :
    processMbuf callees pnum mbuf statics =
      { reads := (extractFiveTuple mbuf).reads.map fun offset => (mbuf, offset)
        calls := [], statics, ending := some (.fault .null_dereference) } := by
  simp only [processMbuf, extract_other_version mbuf other]

end Passes

theorem record_asWritten (sends : RteMbuf → Bool) (pnum : UInt16) (mbuf : RteMbuf)
    (tuple : FiveTuple) (statics : Statics) :
    record (.asWritten sends) pnum mbuf tuple statics =
      { reads := [], calls := callsFor pnum tuple, statics := statics.insert pnum tuple
        ending := some (.waits .mac_table) } :=
  record_waits (.asWritten sends) pnum mbuf tuple statics .mac_table
    (addAlone_waits tuple.getDMac tuple.getDIp statics.forwarding_table)

theorem record_aside (sends : RteMbuf → Bool) (pnum : UInt16) (mbuf : RteMbuf)
    (tuple : FiveTuple) (statics : Statics) :
    record (.lockingAside sends) pnum mbuf tuple statics =
      { reads := [], calls := callsFor pnum tuple
        statics := (callsFor pnum tuple).foldl Call.apply statics
        ending := if sends mbuf then none else some .panicked } :=
  record_added (.lockingAside sends) pnum mbuf tuple statics
    (statics.forwarding_table.add tuple.getDMac tuple.getDIp)
    (congrArg Except.ok (add_effect tuple.getDMac tuple.getDIp .done statics.forwarding_table))

/-- No null pointer was followed, and no byte read past its packet. -/
def Pass.Clean (pass : Pass) : Prop :=
  (∀ fault, pass.ending ≠ some (.fault fault)) ∧
    ∀ read ∈ pass.reads, read.2 < read.1.data_len.toNat

theorem extract_reads_iff (mbuf : RteMbuf) (four : version (mbuf.data 14) = 4) :
    (∀ read ∈ (extractFiveTuple mbuf).reads.map fun offset => (mbuf, offset),
        read.2 < read.1.data_len.toNat) ↔ 34 ≤ mbuf.data_len.toNat := by
  rw [List.forall_mem_map]
  exact extract_within_iff mbuf four

/-- Whether a packet's headers are copied safely depends on nothing that is called later. -/
theorem processMbuf_clean_iff (callees : Callees) (pnum : UInt16) (mbuf : RteMbuf)
    (statics : Statics) :
    (processMbuf callees pnum mbuf statics).Clean ↔
      version (mbuf.data 14) = 4 ∧ 34 ≤ mbuf.data_len.toNat := by
  by_cases four : version (mbuf.data 14) = 4
  · rw [processMbuf_version_four callees pnum mbuf statics four, Pass.Clean,
      extract_reads_iff mbuf four]
    simp only [four, true_and, and_iff_right_iff_imp]
    exact fun _ => (record_frame callees pnum mbuf _ statics).2.2.2
  · rw [processMbuf_other_version callees pnum mbuf statics four]
    exact ⟨fun clean => absurd rfl (clean.1 _), fun carries => absurd carries.1 four⟩

/-- The calls that tell the tables about some packets. -/
def callsOf (arrived : List (UInt16 × RteMbuf)) : List Call :=
  arrived.flatMap fun frame => callsFor frame.1 frame.2.tuple

/-- What PORTMAP and FORWARDING_TABLE hold when some packets have been recorded. -/
def updated (arrived : List (UInt16 × RteMbuf)) (statics : Statics) : Statics :=
  (callsOf arrived).foldl Call.apply statics

theorem updated_append (before after : List (UInt16 × RteMbuf)) (statics : Statics) :
    updated (before ++ after) statics = updated after (updated before statics) := by
  simp [updated, callsOf]

/-- What the extraction of a queue should be: it goes on to the last packet and reads no
byte past a packet, and both tables are updated for the IPv4 frames and for no others. -/
structure ExtractsExactly (callees : Callees) (mbufs : List PortIdMbuf) (statics : Statics) :
    Prop where
  completes : (processPackets callees mbufs statics).ending = none
  within : ∀ read ∈ (processPackets callees mbufs statics).reads,
    read.2 < read.1.data_len.toNat
  calls : (processPackets callees mbufs statics).calls =
    callsOf ((frames mbufs).filter fun frame => Ipv4Frame frame.2)
  updates : (processPackets callees mbufs statics).statics =
    updated ((frames mbufs).filter fun frame => Ipv4Frame frame.2) statics

theorem frames_nil_iff (mbufs : List PortIdMbuf) :
    frames mbufs = [] ↔ ∀ elem ∈ mbufs, elem.buf = [] := by
  simp [frames]

theorem forall_frames_iff (mbufs : List PortIdMbuf) (good : RteMbuf → Prop) :
    (∀ frame ∈ frames mbufs, good frame.2) ↔ ∀ elem ∈ mbufs, ∀ mbuf ∈ elem.buf, good mbuf := by
  simp only [frames, List.mem_flatMap, List.mem_map]
  constructor
  · intro all elem member mbuf inside
    exact all (elem.portid, mbuf) ⟨elem, member, mbuf, inside, rfl⟩
  · rintro all frame ⟨elem, member, mbuf, inside, rfl⟩
    exact all elem member mbuf inside

section AsWritten
variable (sends : RteMbuf → Bool)

/-- As `add` is written, no packet is done with. -/
theorem asWritten_ends (pnum : UInt16) (mbuf : RteMbuf) (statics : Statics) :
    (processMbuf (.asWritten sends) pnum mbuf statics).ending ≠ none := by
  by_cases four : version (mbuf.data 14) = 4
  · simp [processMbuf_version_four _ pnum mbuf statics four, record_asWritten]
  · simp [processMbuf_other_version _ pnum mbuf statics four]

theorem asWritten_ending_iff (arrived : List (UInt16 × RteMbuf)) (statics : Statics) :
    (passOver (.asWritten sends) arrived statics).ending = none ↔ arrived = [] := by
  cases arrived with
  | nil => simp [passOver, Pass.idle]
  | cons frame rest =>
      obtain ⟨ending, ended⟩ :=
        Option.ne_none_iff_exists'.mp (asWritten_ends sends frame.1 frame.2 statics)
      simp [passOver, Pass.andThen, ended]

/-- As the source stands, extraction does what it should on exactly the queues that hold no
frame at all: the first one that is IPv4 locks the forwarding table up, any other one is a
null pointer followed. -/
theorem extracts_exactly_iff (mbufs : List PortIdMbuf) (statics : Statics) :
    ExtractsExactly (.asWritten sends) mbufs statics ↔ ∀ elem ∈ mbufs, elem.buf = [] := by
  rw [← frames_nil_iff]
  constructor
  · rintro ⟨completes, _, _, _⟩
    rwa [processPackets_eq, asWritten_ending_iff] at completes
  · intro none_queued
    have idle : processPackets (.asWritten sends) mbufs statics = .idle statics := by
      rw [processPackets_eq, none_queued, passOver]
    refine { completes := by rw [idle]; rfl, within := ?_, calls := ?_, updates := ?_ }
    · rw [idle]
      exact fun read member => absurd member List.not_mem_nil
    · rw [idle, none_queued]
      rfl
    · rw [idle, none_queued]
      rfl

end AsWritten

section Aside
variable (sends : RteMbuf → Bool)

theorem aside_ends_iff (pnum : UInt16) (mbuf : RteMbuf) (statics : Statics) :
    (processMbuf (.lockingAside sends) pnum mbuf statics).ending = none ↔
      version (mbuf.data 14) = 4 ∧ sends mbuf = true := by
  by_cases four : version (mbuf.data 14) = 4
  · simp [processMbuf_version_four _ pnum mbuf statics four, record_aside, four]
  · simp [processMbuf_other_version _ pnum mbuf statics four, four]

/-- With the locks left aside, a pass comes to its end exactly over packets of version 4 that
`tx_to_clients` returns from. -/
theorem aside_ending_iff (arrived : List (UInt16 × RteMbuf)) (statics : Statics) :
    (passOver (.lockingAside sends) arrived statics).ending = none ↔
      ∀ frame ∈ arrived, version (frame.2.data 14) = 4 ∧ sends frame.2 = true := by
  induction arrived generalizing statics with
  | nil => simp [passOver, Pass.idle]
  | cons frame rest ih =>
      rw [List.forall_mem_cons, ← aside_ends_iff sends frame.1 frame.2 statics, passOver,
        Pass.andThen]
      cases ended : (processMbuf (.lockingAside sends) frame.1 frame.2 statics).ending with
      | some ending => simp [ended]
      | none => simp [ih]

/-- It has then updated the tables for every packet, EtherType or not. -/
theorem aside_records (arrived : List (UInt16 × RteMbuf)) (statics : Statics)
    (carried : ∀ frame ∈ arrived, version (frame.2.data 14) = 4 ∧ sends frame.2 = true) :
    (passOver (.lockingAside sends) arrived statics).calls = callsOf arrived ∧
      (passOver (.lockingAside sends) arrived statics).statics = updated arrived statics := by
  induction arrived generalizing statics with
  | nil => exact ⟨rfl, rfl⟩
  | cons frame rest ih =>
      obtain ⟨head, tail⟩ := List.forall_mem_cons.mp carried
      have ended := (aside_ends_iff sends frame.1 frame.2 statics).mpr head
      obtain ⟨calls, recorded⟩ :=
        ih (processMbuf (.lockingAside sends) frame.1 frame.2 statics).statics tail
      simp only [passOver, Pass.andThen, ended, calls, recorded]
      rw [processMbuf_version_four _ _ _ _ head.1, record_aside]
      simp [callsOf, updated]

theorem aside_within_iff (arrived : List (UInt16 × RteMbuf)) (statics : Statics)
    (carried : ∀ frame ∈ arrived, version (frame.2.data 14) = 4 ∧ sends frame.2 = true) :
    (∀ read ∈ (passOver (.lockingAside sends) arrived statics).reads,
        read.2 < read.1.data_len.toNat) ↔ ∀ frame ∈ arrived, 34 ≤ frame.2.data_len.toNat := by
  induction arrived generalizing statics with
  | nil => simp [passOver, Pass.idle]
  | cons frame rest ih =>
      obtain ⟨head, tail⟩ := List.forall_mem_cons.mp carried
      have ended := (aside_ends_iff sends frame.1 frame.2 statics).mpr head
      simp only [passOver, Pass.andThen, ended, List.forall_mem_append, ih _ tail,
        List.forall_mem_cons]
      rw [processMbuf_version_four _ _ _ _ head.1]
      exact and_congr_left fun _ => extract_reads_iff frame.2 head.1

theorem callsOf_length (arrived : List (UInt16 × RteMbuf)) :
    (callsOf arrived).length = 2 * arrived.length := by
  induction arrived with
  | nil => rfl
  | cons frame rest ih =>
      have two : (callsFor frame.1 frame.2.tuple).length = 2 := rfl
      rw [callsOf] at ih
      rw [callsOf, List.flatMap_cons, List.length_append, ih, two, List.length_cons]
      omega

theorem calls_of_all_iff (arrived : List (UInt16 × RteMbuf)) :
    callsOf arrived = callsOf (arrived.filter fun frame => Ipv4Frame frame.2) ↔
      ∀ frame ∈ arrived, Ipv4Frame frame.2 := by
  constructor
  · intro same
    have counts := congrArg List.length same
    rw [callsOf_length, callsOf_length] at counts
    -- two calls a frame on either side, so the filter has dropped none
    have kept : (arrived.filter fun frame => Ipv4Frame frame.2).length = arrived.length := by
      omega
    intro frame member
    simpa using List.length_filter_eq_length_iff.mp kept frame member
  · intro all
    rw [List.filter_eq_self.mpr fun frame member => by simpa using all frame member]

/-- With the locks left aside, extraction does what it should on exactly the queues that hold
nothing but well-formed IPv4 frames. -/
theorem extracts_aside_iff (mbufs : List PortIdMbuf) (statics : Statics) :
    ExtractsExactly (.lockingAside consumes) mbufs statics ↔
      ∀ elem ∈ mbufs, ∀ mbuf ∈ elem.buf, Ipv4Frame mbuf := by
  rw [← forall_frames_iff]
  constructor
  · rintro ⟨completes, _, calls, _⟩
    rw [processPackets_eq] at completes calls
    have carried := (aside_ending_iff consumes _ statics).mp completes
    rw [(aside_records consumes _ statics carried).1] at calls
    exact (calls_of_all_iff _).mp calls
  · intro all
    have carried : ∀ frame ∈ frames mbufs,
        version (frame.2.data 14) = 4 ∧ consumes frame.2 = true :=
      fun frame member => ⟨(all frame member).2.2, rfl⟩
    have kept : (frames mbufs).filter (fun frame => Ipv4Frame frame.2) = frames mbufs :=
      List.filter_eq_self.mpr fun frame member => by simpa using all frame member
    obtain ⟨calls, recorded⟩ := aside_records consumes _ statics carried
    exact {
      completes := by rw [processPackets_eq]; exact (aside_ending_iff consumes _ statics).mpr carried
      within := by
        rw [processPackets_eq, aside_within_iff consumes _ statics carried]
        exact fun frame member => (all frame member).1
      calls := by rw [processPackets_eq, kept]; exact calls
      updates := by rw [processPackets_eq, kept]; exact recorded }

end Aside

/-- A 60 byte IPv6 frame as a port delivers it. -/
def ipv6Mbuf : RteMbuf :=
  { buf := fun address => if address = 140 then 0x86 else if address = 141 then 0xdd else
      if address = 142 then 0x60 else 0
    data_off := 128, data_len := 60 }

theorem ipv6_frame_crashes :
    ¬ ∀ mbufs statics, ExtractsExactly (.asWritten consumes) mbufs statics := by
  intro claimed
  have faults : (processPackets (.asWritten consumes) [{ portid := 0, buf := [ipv6Mbuf] }]
      freshStatics).ending = some (.fault .null_dereference) := by decide
  have completes := (claimed [{ portid := 0, buf := [ipv6Mbuf] }] freshStatics).completes
  rw [faults] at completes
  cases completes

end L2Switch.ProcessPackets
