import L2Switch.FromBytes
import L2Switch.Histories
import L2Switch.MempoolReturns
import L2Switch.Places

/-!
Where the mbufs of the mempools are over a whole run: `Mbuf::new`, `from_bytes`,
`alloc_bulk`, `free_bulk` and `Drop` of dpdk/mbuf.rs, `PortQueue::receive` and `transmit` of
dpdk/port.rs. The program place stands for every `Mbuf` and raw pointer the process keeps,
those in rings too. Which free objects a pool hands out and when a device refills its
receive queue or is done with a packet is the environment's choice.
-/
namespace L2Switch.MbufPools
open Histories DpdkRings RingChannel MbufData FromBytes PortTransmit MempoolReturns Places

variable {Pool : Type}

inductive Place (Pool : Type) where
  | pool (pool : Pool)
  | program
  | device
  deriving DecidableEq

/-- The mempools that were made and the objects each was filled with. -/
structure Layout (Pool : Type) where
  pools : List Pool
  once : pools.Nodup
  poolOf : MbufPtr → Pool
  objects : List MbufPtr
  distinct : objects.Nodup
  known : ∀ obj ∈ objects, poolOf obj ∈ pools

abbrev Mbufs (Pool : Type) := Place Pool → List MbufPtr

def Layout.places (layout : Layout Pool) : List (Place Pool) :=
  layout.pools.map .pool ++ [.program, .device]

/-- Every object of every pool is in one place, and nothing else is anywhere. -/
def EachInOnePlace (layout : Layout Pool) (mbufs : Mbufs Pool) : Prop :=
  (everything layout.places mbufs).Perm layout.objects

/-- What a pool has to give was made for that pool. -/
def OwnObjectsFree (layout : Layout Pool) (mbufs : Mbufs Pool) : Prop :=
  ∀ pool, ∀ ptr ∈ mbufs (.pool pool), layout.poolOf ptr = pool

section Placing
variable (layout : Layout Pool)

theorem pool_place (pool : Pool) (member : pool ∈ layout.pools) : .pool pool ∈ layout.places :=
  List.mem_append_left _ (List.mem_map_of_mem member)

theorem program_place : .program ∈ layout.places := by simp [Layout.places]

theorem device_place : .device ∈ layout.places := by simp [Layout.places]

theorem places_once : layout.places.Nodup := by
  refine List.nodup_append.mpr ⟨?_, by simp, ?_⟩
  · exact layout.once.map fun pool other same => Place.pool.inj same
  · rintro place inside other member rfl
    obtain ⟨pool, _, rfl⟩ := List.mem_map.mp inside
    simp at member

theorem placed_known (mbufs : Mbufs Pool) (accounted : EachInOnePlace layout mbufs)
    (place : Place Pool) (member : place ∈ layout.places) (ptr : MbufPtr)
    (there : ptr ∈ mbufs place) : layout.poolOf ptr ∈ layout.pools :=
  layout.known ptr (accounted.mem_iff.mp (List.mem_flatMap.mpr ⟨place, member, there⟩))

end Placing

variable [DecidableEq Pool]

def Layout.start (layout : Layout Pool) : Mbufs Pool
  | .pool pool => layout.objects.filter fun obj => layout.poolOf obj = pool
  | .program => []
  | .device => []

inductive AllocError where
  | capacity_overflow
  | DpdkError

/-- `_rte_pktmbuf_alloc_bulk` fills the first `len as c_uint` slots or none; `stale` is what
the vector's memory holds after them. `set_len` takes all `len` slots as filled. -/
def allocBulk (len : UInt64) (filled : Option (List MbufPtr)) (stale : List MbufPtr) :
    Except AllocError (List MbufPtr) :=
  -- `Vec::with_capacity` panics beyond `isize::MAX` bytes
  if 2 ^ 63 ≤ 8 * len.toNat then .error .capacity_overflow
  else
    match filled with
    | none => .error .DpdkError
    | some ptrs => .ok (ptrs ++ stale)

/-- `mempool` is the calling core's MEMPOOL. `refill` and `complete` are the device's. -/
inductive MbufAct (Pool : Type) where
  | new (mempool : Pool) (alloc : Option (MbufPtr × FreshMbuf))
  | fromBytes (mempool : Pool) (alloc : Option (MbufPtr × FreshMbuf)) (count : UInt64)
      (data : Items u8 count)
  | allocBulk (mempool : Pool) (len : UInt64) (filled : Option (List MbufPtr))
      (stale : List MbufPtr)
  | drop (mbuf : Mbuf)
  | freeBulk (ptrs : List MbufPtr)
  | refill (mempool : Pool) (ptrs : List MbufPtr)
  | receive (burst : List MbufPtr)
  | transmit (driver : Driver) (packets : List MbufPtr)
  | complete (ptr : MbufPtr)

/-- `_rte_pktmbuf_free` looks the pool up in the mbuf. -/
def pktmbufFree (layout : Layout Pool) (here : Place Pool) (mbufs : Mbufs Pool) (ptr : MbufPtr) :
    Mbufs Pool :=
  put (take mbufs here [ptr]) (.pool (layout.poolOf ptr)) [ptr]

def putBulk (mbufs : Mbufs Pool) (puts : List (Put MbufPtr Pool)) : Mbufs Pool :=
  puts.foldl (fun mbufs given => put mbufs (.pool given.pool) given.objs) mbufs

/-- The puts of a bulk free; an empty vector panics before the first. -/
def releases (poolOf : MbufPtr → Pool) (ptrs : List MbufPtr) : List (Put MbufPtr Pool) :=
  match mbufFreeBulk poolOf ptrs with
  | .ok puts => puts
  | .error _ => []

/-- A pool hands out free objects only. -/
def handOut (layout : Layout Pool) (mbufs : Mbufs Pool) (mempool : Pool) (ptrs : List MbufPtr)
    (receiver : Place Pool) (vector : List MbufPtr) : Option (Mbufs Pool) :=
  if mempool ∈ layout.pools ∧ ptrs.Subperm (mbufs (.pool mempool)) then
    some (put (take mbufs (.pool mempool) ptrs) receiver vector)
  else none

/-- The program frees and sends only what it has. -/
def mbufStep (layout : Layout Pool) (mbufs : Mbufs Pool) : MbufAct Pool → Option (Mbufs Pool)
  | .new mempool alloc =>
      match FromBytes.new alloc with
      | .ok (mbuf, _) => handOut layout mbufs mempool [mbuf.getPtr] .program [mbuf.getPtr]
      | .error _ => some mbufs
  | .fromBytes mempool alloc _ data =>
      match FromBytes.new alloc with
      | .ok (mbuf, _) =>
          (handOut layout mbufs mempool [mbuf.getPtr] .program [mbuf.getPtr]).map fun mbufs =>
            (fromBytes alloc data).freed.foldl (pktmbufFree layout .program) mbufs
      | .error _ => some mbufs
  | .allocBulk mempool len filled stale =>
      match allocBulk len filled stale with
      | .ok vector =>
          let ptrs := filled.getD []
          if ptrs.length = len.toNat % 2 ^ 32 ∧ vector.length = len.toNat then
            handOut layout mbufs mempool ptrs .program vector
          else none
      | .error _ => some mbufs
  | .drop mbuf =>
      if mbuf.getPtr ∈ mbufs .program then
        some (mbuf.drop.foldl (pktmbufFree layout .program) mbufs)
      else none
  | .freeBulk ptrs =>
      if ptrs.Subperm (mbufs .program) then
        some (putBulk (take mbufs .program ptrs) (releases layout.poolOf ptrs))
      else none
  | .refill mempool ptrs => handOut layout mbufs mempool ptrs .device ptrs
  | .receive burst =>
      if burst.length ≤ 32 ∧ burst.Subperm (mbufs .device) then
        some (put (take mbufs .device burst) .program burst)
      else none
  | .transmit driver packets =>
      if packets.Subperm (mbufs .program) then
        let out := transmit driver layout.poolOf packets
        some (putBulk (put (take mbufs .program packets) .device out.handed) out.puts)
      else none
  | .complete ptr =>
      if ptr ∈ mbufs .device then some (pktmbufFree layout .device mbufs ptr) else none

/-- The packets are of one pool and fit the `u32` count of a put. -/
def OnePool (poolOf : MbufPtr → Pool) (ptrs : List MbufPtr) : Prop :=
  ptrs.length < 2 ^ 32 ∧ ∀ ptr ∈ ptrs, ∀ other ∈ ptrs, poolOf ptr = poolOf other

/-- What is freed in bulk at once is of one pool, and no count is cut. -/
def FreesOnePool (layout : Layout Pool) : MbufAct Pool → Prop
  | .allocBulk _ len filled _ => filled.isSome → 8 * len.toNat < 2 ^ 63 → len.toNat < 2 ^ 32
  | .freeBulk ptrs => OnePool layout.poolOf ptrs
  | .transmit driver packets =>
      match takenBeforeRefusal driver 0 (UInt16.ofNat packets.length) with
      | none => packets.length < 2 ^ 16
      | some taken => OnePool layout.poolOf (packets.drop taken)
  | _ => True

/-- No count is cut: a bulk allocation and the batch of each put stay below 2^32, and
a transmission accepted whole below 2^16. -/
def Uncut (layout : Layout Pool) : MbufAct Pool → Prop
  | .allocBulk _ len filled _ => filled.isSome → 8 * len.toNat < 2 ^ 63 → len.toNat < 2 ^ 32
  | .freeBulk ptrs => ∀ group ∈ freeRuns layout.poolOf ptrs, group.length < 2 ^ 32
  | .transmit driver packets =>
      match takenBeforeRefusal driver 0 (UInt16.ofNat packets.length) with
      | none => packets.length < 2 ^ 16
      | some taken =>
          ∀ group ∈ freeRuns layout.poolOf (packets.drop taken), group.length < 2 ^ 32
  | _ => True

section Releasing
variable (poolOf : MbufPtr → Pool)

theorem releases_objs (ptrs : List MbufPtr) :
    (releases poolOf ptrs).flatMap Put.objs = givenBack (freeRuns poolOf ptrs) := by
  cases ptrs with
  | nil => rfl
  | cons first rest =>
      obtain ⟨puts, freed, objs⟩ := mbufFreeBulk_freed poolOf (first :: rest) (by simp)
      rw [releases, freed, List.flatMap_def, objs, givenBack, List.flatMap_def]

theorem releases_pool (ptrs : List MbufPtr) (given : Put MbufPtr Pool)
    (member : given ∈ releases poolOf ptrs) : ∃ first ∈ ptrs.head?, given.pool = poolOf first := by
  cases ptrs with
  | nil => cases member
  | cons first rest =>
      simp only [releases, mbufFreeBulk, freeLoop_eq, List.mem_map] at member
      obtain ⟨group, _, rfl⟩ := member
      exact ⟨first, rfl, rfl⟩

theorem givenBack_perm_iff (ptrs : List MbufPtr) :
    (givenBack (freeRuns poolOf ptrs)).Perm ptrs ↔
      ∀ group ∈ freeRuns poolOf ptrs, group.length < 2 ^ 32 := by
  constructor
  · intro permuted
    apply (givenBack_length_iff _).mp
    rw [permuted.length_eq, freeRuns_flatten]
  · intro short
    rw [givenBack_all _ short, freeRuns_flatten]

theorem freeRuns_one_pool (ptrs : List MbufPtr) (some_packet : ptrs ≠ [])
    (same : ∀ ptr ∈ ptrs, ∀ other ∈ ptrs, poolOf ptr = poolOf other) :
    freeRuns poolOf ptrs = [ptrs] := by
  cases ptrs with
  | nil => exact absurd rfl some_packet
  | cons first rest =>
      have uncut : ∀ ptr ∈ first :: rest, decide (poolOf ptr ≠ poolOf first) = false := by
        intro ptr inside
        simp [same ptr inside first List.mem_cons_self]
      rw [freeRuns, cutBefore_uncut _ _ _ uncut, List.nil_append]

/-- A bulk free gives every packet back to its own pool exactly when all are of one. -/
theorem onePool_iff (ptrs : List MbufPtr) :
    OnePool poolOf ptrs ↔
      (∀ group ∈ freeRuns poolOf ptrs, group.length < 2 ^ 32) ∧
        ∀ given ∈ releases poolOf ptrs, ∀ ptr ∈ given.objs, poolOf ptr = given.pool := by
  cases ptrs with
  | nil => exact iff_of_true ⟨by decide, nofun⟩ ⟨nofun, nofun⟩
  | cons first rest =>
      have objs := releases_objs poolOf (first :: rest)
      have pools : ∀ given ∈ releases poolOf (first :: rest), given.pool = poolOf first := by
        intro given member
        obtain ⟨other, head, pool⟩ := releases_pool poolOf _ given member
        cases head
        exact pool
      constructor
      · rintro ⟨short, same⟩
        have few : ∀ group ∈ freeRuns poolOf (first :: rest), group.length < 2 ^ 32 := by
          rw [freeRuns_one_pool poolOf _ (by simp) same]
          simpa using short
        refine ⟨few, fun given member ptr inside => ?_⟩
        have freed := objs ▸ List.mem_flatMap.mpr ⟨given, member, inside⟩
        rw [pools given member]
        exact same ptr (((givenBack_perm_iff poolOf _).mpr few).mem_iff.mp freed) first
          List.mem_cons_self
      · rintro ⟨few, home⟩
        -- every packet is in some put, and every put names the first one's pool
        have firsts : ∀ ptr ∈ first :: rest, poolOf ptr = poolOf first := by
          intro ptr member
          have freed := objs.symm ▸ ((givenBack_perm_iff poolOf _).mpr few).mem_iff.mpr member
          obtain ⟨given, put, inside⟩ := List.mem_flatMap.mp freed
          rw [home given put ptr inside, pools given put]
        have same : ∀ ptr ∈ first :: rest, ∀ other ∈ first :: rest, poolOf ptr = poolOf other :=
          fun ptr member other inside => (firsts ptr member).trans (firsts other inside).symm
        refine ⟨few _ ?_, same⟩
        rw [freeRuns_one_pool poolOf _ (by simp) same]
        exact List.mem_singleton_self _

theorem afterRefusal_moves (ptrs : List MbufPtr) (taken : Nat) :
    (afterRefusal poolOf ptrs taken).handed = ptrs.take taken ∧
      (afterRefusal poolOf ptrs taken).puts = releases poolOf (ptrs.drop taken) := by
  unfold afterRefusal releases
  cases mbufFreeBulk poolOf (ptrs.drop taken) <;> exact ⟨rfl, rfl⟩

/-- The pools a transmission gives to are pools of packets it was given. -/
theorem transmit_pool (driver : Driver) (packets : List MbufPtr) (given : Put MbufPtr Pool)
    (member : given ∈ (transmit driver poolOf packets).puts) :
    ∃ first ∈ packets, given.pool = poolOf first := by
  rw [transmit, transmitLoop_spec] at member
  cases refused : takenBeforeRefusal driver 0 (UInt16.ofNat packets.length) with
  | none => simp [refused] at member
  | some taken =>
      simp only [refused, (afterRefusal_moves poolOf packets taken).2] at member
      obtain ⟨first, inside, pool⟩ := releases_pool poolOf _ given member
      exact ⟨first, List.mem_of_mem_drop (List.mem_of_mem_head? inside), pool⟩

end Releasing

section Counting
variable (layout : Layout Pool) (mbufs next : Mbufs Pool)

theorem handOut_counts (mempool : Pool) (ptrs vector : List MbufPtr) (receiver : Place Pool)
    (reached : receiver ∈ layout.places)
    (handed : handOut layout mbufs mempool ptrs receiver vector = some next) (ptr : MbufPtr) :
    ptrs.count ptr + (everything layout.places next).count ptr =
      vector.count ptr + (everything layout.places mbufs).count ptr := by
  simp only [handOut, Option.ite_none_right_eq_some, Option.some.injEq] at handed
  obtain ⟨⟨pool, free⟩, rfl⟩ := handed
  rw [count_put _ (places_once layout) _ _ reached]
  have taken := count_take _ (places_once layout) mbufs _ (pool_place layout mempool pool) ptrs free ptr
  omega

theorem pktmbufFree_counts (here : Place Pool) (member : here ∈ layout.places) (ptr : MbufPtr)
    (there : ptr ∈ mbufs here) (known : layout.poolOf ptr ∈ layout.pools) (other : MbufPtr) :
    (everything layout.places (pktmbufFree layout here mbufs ptr)).count other =
      (everything layout.places mbufs).count other :=
  count_move _ (places_once layout) mbufs here _ member (pool_place layout _ known) [ptr]
    (List.singleton_subperm_iff.mpr there) other

theorem putBulk_counts (puts : List (Put MbufPtr Pool))
    (known : ∀ given ∈ puts, given.pool ∈ layout.pools) (ptr : MbufPtr) :
    (everything layout.places (putBulk mbufs puts)).count ptr =
      (puts.flatMap Put.objs).count ptr + (everything layout.places mbufs).count ptr := by
  induction puts generalizing mbufs with
  | nil => simp [putBulk]
  | cons given rest ih =>
      obtain ⟨pool, later⟩ := List.forall_mem_cons.mp known
      have puts := ih (put mbufs (.pool given.pool) given.objs) later
      rw [count_put _ (places_once layout) _ _ (pool_place layout _ pool)] at puts
      simp only [putBulk, List.foldl_cons, List.flatMap_cons, List.count_append] at puts ⊢
      omega

/-- A transmission accounts for its packets exactly when no count is cut. -/
theorem transmit_perm_iff (driver : Driver) (packets : List MbufPtr) :
    ((transmit driver layout.poolOf packets).handed ++
        (transmit driver layout.poolOf packets).freed).Perm packets ↔
      Uncut layout (.transmit driver packets) := by
  rw [Uncut, Transmitted.freed, transmit, transmitLoop_spec]
  cases refused : takenBeforeRefusal driver 0 (UInt16.ofNat packets.length) with
  | none =>
      simp only [List.flatMap_nil, List.append_nil, UInt16.toNat_ofNat']
      constructor
      · intro permuted
        have counts := permuted.length_eq
        rw [List.length_take_of_le (Nat.mod_le _ _)] at counts
        omega
      · intro short
        rw [Nat.mod_eq_of_lt short, List.take_length]
  | some taken =>
      obtain ⟨handed, puts⟩ := afterRefusal_moves layout.poolOf packets taken
      simp only [handed, puts, releases_objs, ← givenBack_perm_iff]
      constructor
      · intro permuted
        apply (List.perm_append_left_iff (packets.take taken)).mp
        rwa [List.take_append_drop]
      · intro permuted
        have whole := permuted.append_left (packets.take taken)
        rwa [List.take_append_drop] at whole

theorem allocBulk_balance (mempool : Pool) (len : UInt64) (filled : Option (List MbufPtr))
    (stale : List MbufPtr)
    (stepped : mbufStep layout mbufs (.allocBulk mempool len filled stale) = some next) :
    ∃ took back : List MbufPtr,
      (∀ ptr, took.count ptr + (everything layout.places next).count ptr =
        back.count ptr + (everything layout.places mbufs).count ptr) ∧
      (back.Perm took ↔ Uncut layout (.allocBulk mempool len filled stale)) := by
  by_cases overflow : 2 ^ 63 ≤ 8 * len.toNat
  · simp only [mbufStep, allocBulk, overflow, ↓reduceIte] at stepped
    cases stepped
    exact ⟨[], [], fun _ => rfl, by simp only [Uncut, List.Perm.nil, true_iff]; omega⟩
  cases filled with
  | none =>
      simp only [mbufStep, allocBulk, overflow, ↓reduceIte] at stepped
      cases stepped
      exact ⟨[], [], fun _ => rfl, by simp [Uncut]⟩
  | some ptrs =>
      simp only [mbufStep, allocBulk, overflow, ↓reduceIte, Option.getD_some,
        Option.ite_none_right_eq_some, List.length_append] at stepped
      obtain ⟨⟨short, whole⟩, handed⟩ := stepped
      refine ⟨ptrs, ptrs ++ stale,
        handOut_counts layout mbufs next mempool _ _ _ (program_place layout) handed, ?_⟩
      simp only [Uncut, Option.isSome_some, forall_const]
      constructor
      · intro permuted _
        have counts := permuted.length_eq
        rw [List.length_append] at counts
        omega
      · intro small
        -- the whole table was filled, so nothing stale is taken along
        have few := small (by omega)
        have nothing : stale = [] := List.eq_nil_of_length_eq_zero (by omega)
        simp [nothing]

/-- What a successful `from_bytes` keeps and what a failed one gives back. -/
theorem fromBytes_freed (ptr : MbufPtr) (fresh : FreshMbuf) {count : UInt64} (data : Items u8 count) :
    (fromBytes (some (ptr, fresh)) data).freed = [] ∨
      (fromBytes (some (ptr, fresh)) data).freed = [ptr] := by
  simp only [fromBytes, FromBytes.new]
  cases (fill data fresh.raw).result with
  | ok _ => exact Or.inl rfl
  | error _ => exact Or.inr rfl

theorem handOut_reaches (mempool : Pool) (ptr : MbufPtr) (receiver : Place Pool)
    (handed : handOut layout mbufs mempool [ptr] receiver [ptr] = some next) :
    ptr ∈ next receiver ∧ ptr ∈ mbufs (.pool mempool) ∧ mempool ∈ layout.pools := by
  simp only [handOut, Option.ite_none_right_eq_some, Option.some.injEq] at handed
  obtain ⟨⟨pool, free⟩, rfl⟩ := handed
  exact ⟨by simp, List.singleton_subperm_iff.mp free, pool⟩

/-- All an enabled action does to the account: something leaves it and something comes,
and these are the same exactly when no count is cut. -/
theorem step_balance (act : MbufAct Pool) (accounted : EachInOnePlace layout mbufs)
    (stepped : mbufStep layout mbufs act = some next) :
    ∃ took back : List MbufPtr,
      (∀ ptr, took.count ptr + (everything layout.places next).count ptr =
        back.count ptr + (everything layout.places mbufs).count ptr) ∧
      (back.Perm took ↔ Uncut layout act) := by
  have once := places_once layout
  have program := program_place layout
  have device := device_place layout
  cases act with
  | new mempool alloc =>
      cases alloc with
      | none =>
          cases stepped
          exact ⟨[], [], fun _ => rfl, by simp [Uncut]⟩
      | some handed =>
          exact ⟨_, _, handOut_counts layout mbufs next mempool _ _ _ program stepped,
            by simp [Uncut]⟩
  | fromBytes mempool alloc count data =>
      cases alloc with
      | none =>
          cases stepped
          exact ⟨[], [], fun _ => rfl, by simp [Uncut]⟩
      | some handed =>
          obtain ⟨raw, fresh⟩ := handed
          obtain ⟨middle, handed, rfl⟩ := Option.map_eq_some_iff.mp stepped
          have counts := handOut_counts layout mbufs middle mempool _ _ _ program handed
          obtain ⟨there, free, pool⟩ := handOut_reaches layout mbufs middle mempool raw _ handed
          have known := placed_known layout mbufs accounted _ (pool_place layout mempool pool) raw free
          rcases fromBytes_freed raw fresh data with kept | freed
          · exact ⟨[], [], by simpa [kept] using counts, by simp [Uncut]⟩
          · refine ⟨[], [], ?_, by simp [Uncut]⟩
            simpa [freed, pktmbufFree_counts layout middle _ program raw there known] using counts
  | allocBulk mempool len filled stale =>
      exact allocBulk_balance layout mbufs next mempool len filled stale stepped
  | drop mbuf =>
      simp only [mbufStep, Option.ite_none_right_eq_some, Option.some.injEq] at stepped
      obtain ⟨there, rfl⟩ := stepped
      have known := placed_known layout mbufs accounted _ program _ there
      refine ⟨[], [], fun ptr => ?_, by simp [Uncut]⟩
      rcases mbuf with ⟨raw | raw⟩
      · simpa [Mbuf.drop] using pktmbufFree_counts layout mbufs _ program raw there known ptr
      · rfl
  | freeBulk ptrs =>
      simp only [mbufStep, Option.ite_none_right_eq_some, Option.some.injEq] at stepped
      obtain ⟨held, rfl⟩ := stepped
      refine ⟨ptrs, _, fun ptr => ?_, givenBack_perm_iff layout.poolOf ptrs⟩
      have taken := count_take _ once mbufs _ program ptrs held ptr
      rw [putBulk_counts, releases_objs]
      · omega
      · intro given member
        obtain ⟨first, inside, pool⟩ := releases_pool layout.poolOf ptrs given member
        rw [pool]
        exact placed_known layout mbufs accounted _ program first
          (held.subset (List.mem_of_mem_head? inside))
  | refill mempool ptrs =>
      exact ⟨ptrs, ptrs, handOut_counts layout mbufs next mempool _ _ _ device stepped,
        by simp [Uncut]⟩
  | receive burst =>
      simp only [mbufStep, Option.ite_none_right_eq_some, Option.some.injEq] at stepped
      obtain ⟨⟨_, held⟩, rfl⟩ := stepped
      exact ⟨[], [], fun ptr => by simp [count_move _ once mbufs _ _ device program burst held],
        by simp [Uncut]⟩
  | transmit driver packets =>
      simp only [mbufStep, Option.ite_none_right_eq_some, Option.some.injEq] at stepped
      obtain ⟨held, rfl⟩ := stepped
      refine ⟨packets, _, fun ptr => ?_, transmit_perm_iff layout driver packets⟩
      have taken := count_take _ once mbufs _ program packets held ptr
      rw [putBulk_counts, count_put _ once _ _ device, List.count_append, Transmitted.freed]
      · omega
      · intro given member
        obtain ⟨first, inside, pool⟩ := transmit_pool layout.poolOf driver packets given member
        rw [pool]
        exact placed_known layout mbufs accounted _ program first (held.subset inside)
  | complete ptr =>
      simp only [mbufStep, Option.ite_none_right_eq_some, Option.some.injEq] at stepped
      obtain ⟨there, rfl⟩ := stepped
      have known := placed_known layout mbufs accounted _ device _ there
      exact ⟨[], [], fun other => by simp [pktmbufFree_counts layout mbufs _ device ptr there known],
        by simp [Uncut]⟩

end Counting

/-- Every object is in one place, and what a pool has to give is its own. -/
structure Intact (layout : Layout Pool) (mbufs : Mbufs Pool) : Prop where
  placed : EachInOnePlace layout mbufs
  own : OwnObjectsFree layout mbufs

section Owning
variable (layout : Layout Pool) (mbufs next : Mbufs Pool)

theorem mem_putBulk (puts : List (Put MbufPtr Pool)) (place : Place Pool) (ptr : MbufPtr) :
    ptr ∈ putBulk mbufs puts place ↔
      (∃ given ∈ puts, .pool given.pool = place ∧ ptr ∈ given.objs) ∨ ptr ∈ mbufs place := by
  induction puts generalizing mbufs with
  | nil => simp [putBulk]
  | cons given rest ih =>
      rw [putBulk, List.foldl_cons]
      refine (ih (put mbufs (.pool given.pool) given.objs)).trans ?_
      simp only [mem_put, List.exists_mem_cons_iff]
      rw [or_left_comm, or_assoc]

/-- A bulk free keeps the pools pure exactly when each put is of its pool's own objects. -/
theorem putBulk_own_iff (puts : List (Put MbufPtr Pool)) (own : OwnObjectsFree layout mbufs) :
    OwnObjectsFree layout (putBulk mbufs puts) ↔
      ∀ given ∈ puts, ∀ ptr ∈ given.objs, layout.poolOf ptr = given.pool := by
  constructor
  · intro kept given member ptr inside
    exact kept given.pool ptr
      ((mem_putBulk mbufs puts _ ptr).mpr (Or.inl ⟨given, member, rfl, inside⟩))
  · intro home pool ptr member
    rcases (mem_putBulk mbufs puts _ ptr).mp member with ⟨given, put, same, inside⟩ | before
    · obtain rfl := Place.pool.inj same
      exact home given put ptr inside
    · exact own pool ptr before

theorem take_own (place : Place Pool) (ptrs : List MbufPtr) (own : OwnObjectsFree layout mbufs) :
    OwnObjectsFree layout (take mbufs place ptrs) :=
  fun pool ptr member => own pool ptr (take_within mbufs place _ ptrs ptr member)

theorem put_own (place : Place Pool) (ptrs : List MbufPtr) (own : OwnObjectsFree layout mbufs)
    (home : ∀ pool, place = .pool pool → ∀ ptr ∈ ptrs, layout.poolOf ptr = pool) :
    OwnObjectsFree layout (put mbufs place ptrs) := by
  intro pool ptr member
  rcases (mem_put mbufs place _ ptrs ptr).mp member with ⟨same, inside⟩ | before
  · exact home pool same ptr inside
  · exact own pool ptr before

theorem pktmbufFree_own (here : Place Pool) (ptr : MbufPtr) (own : OwnObjectsFree layout mbufs) :
    OwnObjectsFree layout (pktmbufFree layout here mbufs ptr) := by
  refine put_own layout _ _ _ (take_own layout mbufs here [ptr] own) ?_
  rintro pool ⟨⟩ other member
  rw [List.mem_singleton.mp member]

theorem pktmbufFrees_own (here : Place Pool) (ptrs : List MbufPtr) (own : OwnObjectsFree layout mbufs) :
    OwnObjectsFree layout (ptrs.foldl (pktmbufFree layout here) mbufs) := by
  induction ptrs generalizing mbufs with
  | nil => exact own
  | cons ptr rest ih => exact ih _ (pktmbufFree_own layout mbufs here ptr own)

theorem handOut_own (mempool : Pool) (ptrs vector : List MbufPtr) (receiver : Place Pool)
    (outside : ∀ pool, receiver ≠ .pool pool) (own : OwnObjectsFree layout mbufs)
    (handed : handOut layout mbufs mempool ptrs receiver vector = some next) :
    OwnObjectsFree layout next := by
  simp only [handOut, Option.ite_none_right_eq_some, Option.some.injEq] at handed
  obtain ⟨_, rfl⟩ := handed
  exact put_own layout _ _ _ (take_own layout mbufs _ ptrs own)
    fun pool same => absurd same (outside pool)

/-- A step that leaves every object in one place keeps the pools pure exactly when what it
frees in bulk is of one pool. -/
theorem step_intact_iff (act : MbufAct Pool) (intact : Intact layout mbufs)
    (stepped : mbufStep layout mbufs act = some next) :
    Intact layout next ↔ FreesOnePool layout act := by
  obtain ⟨placed, own⟩ := intact
  obtain ⟨took, back, counts, permuted⟩ := step_balance layout mbufs next act placed stepped
  have balanced : EachInOnePlace layout next ↔ Uncut layout act :=
    (balanced_iff _ _ _ took back placed counts).trans permuted
  have split : Intact layout next ↔ Uncut layout act ∧ OwnObjectsFree layout next :=
    ⟨fun after => ⟨balanced.mp after.placed, after.own⟩,
      fun ⟨uncut, kept⟩ => ⟨balanced.mpr uncut, kept⟩⟩
  have pure : OwnObjectsFree layout next → (Uncut layout act ↔ FreesOnePool layout act) →
      (Intact layout next ↔ FreesOnePool layout act) := by
    intro kept same
    rw [split, same]
    exact and_iff_left kept
  have program : ∀ pool : Pool, Place.program ≠ .pool pool := fun _ same => by cases same
  have device : ∀ pool : Pool, Place.device ≠ .pool pool := fun _ same => by cases same
  cases act with
  | new mempool alloc =>
      refine pure ?_ Iff.rfl
      cases alloc with
      | none => cases stepped; exact own
      | some handed => exact handOut_own layout mbufs next mempool _ _ _ program own stepped
  | fromBytes mempool alloc count data =>
      refine pure ?_ Iff.rfl
      cases alloc with
      | none => cases stepped; exact own
      | some handed =>
          obtain ⟨middle, handed, rfl⟩ := Option.map_eq_some_iff.mp stepped
          exact pktmbufFrees_own layout middle _ _
            (handOut_own layout mbufs middle mempool _ _ _ program own handed)
  | allocBulk mempool len filled stale =>
      refine pure ?_ Iff.rfl
      simp only [mbufStep] at stepped
      split at stepped
      · obtain ⟨_, handed⟩ := Option.ite_none_right_eq_some.mp stepped
        exact handOut_own layout mbufs next mempool _ _ _ program own handed
      · cases stepped
        exact own
  | drop mbuf =>
      simp only [mbufStep, Option.ite_none_right_eq_some, Option.some.injEq] at stepped
      obtain ⟨_, rfl⟩ := stepped
      exact pure (pktmbufFrees_own layout mbufs _ _ own) Iff.rfl
  | freeBulk ptrs =>
      simp only [mbufStep, Option.ite_none_right_eq_some, Option.some.injEq] at stepped
      obtain ⟨_, rfl⟩ := stepped
      rw [split, putBulk_own_iff layout _ _ (take_own layout mbufs _ ptrs own)]
      exact (onePool_iff layout.poolOf ptrs).symm
  | refill mempool ptrs =>
      exact pure (handOut_own layout mbufs next mempool _ _ _ device own stepped) Iff.rfl
  | receive burst =>
      simp only [mbufStep, Option.ite_none_right_eq_some, Option.some.injEq] at stepped
      obtain ⟨_, rfl⟩ := stepped
      exact pure (put_own layout _ _ _ (take_own layout mbufs _ burst own)
        fun pool same => absurd same (program pool)) Iff.rfl
  | transmit driver packets =>
      simp only [mbufStep, Option.ite_none_right_eq_some, Option.some.injEq] at stepped
      obtain ⟨_, rfl⟩ := stepped
      have handed := put_own layout _ .device (transmit driver layout.poolOf packets).handed
        (take_own layout mbufs .program packets own) fun pool same => absurd same (device pool)
      rw [split, putBulk_own_iff layout _ _ handed, Uncut, FreesOnePool, transmit, transmitLoop_spec]
      cases refused : takenBeforeRefusal driver 0 (UInt16.ofNat packets.length) with
      | none => simp
      | some taken =>
          simp only [(afterRefusal_moves layout.poolOf packets taken).2]
          exact (onePool_iff layout.poolOf (packets.drop taken)).symm
  | complete ptr =>
      simp only [mbufStep, Option.ite_none_right_eq_some, Option.some.injEq] at stepped
      obtain ⟨_, rfl⟩ := stepped
      exact pure (pktmbufFree_own layout mbufs _ ptr own) Iff.rfl

end Owning

theorem start_intact (layout : Layout Pool) : Intact layout layout.start := by
  refine { placed := ?_, own := fun pool ptr member => ?_ }
  · have sorted := sorted_perm layout.pools layout.once layout.poolOf layout.objects layout.known
    simpa [EachInOnePlace, Layout.places, everything, List.flatMap_map, Layout.start] using sorted
  · simpa using (List.mem_filter.mp member).2

/-- Every object of every pool is in one place, at any point of a run, exactly when no
action of the run has a count that is cut. -/
theorem each_in_one_place_iff (layout : Layout Pool) (acts : List (MbufAct Pool))
    (executed : (run (mbufStep layout) layout.start acts).isSome) :
    Always (mbufStep layout) (EachInOnePlace layout) layout.start acts ↔
      ∀ act ∈ acts, Uncut layout act := by
  rw [← admits_acts_iff (mbufStep layout) (Uncut layout) layout.start acts executed]
  have exact_step : ∀ mbufs act next, EachInOnePlace layout mbufs →
      mbufStep layout mbufs act = some next → (EachInOnePlace layout next ↔ Uncut layout act) := by
    intro mbufs act next placed stepped
    obtain ⟨took, back, counts, permuted⟩ := step_balance layout mbufs next act placed stepped
    exact (balanced_iff _ _ _ took back placed counts).trans permuted
  exact always_iff_admits (mbufStep layout) (EachInOnePlace layout) (EachInOnePlace layout) _
    (fun mbufs act next placed uncut stepped => (exact_step mbufs act next placed stepped).mpr uncut)
    (fun _ placed => placed)
    (fun mbufs act next placed cut stepped after =>
      cut ((exact_step mbufs act next placed stepped).mp after))
    _ acts (start_intact layout).placed executed

/-- Two pools, of two objects and of one. -/
def twoPools : Layout Bool :=
  { pools := [false, true], once := by decide, poolOf := fun ptr => 10 ≤ ptr
    objects := [1, 2, 11], distinct := by decide, known := by decide }

/-- Allocated in bulk, received and freed in bulk. -/
def bulkRun : List (MbufAct Bool) :=
  [.refill true [11], .receive [11], .allocBulk false 2 (some [2, 1]) [], .freeBulk [1, 2],
    .drop { inner := .Original 11 }]

theorem bulk_each_in_one_place :
    Always (mbufStep twoPools) (EachInOnePlace twoPools) twoPools.start bulkRun ↔
      ∀ act ∈ bulkRun, Uncut twoPools act :=
  each_in_one_place_iff twoPools bulkRun (by decide)

/-- Besides, every free object is in its own pool exactly when each bulk free of the run
was of one pool. -/
theorem intact_along_iff (layout : Layout Pool) (acts : List (MbufAct Pool))
    (executed : (run (mbufStep layout) layout.start acts).isSome) :
    Always (mbufStep layout) (Intact layout) layout.start acts ↔
      ∀ act ∈ acts, FreesOnePool layout act := by
  rw [← admits_acts_iff (mbufStep layout) (FreesOnePool layout) layout.start acts executed]
  exact always_iff_admits (mbufStep layout) (Intact layout) (Intact layout) _
    (fun mbufs act next intact one stepped =>
      (step_intact_iff layout mbufs next act intact stepped).mpr one)
    (fun _ intact => intact)
    (fun mbufs act next intact several stepped after =>
      several ((step_intact_iff layout mbufs next act intact stepped).mp after))
    _ acts (start_intact layout) executed

theorem bulk_intact :
    Always (mbufStep twoPools) (Intact twoPools) twoPools.start bulkRun ↔
      ∀ act ∈ bulkRun, FreesOnePool twoPools act :=
  intact_along_iff twoPools bulkRun (by decide)

end L2Switch.MbufPools
