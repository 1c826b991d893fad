import L2Switch.PortTransmit

/-!
Which mempool `mbuf_free_bulk` gives each packet back to. Its `pool` is set once, from
the first packet, so a change of pool ends a batch without changing where batches go.
-/
namespace L2Switch.MempoolReturns
open PortTransmit

variable {Ptr Pool : Type} [DecidableEq Pool]

/-- The pool and the packet of each single return. -/
def returns (puts : List (Put Ptr Pool)) : List (Pool × Ptr) :=
  puts.flatMap fun put => put.objs.map fun obj => (put.pool, obj)

/-- Every packet goes back once, to the pool it came from. -/
def ReturnsHome (poolOf : Ptr → Pool) (mbufs : List Ptr) : Prop :=
  ∃ puts, mbufFreeBulk poolOf mbufs = .ok puts ∧
    (returns puts).Perm (mbufs.map fun mbuf => (poolOf mbuf, mbuf))

theorem cutBefore_uncut {Elem : Type} (cut : Elem → Bool) (current elems : List Elem)
    (uncut : ∀ elem ∈ elems, cut elem = false) :
    cutBefore cut current elems = [current ++ elems] := by
  induction elems generalizing current with
  | nil => simp [cutBefore]
  | cons elem rest ih =>
      have here := uncut elem List.mem_cons_self
      have later := ih (current ++ [elem]) fun other member => uncut other (List.mem_cons_of_mem _ member)
      simp [cutBefore, here, later]

/-- All batches go to the first packet's pool. -/
theorem returned_to_first (poolOf : Ptr → Pool) (first : Ptr) (rest : List Ptr)
    (puts : List (Put Ptr Pool)) (freed : mbufFreeBulk poolOf (first :: rest) = .ok puts)
    (entry : Pool × Ptr) (member : entry ∈ returns puts) : entry.1 = poolOf first := by
  obtain rfl := Except.ok.inj freed
  obtain ⟨put, batch, inside⟩ := List.mem_flatMap.mp member
  rw [freeLoop_eq] at batch
  obtain ⟨group, _, rfl⟩ := List.mem_map.mp batch
  obtain ⟨obj, _, rfl⟩ := List.mem_map.mp inside
  rfl

/-- Packets of one pool make one batch. -/
theorem one_pool_returns (poolOf : Ptr → Pool) (first : Ptr) (rest : List Ptr)
    (puts : List (Put Ptr Pool)) (freed : mbufFreeBulk poolOf (first :: rest) = .ok puts)
    (same : ∀ mbuf ∈ rest, poolOf mbuf = poolOf first) :
    returns puts =
      ((first :: rest).take ((first :: rest).length % 2 ^ 32)).map fun mbuf => (poolOf mbuf, mbuf) := by
  have uncut : ∀ mbuf ∈ first :: rest, decide (poolOf mbuf ≠ poolOf first) = false := by
    intro mbuf member
    rcases List.mem_cons.mp member with rfl | later
    · simp
    · simp [same mbuf later]
  obtain rfl := Except.ok.inj freed
  rw [freeLoop_eq, cutBefore_uncut _ _ _ uncut]
  simp only [List.nil_append, List.map_cons, List.map_nil, returns, List.flatMap_cons, List.flatMap_nil,
    List.append_nil, mempoolPutBulk, UInt32.toNat_ofNat']
  apply List.map_congr_left
  intro mbuf taken
  have pool := uncut mbuf (List.mem_of_mem_take taken)
  simp only [ne_eq, decide_not, Bool.not_eq_eq_eq_not, Bool.not_false, decide_eq_true_eq] at pool
  rw [pool]

/-- Every packet goes back home exactly when all are of one pool and there are few enough
for the `u32` count of a batch. -/
theorem returns_home_iff (poolOf : Ptr → Pool) (first : Ptr) (rest : List Ptr) :
    ReturnsHome poolOf (first :: rest) ↔
      (∀ mbuf ∈ rest, poolOf mbuf = poolOf first) ∧ (first :: rest).length < 2 ^ 32 := by
  constructor
  · rintro ⟨puts, freed, home⟩
    have same : ∀ mbuf ∈ rest, poolOf mbuf = poolOf first := by
      intro mbuf member
      have wanted : (poolOf mbuf, mbuf) ∈ (first :: rest).map fun mbuf => (poolOf mbuf, mbuf) :=
        List.mem_map.mpr ⟨mbuf, List.mem_cons_of_mem _ member, rfl⟩
      exact returned_to_first poolOf first rest puts freed _ (home.mem_iff.mpr wanted)
    refine ⟨same, ?_⟩
    have counts := home.length_eq
    rw [one_pool_returns poolOf first rest puts freed same, List.length_map, List.length_map,
      List.length_take_of_le (Nat.mod_le _ _)] at counts
    rw [← counts]
    exact Nat.mod_lt _ (by decide)
  · rintro ⟨same, few⟩
    refine ⟨_, rfl, ?_⟩
    rw [one_pool_returns poolOf first rest _ rfl same, Nat.mod_eq_of_lt few, List.take_length]

/-- Two packets of two pools: both end up in the first one's. -/
theorem second_pool_missed :
    ¬ ∀ (poolOf : Bool → Bool) (mbufs : List Bool), mbufs ≠ [] → ReturnsHome poolOf mbufs := by
  intro claimed
  obtain ⟨puts, freed, home⟩ := claimed id [false, true] (by decide)
  have missed : (true, true) ∈ returns puts := home.mem_iff.mpr (by decide)
  have pool := returned_to_first id false [true] puts freed (true, true) missed
  exact absurd pool (by decide)

end L2Switch.MempoolReturns
