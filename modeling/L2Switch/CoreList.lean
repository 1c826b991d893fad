import L2Switch.EalArguments

/-!
What the EAL reads after `-l`. `addCore` looks for a core's digits in the text built so
far, so a core is listed unless a number listed before contains its digits; the text is
the spelling of that sieve of the ports' cores.
-/
namespace L2Switch.CoreList
open EalArguments CharPatterns NumberText Sieves

/-- The numbers of the ports' cores in the order the ports list them. -/
def coreNumbers (config : RuntimeConfig) : List Nat :=
  (config.ports.flatMap PortConfig.cores).map fun core => core.raw.toNat

def hidesDigits (earlier later : Nat) : Bool := occursIn (digits later) (digits earlier)

theorem hidesDigits_iff (earlier later : Nat) :
    hidesDigits earlier later = true ↔ digits later <:+: digits earlier :=
  occursIn_iff (digits later) (digits earlier)

theorem hidesDigits_refl (number : Nat) : hidesDigits number number = true :=
  (hidesDigits_iff number number).mpr List.infix_rfl

theorem hidesDigits_trans (first second third : Nat) (above : hidesDigits first second = true)
    (below : hidesDigits second third = true) : hidesDigits first third = true := by
  rw [hidesDigits_iff] at above below ⊢
  exact below.trans above

theorem contains_spelled (text : String) (kept : List Nat) (number : Nat)
    (same : text.toList = spelled kept) :
    contains text (toString number) = kept.any (hidesDigits · number) := by
  rw [Bool.eq_iff_iff, contains, toString_toList, same, occursIn_iff, digits_infix_spelled_iff,
    List.any_eq_true]
  simp only [hidesDigits_iff]

theorem addCore_spelled (text : String) (kept : List Nat) (core : CoreId)
    (same : text.toList = spelled kept) :
    (addCore text core).toList = spelled (keepNext hidesDigits kept core.raw.toNat) := by
  have found := contains_spelled text kept core.raw.toNat same
  by_cases hidden : kept.any (hidesDigits · core.raw.toNat) = true
  · rw [hidden] at found
    rw [keepNext, if_pos hidden, addCore, found]
    exact same
  · rw [Bool.not_eq_true] at hidden
    rw [hidden] at found
    rw [keepNext, hidden, addCore, found]
    simp only [Bool.not_false, if_true, Bool.false_eq_true, if_false]
    cases kept with
    | nil =>
        have empty : text = "" := String.toList_eq_nil_iff.mp same
        subst empty
        simpa [spelled] using toString_toList core.raw.toNat
    | cons first rest =>
        have nonempty : text ≠ "" := by
          rintro rfl
          exact spelled_ne_nil (first :: rest) (by simp) same.symm
        have notEmpty : text.isEmpty = false := by simpa using nonempty
        rw [notEmpty, spelled_append _ _ (by simp), ← same, ← toString_toList]
        simp

theorem foldl_addCore_spelled (cores : List CoreId) (text : String) (kept : List Nat)
    (same : text.toList = spelled kept) :
    (cores.foldl addCore text).toList =
      spelled ((cores.map fun core => core.raw.toNat).foldl (keepNext hidesDigits) kept) := by
  induction cores generalizing text kept with
  | nil => exact same
  | cons core rest ih => exact ih _ _ (addCore_spelled text kept core same)

/-- The text after `-l` spells the ports' cores without those that an earlier one hides. -/
theorem coreList_spelled (config : RuntimeConfig) :
    config.coreList.toList = spelled (sieve hidesDigits (coreNumbers config)) := by
  rw [RuntimeConfig.coreList, ← List.foldl_flatMap]
  exact foldl_addCore_spelled _ "" [] rfl

theorem readNumbers_coreList (config : RuntimeConfig) :
    readNumbers config.coreList.toList = some (sieve hidesDigits (coreNumbers config)) := by
  rw [coreList_spelled, readNumbers_spelled]

theorem mem_listed_iff (config : RuntimeConfig) (number : Nat) :
    number ∈ sieve hidesDigits (coreNumbers config) ↔
      Leads hidesDigits (coreNumbers config) number :=
  mem_sieve_iff hidesDigits hidesDigits_trans (coreNumbers config) number

/-- A reader of the text finds each of the numbers once and no other. -/
def ListsExactly (text : String) (wanted : List Nat) : Prop :=
  ∃ listed, readNumbers text.toList = some listed ∧ listed.Nodup ∧
    ∀ number, number ∈ listed ↔ number ∈ wanted

/-- The list names the ports' cores exactly when none of them first appears after a
core whose number contains its digits. -/
theorem names_port_cores_iff (config : RuntimeConfig) (digit : DigitClass) :
    (∃ text, argAfter "-l" config.coreListAt (config.toEalArgs digit) = some text ∧
        ListsExactly text (coreNumbers config)) ↔
      ∀ number ∈ coreNumbers config, Leads hidesDigits (coreNumbers config) number := by
  rw [argAfter_coreList]
  constructor
  · rintro ⟨text, emitted, listed, read, _, exact⟩ number member
    rw [← Option.some.inj emitted, readNumbers_coreList] at read
    rw [← mem_listed_iff, Option.some.inj read]
    exact (exact number).mpr member
  · intro leading
    refine ⟨config.coreList, rfl, _, readNumbers_coreList config, ?_, ?_⟩
    · exact sieve_nodup hidesDigits hidesDigits_refl _
    · intro number
      constructor
      · exact mem_of_mem_sieve hidesDigits _ number
      · intro member
        exact (mem_listed_iff config number).mpr (leading number member)

def onePort (master : CoreId) (cores : List CoreId) : RuntimeConfig :=
  { app_name := "myapp", secondary := false, app_group := none, master_core := master
    ports := [{ device := "0000:00:01.0", args := none, cores := cores }]
    dpdk_args := none }

/-- Core 1 is not listed after core 12. -/
theorem contained_number_left_out :
    ¬ ∀ (config : RuntimeConfig) (digit : DigitClass),
      ∃ text, argAfter "-l" config.coreListAt (config.toEalArgs digit) = some text ∧
        ListsExactly text (coreNumbers config) := by
  intro claimed
  obtain ⟨text, emitted, listed, read, _, exact⟩ := claimed (onePort ⟨0⟩ [⟨12⟩, ⟨1⟩]) .asciiOnly
  rw [argAfter_coreList] at emitted
  rw [← Option.some.inj emitted, readNumbers_coreList] at read
  have present : 1 ∈ listed := (exact 1).mpr (by decide)
  rw [← Option.some.inj read] at present
  revert present
  decide

/-- The core after `--master-lcore` is one of those after `-l`. -/
def MasterListed (config : RuntimeConfig) (digit : DigitClass) : Prop :=
  ∃ master text number listed,
    argAfter "--master-lcore" config.masterAt (config.toEalArgs digit) = some master ∧
      argAfter "-l" config.coreListAt (config.toEalArgs digit) = some text ∧
      readDecimal master.toList = some number ∧ readNumbers text.toList = some listed ∧
      number ∈ listed ∧ listed ≠ []

theorem readDecimal_master (config : RuntimeConfig) :
    readDecimal (toString config.master_core.raw.toNat).toList =
      some config.master_core.raw.toNat := by
  rw [toString_toList, readDecimal_digits]

/-- The master core is in the list exactly when a port is assigned it with no core
before it whose number contains its digits. -/
theorem master_listed_iff (config : RuntimeConfig) (digit : DigitClass) :
    MasterListed config digit ↔
      Leads hidesDigits (coreNumbers config) config.master_core.raw.toNat := by
  rw [MasterListed, argAfter_master, argAfter_coreList, ← mem_listed_iff]
  constructor
  · rintro ⟨master, text, number, listed, emitted, emittedList, read, readList, member, _⟩
    rw [← Option.some.inj emitted, readDecimal_master] at read
    rw [← Option.some.inj emittedList, readNumbers_coreList] at readList
    rw [Option.some.inj read, Option.some.inj readList]
    exact member
  · intro member
    exact ⟨_, _, _, _, rfl, rfl, readDecimal_master config, readNumbers_coreList config, member,
      List.ne_nil_of_mem member⟩

/-- The settings of the source's test of its defaults: the master core 0 runs no port. -/
theorem master_left_out :
    ¬ ∀ (config : RuntimeConfig) (digit : DigitClass), MasterListed config digit := by
  intro claimed
  obtain ⟨master, text, number, listed, emitted, emittedList, read, readList, member, _⟩ :=
    claimed (onePort ⟨0⟩ [⟨2⟩, ⟨3⟩]) .asciiOnly
  rw [argAfter_master] at emitted
  rw [argAfter_coreList] at emittedList
  rw [← Option.some.inj emitted, readDecimal_master] at read
  rw [← Option.some.inj emittedList, readNumbers_coreList] at readList
  rw [← Option.some.inj read, ← Option.some.inj readList] at member
  revert member
  decide

end L2Switch.CoreList
