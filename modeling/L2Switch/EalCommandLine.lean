import L2Switch.CStrings
import L2Switch.CoreList
import Mathlib.Algebra.Group.Nat.Defs

/-!
`eal_init` of dpdk/mod.rs, from the settings to what C finds behind `argc` and `argv`. Each
argument becomes a C string of its own, and their number a `c_int`.
-/
namespace L2Switch.EalCommandLine
open CStrings CharPatterns CoreList EalArguments NumberText

structure EalCall where
  argc : Int32
  argv : List (List UInt8)

/-- The call of `rte_eal_init`; none is made where `to_cstring` panics. -/
def ealCall (args : List String) : Option EalCall :=
  (args.mapM toCString).map fun argv => { argc := Int32.ofNat args.length, argv }

/-- Whether `rte_eal_init` succeeded, where it was called. -/
def ealInit (rte_eal_init : EalCall → Int32) (args : List String) : Option Bool :=
  (ealCall args).map fun call => decide (0 ≤ rte_eal_init call)

/-- What C reads behind the first `argc` pointers. -/
def EalCall.reads (call : EalCall) : Option (List (List UInt8)) :=
  (call.argv.take call.argc.toInt.toNat).mapM cString

def Arrive (args : List String) : Prop :=
  ∃ call, ealCall args = some call ∧ call.reads = some (args.map bytes)

def Clean (text : String) : Prop := '\x00' ∉ text.toList

/-- No text that becomes part of an argument holds a zero; the options of a port whose device
the pattern accepts do not become part of one. -/
structure CleanConfig (config : RuntimeConfig) (digit : DigitClass) : Prop where
  app_name : Clean config.app_name
  app_group : ∀ group, config.app_group = some group → Clean group
  devices : ∀ port ∈ config.ports, Clean port.device
  options : ∀ port ∈ config.ports, isMatch (pcie digit) port.device.toList = false →
    ∀ args, port.args = some args → Clean args
  dpdk_args : ∀ args, config.dpdk_args = some args → Clean args

theorem toCString_isSome_iff (text : String) : (toCString text).isSome ↔ Clean text := by
  rw [Clean, ← zero_mem_bytes_iff, toCString]
  split <;> simp [*]

theorem mapM_toCString (args : List String) (clean : ∀ arg ∈ args, Clean arg) :
    args.mapM toCString = some (args.map fun arg => bytes arg ++ [0]) := by
  induction args with
  | nil => rfl
  | cons arg rest ih =>
      obtain ⟨here, later⟩ := List.forall_mem_cons.mp clean
      have first : toCString arg = some (bytes arg ++ [0]) := by
        rw [Clean, ← zero_mem_bytes_iff] at here
        exact if_neg here
      simp [List.mapM_cons, first, ih later]

theorem mapM_toCString_none (args : List String) (arg : String) (member : arg ∈ args)
    (zero : ¬ Clean arg) : args.mapM toCString = none := by
  induction args with
  | nil => cases member
  | cons first rest ih =>
      rw [List.mapM_cons]
      cases taken : toCString first with
      | none => rfl
      | some text =>
          have clean := (toCString_isSome_iff first).mp (by simp [taken])
          rcases List.mem_cons.mp member with rfl | later
          · exact absurd clean zero
          · simp [ih later]

theorem ealCall_none_iff (args : List String) :
    ealCall args = none ↔ ∃ arg ∈ args, ¬ Clean arg := by
  rw [ealCall, Option.map_eq_none_iff]
  constructor
  · intro panicked
    by_contra all
    simp only [not_exists, not_and, not_not] at all
    simp [mapM_toCString args all] at panicked
  · rintro ⟨arg, member, zero⟩
    exact mapM_toCString_none args arg member zero

theorem mapM_cString (args : List String) (clean : ∀ arg ∈ args, Clean arg) :
    (args.map fun arg => bytes arg ++ [0]).mapM cString = some (args.map bytes) := by
  induction args with
  | nil => rfl
  | cons arg rest ih =>
      obtain ⟨here, later⟩ := List.forall_mem_cons.mp clean
      rw [Clean, ← zero_mem_bytes_iff] at here
      have first : cString (bytes arg ++ [0]) = some (bytes arg) := (cString_eq_iff _ _ here).mpr rfl
      simp [List.mapM_cons, first, ih later]

/-- C sees as many of the arguments as a `c_int` can count. -/
theorem reads_clean (args : List String) (clean : ∀ arg ∈ args, Clean arg) :
    ∃ call, ealCall args = some call ∧
      call.reads = some ((args.take (Int32.ofNat args.length).toInt.toNat).map bytes) := by
  refine ⟨_, by rw [ealCall, mapM_toCString args clean]; rfl, ?_⟩
  rw [EalCall.reads, ← List.map_take]
  exact mapM_cString _ fun arg member => clean arg (List.mem_of_mem_take member)

theorem arrive_iff (args : List String) :
    Arrive args ↔ args.length < 2 ^ 31 ∧ ∀ arg ∈ args, Clean arg := by
  have bounded := (Int32.ofNat args.length).toInt_lt
  by_cases clean : ∀ arg ∈ args, Clean arg
  · obtain ⟨call, called, read⟩ := reads_clean args clean
    constructor
    · rintro ⟨other, same, whole⟩
      rw [called] at same
      cases same
      rw [read, Option.some.injEq] at whole
      have counts := congrArg List.length whole
      simp only [List.length_map, List.length_take] at counts
      exact ⟨by omega, clean⟩
    · rintro ⟨few, _⟩
      refine ⟨call, called, ?_⟩
      have count : (Int32.ofNat args.length).toInt.toNat = args.length := by
        rw [Int32.toInt_ofNat_of_lt few]
        exact Int.toNat_natCast _
      rw [read, count, List.take_length]
  · refine iff_of_false ?_ fun both => clean both.2
    rintro ⟨call, called, _⟩
    obtain ⟨arg, zero⟩ := not_forall.mp clean
    obtain ⟨member, dirty⟩ := Classical.not_imp.mp zero
    rw [(ealCall_none_iff args).mpr ⟨arg, member, dirty⟩] at called
    cases called

/-- Splitting loses only separators. -/
theorem mem_splitOnP_iff (separates : Char → Bool) (text : List Char) (char : Char)
    (kept : separates char = false) :
    (∃ word ∈ text.splitOnP separates, char ∈ word) ↔ char ∈ text := by
  induction text with
  | nil => simp
  | cons first rest ih =>
      rw [List.splitOnP_cons_eq_if_modifyHead, List.mem_cons, ← ih]
      by_cases separator : separates first = true
      · have other : char ≠ first := by
          rintro rfl
          rw [kept] at separator
          cases separator
        simp [separator, other]
      · rw [if_neg separator]
        cases words : rest.splitOnP separates with
        | nil => exact absurd words (List.splitOnP_ne_nil separates rest)
        | cons word others => simp [or_assoc]

theorem clean_words_iff (text : String) :
    (∀ word ∈ splitAsciiWhitespace text, Clean word) ↔ Clean text := by
  have split := mem_splitOnP_iff isAsciiWhitespace text.toList '\x00' rfl
  rw [Clean, ← split, splitAsciiWhitespace]
  constructor
  · rintro clean ⟨word, member, zero⟩
    have some_char : (!word.isEmpty) = true := by
      cases word with
      | nil => cases zero
      | cons => rfl
    refine clean (.ofList word) (List.mem_map_of_mem (List.mem_filter.mpr ⟨member, some_char⟩)) ?_
    rwa [String.toList_ofList]
  · rintro none _ listed zero
    obtain ⟨word, member, rfl⟩ := List.mem_map.mp listed
    rw [String.toList_ofList] at zero
    exact none ⟨word, (List.mem_filter.mp member).1, zero⟩

theorem clean_number (number : Nat) : Clean (toString number) := by
  rw [Clean, toString_toList]
  exact not_mem_digits number _ rfl

theorem clean_spelled (numbers : List Nat) : '\x00' ∉ spelled numbers := by
  induction numbers with
  | nil => simp
  | cons first rest ih =>
      have head := not_mem_digits first '\x00' rfl
      cases rest with
      | nil => simpa [spelled] using head
      | cons second others =>
          rw [spelled_cons first _ (List.cons_ne_nil _ _)]
          simp [head, ih]

theorem clean_coreList (config : RuntimeConfig) : Clean config.coreList := by
  rw [Clean, coreList_spelled]
  exact clean_spelled _

theorem clean_append_iff (front back : String) : Clean (front ++ back) ↔ Clean front ∧ Clean back := by
  simp [Clean, String.toList_append]

theorem clean_portArgs_iff (digit : DigitClass) (port : PortConfig) :
    (∀ arg ∈ portArgs digit port, Clean arg) ↔ Clean port.device ∧
      (isMatch (pcie digit) port.device.toList = false →
        ∀ args, port.args = some args → Clean args) := by
  have flags : Clean "--pci-whitelist" ∧ Clean "--vdev" ∧ Clean "," := by
    unfold Clean
    decide
  obtain ⟨pci, vdev, comma⟩ := flags
  unfold portArgs
  cases isMatch (pcie digit) port.device.toList with
  | true => simp [pci]
  | false =>
      cases options : port.args with
      | none => simp [vdev, PortConfig.vdev, options]
      | some args => simp [vdev, comma, PortConfig.vdev, options, clean_append_iff]

theorem clean_process_iff (config : RuntimeConfig) :
    (∀ arg ∈ config.processArgs, Clean arg) ↔
      Clean config.app_name ∧ ∀ group, config.app_group = some group → Clean group := by
  have flags : Clean "--proc-type" ∧ Clean "--file-prefix" ∧ Clean "secondary" ∧ Clean "primary" := by
    unfold Clean
    decide
  obtain ⟨proc_type, file_prefix, secondary, primary⟩ := flags
  have kind : Clean (if config.secondary then "secondary" else "primary") := by
    split
    · exact secondary
    · exact primary
  cases group : config.app_group with
  | none => simp [RuntimeConfig.processArgs, group, proc_type, file_prefix, kind]
  | some name => simp [RuntimeConfig.processArgs, group, proc_type, file_prefix, kind]

theorem clean_dpdk_args_iff (config : RuntimeConfig) :
    (∀ arg ∈ (config.dpdk_args.map splitAsciiWhitespace).getD [], Clean arg) ↔
      ∀ args, config.dpdk_args = some args → Clean args := by
  cases given : config.dpdk_args with
  | none => simp
  | some args => simpa using clean_words_iff args

theorem clean_args_iff (config : RuntimeConfig) (digit : DigitClass) :
    (∀ arg ∈ config.toEalArgs digit, Clean arg) ↔ CleanConfig config digit := by
  have flags : Clean "--master-lcore" ∧ Clean "-l" := by
    unfold Clean
    decide
  have ports : (∀ arg ∈ config.ports.flatMap (portArgs digit), Clean arg) ↔
      ∀ port ∈ config.ports, Clean port.device ∧
        (isMatch (pcie digit) port.device.toList = false →
          ∀ args, port.args = some args → Clean args) := by
    simp only [List.forall_mem_flatMap, clean_portArgs_iff]
  rw [toEalArgs_shape, List.forall_mem_append, List.forall_mem_append, clean_process_iff, ports]
  simp only [List.forall_mem_cons, clean_dpdk_args_iff, flags, clean_number, clean_coreList,
    true_and]
  constructor
  · rintro ⟨⟨app_name, app_group⟩, devices, dpdk_args⟩
    exact { app_name, app_group, dpdk_args, devices := fun port member => (devices port member).1
            options := fun port member => (devices port member).2 }
  · rintro ⟨app_name, app_group, devices, options, dpdk_args⟩
    exact ⟨⟨app_name, app_group⟩, fun port member => ⟨devices port member, options port member⟩,
      dpdk_args⟩

/-- The arguments reach C byte for byte exactly where no text of the settings holds a zero
and a `c_int` can count them; a text with a zero stops the start with a panic. -/
structure Starts (config : RuntimeConfig) (digit : DigitClass) : Prop where
  arrive_iff : Arrive (config.toEalArgs digit) ↔
    (config.toEalArgs digit).length < 2 ^ 31 ∧ CleanConfig config digit
  panics_iff : ∀ rte_eal_init, ealInit rte_eal_init (config.toEalArgs digit) = none ↔
    ¬ CleanConfig config digit

theorem settings_start (config : RuntimeConfig) (digit : DigitClass) : Starts config digit := by
  have clean := clean_args_iff config digit
  refine { arrive_iff := ?_, panics_iff := fun rte_eal_init => ?_ }
  · rw [arrive_iff, clean]
  · rw [ealInit, Option.map_eq_none_iff, ealCall_none_iff, ← clean]
    simp

end L2Switch.EalCommandLine
