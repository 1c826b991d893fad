import L2Switch.CharPatterns
import L2Switch.NumberText
import L2Switch.Sieves

/-!
The settings of config.rs that decide the arguments the process hands to DPDK's EAL. The
names of the ports, their queue sizes and modes, the general cores, the mempool settings and
the duration do not, and are left out.
-/
namespace L2Switch.EalArguments
open CharPatterns NumberText Sieves

structure CoreId where
  raw : UInt64
  deriving DecidableEq

structure PortConfig where
  device : String
  args : Option String
  cores : List CoreId

structure RuntimeConfig where
  app_name : String
  secondary : Bool
  app_group : Option String
  master_core : CoreId
  ports : List PortConfig
  dpdk_args : Option String

/-- `^\d{4}:\d{2}:\d{2}\.\d$` -/
def pcie (digit : DigitClass) : List CharClass :=
  List.replicate 4 digit.holds ++ [literal ':'] ++ List.replicate 2 digit.holds ++ [literal ':']
    ++ List.replicate 2 digit.holds ++ [literal '.'] ++ [digit.holds]

def PortConfig.vdev (port : PortConfig) : String :=
  match port.args with
  | some args => port.device ++ "," ++ args
  | none => port.device

def portArgs (digit : DigitClass) (port : PortConfig) : List String :=
  if isMatch (pcie digit) port.device.toList then ["--pci-whitelist", port.device]
  else ["--vdev", port.vdev]

/-- `str::contains` -/
def contains (text pattern : String) : Bool := occursIn pattern.toList text.toList

def addCore (cores : String) (core : CoreId) : String :=
  let c := toString core.raw.toNat
  if !contains cores c then
    if cores.isEmpty then c else cores ++ ", " ++ c
  else cores

def RuntimeConfig.coreList (config : RuntimeConfig) : String :=
  config.ports.foldl (fun cores port => port.cores.foldl addCore cores) ""

def isAsciiWhitespace (char : Char) : Bool :=
  char == ' ' || char == '\t' || char == '\n' || char == '\x0c' || char == '\r'

def splitAsciiWhitespace (text : String) : List String :=
  ((text.toList.splitOnP isAsciiWhitespace).filter (fun word => !word.isEmpty)).map String.ofList

def RuntimeConfig.toEalArgs (config : RuntimeConfig) (digit : DigitClass) : List String :=
  [config.app_name]
    ++ ["--proc-type", if config.secondary then "secondary" else "primary"]
    ++ ["--file-prefix", config.app_group.getD config.app_name]
    ++ config.ports.flatMap (portArgs digit)
    ++ ["--master-lcore", toString config.master_core.raw.toNat]
    ++ ["-l", config.coreList]
    ++ (config.dpdk_args.map splitAsciiWhitespace).getD []

/-- The arguments before those of the ports. -/
def RuntimeConfig.processArgs (config : RuntimeConfig) : List String :=
  [config.app_name] ++ ["--proc-type", if config.secondary then "secondary" else "primary"]
    ++ ["--file-prefix", config.app_group.getD config.app_name]

def argAfter (flag : String) (position : Nat) (args : List String) : Option String :=
  if args[position]? = some flag then args[position + 1]? else none

def portsAt : Nat := 5

def RuntimeConfig.masterAt (config : RuntimeConfig) : Nat := portsAt + 2 * config.ports.length

def RuntimeConfig.coreListAt (config : RuntimeConfig) : Nat := config.masterAt + 2

theorem length_processArgs (config : RuntimeConfig) : config.processArgs.length = portsAt := rfl

theorem length_portArgs (digit : DigitClass) (port : PortConfig) :
    (portArgs digit port).length = 2 := by
  unfold portArgs
  split <;> rfl

theorem length_flatMap_portArgs (digit : DigitClass) (ports : List PortConfig) :
    (ports.flatMap (portArgs digit)).length = 2 * ports.length := by
  induction ports with
  | nil => rfl
  | cons port rest ih =>
      rw [List.flatMap_cons, List.length_append, length_portArgs, ih, List.length_cons]
      omega

theorem toEalArgs_shape (config : RuntimeConfig) (digit : DigitClass) :
    config.toEalArgs digit = config.processArgs ++ (config.ports.flatMap (portArgs digit) ++
      ("--master-lcore" :: toString config.master_core.raw.toNat :: "-l" :: config.coreList ::
        (config.dpdk_args.map splitAsciiWhitespace).getD [])) := by
  simp [RuntimeConfig.toEalArgs, RuntimeConfig.processArgs]

/-- The arguments of the ports stand together, two for each. -/
theorem toEalArgs_ports (config : RuntimeConfig) (digit : DigitClass) :
    ((config.toEalArgs digit).drop portsAt).take (2 * config.ports.length) =
      config.ports.flatMap (portArgs digit) := by
  rw [toEalArgs_shape, List.drop_left' (length_processArgs config),
    List.take_left' (length_flatMap_portArgs digit _)]

theorem toEalArgs_after_ports (config : RuntimeConfig) (digit : DigitClass) (index : Nat) :
    (config.toEalArgs digit)[config.masterAt + index]? =
      ("--master-lcore" :: toString config.master_core.raw.toNat :: "-l" :: config.coreList ::
        (config.dpdk_args.map splitAsciiWhitespace).getD [])[index]? := by
  have ports := length_flatMap_portArgs digit config.ports
  have process := length_processArgs config
  rw [toEalArgs_shape, RuntimeConfig.masterAt, List.getElem?_append_right (by omega),
    List.getElem?_append_right (by omega), ports, process]
  congr 1
  omega

theorem argAfter_master (config : RuntimeConfig) (digit : DigitClass) :
    argAfter "--master-lcore" config.masterAt (config.toEalArgs digit) =
      some (toString config.master_core.raw.toNat) := by
  have flag : (config.toEalArgs digit)[config.masterAt]? = some "--master-lcore" :=
    toEalArgs_after_ports config digit 0
  rw [argAfter, if_pos flag]
  exact toEalArgs_after_ports config digit 1

theorem argAfter_coreList (config : RuntimeConfig) (digit : DigitClass) :
    argAfter "-l" config.coreListAt (config.toEalArgs digit) = some config.coreList := by
  have flag : (config.toEalArgs digit)[config.coreListAt]? = some "-l" :=
    toEalArgs_after_ports config digit 2
  rw [argAfter, if_pos flag]
  exact toEalArgs_after_ports config digit 3

/-- The settings of the source's own test of these arguments. -/
def testConfig : RuntimeConfig :=
  { app_name := "myapp", secondary := false, app_group := some "mygroup", master_core := ⟨0⟩
    ports :=
      [{ device := "0000:00:01.0", args := none, cores := [⟨2⟩, ⟨3⟩] },
        { device := "net_pcap0", args := some "rx=lo,tx=lo", cores := [⟨0⟩, ⟨4⟩] }]
    dpdk_args := some "-v --log-level eal:8" }

example : testConfig.toEalArgs .asciiOnly =
    ["myapp", "--proc-type", "primary", "--file-prefix", "mygroup", "--pci-whitelist",
      "0000:00:01.0", "--vdev", "net_pcap0,rx=lo,tx=lo", "--master-lcore", "0", "-l",
      "2, 3, 0, 4", "-v", "--log-level", "eal:8"] := by
  decide +kernel

end L2Switch.EalArguments
