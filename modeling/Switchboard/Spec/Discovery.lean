import Switchboard.Spec.Schemas
import Switchboard.Spec.Worker

/-!
# Capability discovery and admission

What a worker finds out about its host and registers, and its own comparison of a manifest
and an order with that.

* `discoverWorkerRegistration`: the registration.
* `validateCapabilities`: the worker's comparison of requirements with it.
* `Admits`: the checks of the worker on the requirements and the network policies.
* `AgreedRequirement`: the requirements that the worker reads as the service does.
-/

namespace Switchboard

open Transaction

variable (P : Platform)

/-! ## Discovery -/

/-- `WorkerConfig`, as far as it is registered. -/
structure RegisteredConfig extends WorkerConfig where
  displayName : String
  /-- The names of the repository registry. -/
  repositories : List String
  maxConcurrency : ℕ

/-- What discovery finds on the host. -/
structure HostProbe where
  /-- `platform.system()`. -/
  system : String
  /-- `platform.machine()`. -/
  machine : String
  /-- `platform.python_version()`. -/
  pythonVersion : String
  /-- `shutil.which` finds the executable. -/
  which : String → Bool
  /-- The decoded output of the contained `--version` run of a tool, if it ended well and within bounds. -/
  versionOutput : String → Option (List Char)

/-- `_BROWSER_EXECUTABLES`. -/
def browserExecutables : List (String × List String) :=
  [("chromium", ["chromium", "chromium-browser"]), ("chrome", ["google-chrome", "chrome"]), ("edge", ["msedge"]),
    ("firefox", ["firefox"])]

/-- The line boundaries of `str.splitlines`. -/
def lineBoundary (c : Char) : Bool := c.toNat ∈ [10, 11, 12, 13, 28, 29, 30, 133, 8232, 8233]

/-- `_SEMVER.fullmatch`: the three groups of digits. -/
def semver (line : List Char) : Option (List (List Char)) :=
  let body := match line with
    | 'v' :: rest => rest
    | rest => rest
  let groups := body.splitOn '.'
  if groups.length = 3 ∧ groups.all fun g => g ≠ [] && g.all fun c => (P.digit c).isSome then some groups else none

/-- `_parse_version_output`. -/
def parseVersionOutput (output : List Char) (allowNodePrefix : Bool) : Option String :=
  let value := PyText.strip output
  let firstLine := PyText.strip (value.takeWhile fun c => !lineBoundary c)
  if value = [] ∨ 64 < firstLine.length then none
  else
    match semver P firstLine with
    | none => none
    | some groups =>
      if firstLine.head?.any (fun c => c == 'v' || c == 'V') && !allowNodePrefix then none
      else some (String.ofList (['.'].intercalate groups))

/-- `_tool_version`. -/
def toolVersion (probe : HostProbe) (executableName : String) (allowNodePrefix : Bool) : Option String :=
  if probe.which executableName then
    (probe.versionOutput executableName).bind fun output => parseVersionOutput P output allowNodePrefix
  else none

/-- `text or "unknown"`. -/
def orUnknown (text : String) : String := if text = "" then "unknown" else text

namespace HostProbe

variable (probe : HostProbe)

def operatingSystem : String := orUnknown (P.lower probe.system)

def architecture : String := orUnknown (P.lower probe.machine)

/-- `_node_version`. -/
def nodeVersion : Option String := toolVersion P probe "node" true

/-- `_pnpm_version`. -/
def pnpmVersion : Option String := toolVersion P probe "pnpm" false

def browsers : List String :=
  (browserExecutables.filter fun entry => entry.2.any probe.which).map Prod.fst

end HostProbe

/-- The `capabilities` of the registration. -/
def discoveredCapabilities (config : RegisteredConfig) (probe : HostProbe) : List (String × Json) :=
  [("git_available", .bool (probe.which "git")), ("node_available", .bool (probe.nodeVersion P).isSome),
    ("pnpm_available", .bool (probe.pnpmVersion P).isSome),
    ("repository_registry_count", .int config.repositories.length), ("worker_root_configured", .bool true)]

/-- `discover_worker_registration`. -/
def discoverWorkerRegistration (config : RegisteredConfig) (probe : HostProbe) : WorkerRegistration :=
  { workerId := config.workerId
    maxConcurrency := config.maxConcurrency
    status := .online
    declaration :=
      { displayName := config.displayName
        operatingSystem := probe.operatingSystem P
        architecture := probe.architecture P
        pythonVersion := some probe.pythonVersion
        nodeVersion := probe.nodeVersion P
        pnpmVersion := probe.pnpmVersion P
        dockerAvailable := probe.which "docker"
        browsers := probe.browsers
        gpuAvailable := false
        unityAvailable := false
        desktopAvailable := false
        capabilities := discoveredCapabilities P config probe
        repositoryFullNames := config.repositories.mergeSort fun a b => decide (a ≤ b)
        networkPolicyCapability := config.networkPolicyCapability
        repositoryWriteCapability := false } }

/-- The registration as `register_worker` stores it. -/
def WorkerRegistration.normalised (r : WorkerRegistration) : WorkerRegistration :=
  { r with
    declaration :=
      { r.declaration with
        operatingSystem := P.lower r.declaration.operatingSystem
        architecture := P.lower r.declaration.architecture
        repositoryWriteCapability := false } }

/-! ## Admission -/

/-- `_requirement_satisfied`. -/
def requirementSatisfied (actual expected : Json) (capability : String) : Bool :=
  if capability ∈ ["python", "node", "pnpm"] then
    let version := match actual with
      | .str s => some s
      | _ => none
    runtimeVersionMatches P version expected (capability == "node")
  else
    match expected, actual with
    | .bool b, .bool a => a == b
    | .str s, .str a => a == s
    | .arr items, .str a => items.any fun
      | .str s => a == s
      | _ => false
    | _, _ => false

/-- `_local_capabilities`. -/
def localCapabilities (config : RegisteredConfig) (probe : HostProbe) : List (String × Json) :=
  let d := (discoverWorkerRegistration P config probe).declaration
  d.capabilities ++
    [("operating_system", .str d.operatingSystem), ("architecture", .str d.architecture),
      ("python", optionalText d.pythonVersion), ("node", optionalText d.nodeVersion),
      ("pnpm", optionalText d.pnpmVersion), ("docker", .bool d.dockerAvailable), ("gpu", .bool d.gpuAvailable),
      ("unity", .bool d.unityAvailable), ("desktop", .bool d.desktopAvailable),
      ("browsers", .arr (d.browsers.map .str)), ("repository_write", .bool false)]

/-- `aliases.get(name, name)`. -/
def capabilityKey (name : String) : String :=
  match name with
  | "python_version" => "python"
  | "node_version" => "node"
  | "pnpm_version" => "pnpm"
  | "docker_available" => "docker"
  | "gpu_available" => "gpu"
  | "unity_available" => "unity"
  | "desktop_available" => "desktop"
  | name => name

/-- One requirement of `_validate_capabilities`. -/
def capabilitySatisfied (config : RegisteredConfig) (probe : HostProbe) (name : String) (expected : Json) : Bool :=
  match lookup (localCapabilities P config probe) (capabilityKey name) with
  | none => false
  | some actual => requirementSatisfied P actual expected (capabilityKey name)

/-- `_validate_capabilities`. -/
def validateCapabilities (config : RegisteredConfig) (probe : HostProbe) (requirements : List (String × Json)) :
    Except String Unit :=
  requirements.forM fun (name, expected) =>
    ensure (capabilitySatisfied P config probe name expected) s!"unsupported required capability: {name}"

/-- The checks of the worker on what a manifest and an order require, and on their network policies. -/
structure Admits (config : RegisteredConfig) (probe : HostProbe)
    (manifestRequirements requestedRequirements : List (String × Json)) (manifestPolicy orderPolicy : NetworkPolicy) :
    Prop where
  manifest : validateCapabilities P config probe manifestRequirements = .ok ()
  order : validateCapabilities P config probe requestedRequirements = .ok ()
  orderPolicy : orderPolicy = config.networkPolicyCapability
  manifestPolicy : manifestPolicy = config.networkPolicyCapability

/-- The host of a poll is the one that discovery has probed. -/
structure Host.Probed (host : Host) (config : RegisteredConfig) (probe : HostProbe) : Prop where
  configured : host.config = config.toWorkerConfig
  satisfies : ∀ requirements,
    host.satisfies requirements = true ↔ validateCapabilities P config probe requirements = .ok ()

/-! ## Agreement with the service -/

/-- The platform in its own spelling, alone or in a list. -/
def NamesPlatform (platform : String) : Json → Prop
  | .str s => s = platform
  | .arr items => .str platform ∈ items
  | _ => False

/-- A requirement that the worker reads as the service does: its name is in lower case and is none of the three
that only the service can satisfy, a platform is spelled as the worker spells it, and the absence of Docker
is not required where there is Docker. -/
structure AgreedRequirement (probe : HostProbe) (name : String) (required : Json) : Prop where
  lowerCase : P.lower name = name
  known : name ∉ ["browser", "browsers", "network_policy"]
  operatingSystem : name = "operating_system" → NamesPlatform (probe.operatingSystem P) required
  architecture : name = "architecture" → NamesPlatform (probe.architecture P) required
  docker : name = "docker" → probe.which "docker" = true → required ≠ .bool false

/-- What Python's Unicode tables say of the characters that matter here: lower-case names of ASCII characters
stay as they are, the ASCII digits have their values, and no digit is a letter `v` or white space. -/
structure Platform.Unicode : Prop where
  lower_ascii : ∀ s : String, (∀ c ∈ s.toList, keyChar c = true ∨ c = '_') → P.lower s = s
  digit_ascii : ∀ c : Char, PyText.isAsciiDigit c = true → P.digit c = some (c.toNat - 48)
  digit_letter : P.digit 'v' = none ∧ P.digit 'V' = none
  digit_space : ∀ c, (P.digit c).isSome = true → PyText.isSpace c = false

end Switchboard
