import Switchboard.Lib.Tx
import Switchboard.Spec.Capabilities
import Switchboard.Spec.Text

/-!
# Request contracts

`schemas.py`: the checks a request body passes before the service sees it. A refused body is
answered with the first error of its validation.

* `validateNoAbsoluteLocalPaths`: the text policy, on every text of the body.
* `rejectExecutableKeys`: no executable-shaped key at any depth.
* `workerRegistrationIn`: the body of a registration.
-/

namespace Switchboard

open Transaction

variable (P : Platform)

/-- Why a body is refused: a bound declared on a field, or the message of a validator. -/
inductive InputError
  | field (name : String)
  | value (message : String)
  deriving DecidableEq, Repr

/-! ## Texts and keys -/

mutual

/-- The texts of a document in the order in which the validators meet them, keys included. -/
def textsOf : Json → List String
  | .str s => [s]
  | .arr items => textsOfItems items
  | .obj fields => textsOfFields fields
  | _ => []

def textsOfItems : List Json → List String
  | [] => []
  | item :: items => textsOf item ++ textsOfItems items

def textsOfFields : List (String × Json) → List String
  | [] => []
  | (name, value) :: fields => name :: textsOf value ++ textsOfFields fields

end

/-- `contains_worker_credential`. -/
def containsWorkerCredential (value : String) : Bool :=
  (P.lower value).toList.tails.any fun rest => "swb_w1.".toList.isPrefixOf rest

/-- `validate_no_absolute_local_path`. -/
def validateNoAbsoluteLocalPath (value : String) : Except InputError Unit := do
  ensure (!containsWorkerCredential P value) (.value "text must not contain a worker credential")
  ensure (!containsAbsoluteLocalPath value.toList) (.value "text must not contain an absolute local path")

/-- `validate_no_absolute_local_paths`. -/
def validateNoAbsoluteLocalPaths (value : Json) : Except InputError Unit :=
  (textsOf value).forM (validateNoAbsoluteLocalPath P)

/-- `_FORBIDDEN_EXECUTABLE_KEYS`. -/
def forbiddenExecutableKeys : List String :=
  ["argv", "command", "command_string", "shell", "shell_command", "script", "script_contents", "executable",
    "executable_path"]

/-- `[a-z0-9]`. -/
def keyChar (c : Char) : Bool := ('a' ≤ c && c ≤ 'z') || PyText.isAsciiDigit c

/-- `re.sub(r"[^a-z0-9]+", "_", key)`; `inRun` after a character that is replaced. -/
def underscored (inRun : Bool) : List Char → List Char
  | [] => []
  | c :: cs =>
    if keyChar c then c :: underscored false cs
    else if inRun then underscored true cs
    else '_' :: underscored true cs

/-- A key as it is compared with the executable ones. -/
def normalizedKey (key : String) : String :=
  let text := (underscored false (P.lower key).toList).dropWhile (· == '_')
  String.ofList (text.reverse.dropWhile (· == '_')).reverse

/-- `_reject_executable_keys`. -/
def rejectExecutableKeys (value : Json) (fieldName : String) : Except InputError Unit :=
  (keysOf value).forM fun key =>
    ensure (!forbiddenExecutableKeys.contains (normalizedKey P key))
      (.value s!"{fieldName} must not contain executable field '{normalizedKey P key}'")

/-! ## Fields -/

/-- `Field(min_length=…, max_length=…)`. -/
def boundedText (name : String) (least most : ℕ) (value : String) : Except InputError Unit :=
  ensure (decide (least ≤ value.length ∧ value.length ≤ most)) (.field name)

/-- `[A-Za-z0-9_.-]`. -/
def repositoryChar (c : Char) : Bool := PyText.isAsciiAlnum c || c == '_' || c == '.' || c == '-'

/-- `validate_repository_full_name`. -/
def validateRepositoryFullName (value : String) : Except InputError Unit :=
  match value.toList.splitOn '/' with
  | [owner, repository] => do
    ensure ([owner, repository].all fun part =>
      decide (1 ≤ part.length ∧ part.length ≤ 100) && part.all repositoryChar)
      (.value "repository full_name is invalid")
    ensure ([owner, repository].all fun part => part != ['.'] && part != ['.', '.'])
      (.value "repository full_name contains a dot segment")
  | _ => .error (.value "repository full_name is invalid")

/-! ## Runtime versions -/

/-- The text of a version. -/
def versionText (parts : List ℕ) : String := String.ofList (['.'].intercalate (parts.map fun n => Nat.toDigits 10 n))

/-- `normalize_runtime_version`. -/
def normalizeRuntimeVersion (value : String) (allowLeadingV : Bool) : Option String := do
  let stripped := PyText.strip value.toList
  let normalized ←
    match stripped with
    | c :: cs => if c == 'v' || c == 'V' then (if allowLeadingV then some cs else none) else some stripped
    | [] => some stripped
  let parts ← versionParts P (String.ofList normalized) false
  if parts.length = 2 ∨ parts.length = 3 then some (versionText parts) else none

/-- A version field: its bound and `validate_runtime_versions`. -/
def runtimeVersionField (name : String) (allowLeadingV : Bool) : Option String → Except InputError (Option String)
  | none => return none
  | some value => do
    boundedText name 0 64 value
    match normalizeRuntimeVersion P value allowLeadingV with
    | none => .error (.value "worker runtime version must be semantic and bounded")
    | some normalized => return some normalized

/-! ## Registrations -/

/-- `value or None` as JSON. -/
def optionalText : Option String → Json
  | none => .null
  | some s => .str s

/-- The JSON body of a registration. -/
def WorkerRegistration.payload (r : WorkerRegistration) : Json :=
  let d := r.declaration
  .obj
    [("worker_id", .str r.workerId), ("display_name", .str d.displayName),
      ("operating_system", .str d.operatingSystem), ("architecture", .str d.architecture),
      ("python_version", optionalText d.pythonVersion), ("node_version", optionalText d.nodeVersion),
      ("pnpm_version", optionalText d.pnpmVersion), ("docker_available", .bool d.dockerAvailable),
      ("browsers", .arr (d.browsers.map .str)), ("gpu_available", .bool d.gpuAvailable),
      ("unity_available", .bool d.unityAvailable), ("desktop_available", .bool d.desktopAvailable),
      ("capabilities", .obj d.capabilities), ("repository_full_names", .arr (d.repositoryFullNames.map .str)),
      ("max_concurrency", .int r.maxConcurrency), ("network_policy_capability", .str d.networkPolicyCapability.value),
      ("repository_write_capability", .bool d.repositoryWriteCapability), ("status", .str r.status.value)]

/-- `validate_repository_full_names`. -/
def validateRepositoryFullNames (names : List String) : Except InputError Unit := do
  ensure (decide (1 ≤ names.length ∧ names.length ≤ 32)) (.field "repository_full_names")
  names.forM validateRepositoryFullName
  ensure (decide (names.Pairwise (· ≤ ·)) && decide names.Nodup)
    (.value "repository_full_names must be sorted and unique")
  ensure (names.all P.trustsRepository) (.value "repository_full_names contains an unknown repository")

/-- `WorkerRegistrationIn`: the registration that the service is given. -/
def workerRegistrationIn (r : WorkerRegistration) : Except InputError WorkerRegistration := do
  let d := r.declaration
  validateNoAbsoluteLocalPaths P r.payload
  boundedText "worker_id" 1 128 r.workerId
  boundedText "display_name" 1 255 d.displayName
  boundedText "operating_system" 1 64 d.operatingSystem
  boundedText "architecture" 1 64 d.architecture
  let pythonVersion ← runtimeVersionField P "python_version" false d.pythonVersion
  let nodeVersion ← runtimeVersionField P "node_version" true d.nodeVersion
  let pnpmVersion ← runtimeVersionField P "pnpm_version" false d.pnpmVersion
  ensure (decide (d.browsers.length ≤ 32)) (.field "browsers")
  validateRepositoryFullNames P d.repositoryFullNames
  ensure (decide (1 ≤ r.maxConcurrency ∧ r.maxConcurrency ≤ 64)) (.field "max_concurrency")
  ensure (!d.repositoryWriteCapability) (.field "repository_write_capability")
  rejectExecutableKeys P (.obj d.capabilities) "capabilities"
  return { r with declaration := { d with pythonVersion, nodeVersion, pnpmVersion } }

end Switchboard
