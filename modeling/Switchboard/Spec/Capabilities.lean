import Switchboard.Lib.PyText
import Switchboard.Spec.Store

/-!
# Worker capability matching

`capabilities.py`: the server's comparison of a registered worker with the trusted and
the request-scoped requirements. Every check returns an optional mismatch reason.
-/

namespace Switchboard

variable (P : Platform)

/-! ## Versions -/

inductive VersionMode
  | exact | minimum
  deriving DecidableEq, Repr

/-- `_version_requirement`: one supported runtime version constraint. -/
def versionRequirement : Json → Option (VersionMode × String)
  | .obj [("exact", .str v)] => some (.exact, v)
  | .obj [("minimum", .str v)] => some (.minimum, v)
  | .str v => some (.minimum, v)
  | _ => none

/-- The value of one nonempty group of digits. -/
def versionPart (cs : List Char) : Option ℕ :=
  if cs = [] then none
  else cs.foldl (fun acc c => do return 10 * (← acc) + (← P.digit c)) (some 0)

/-- `_version_parts`: one to three dot-separated numbers. -/
def versionParts (value : String) (normalizeLeadingV : Bool) : Option (List ℕ) :=
  let normalized := PyText.strip value.toList
  let normalized :=
    match normalized with
    | c :: cs => if normalizeLeadingV && (c == 'v' || c == 'V') then cs else normalized
    | [] => normalized
  let groups := normalized.splitOn '.'
  if groups.length ≤ 3 then groups.mapM (versionPart P) else none

/-- `_padded_version`. -/
def paddedVersion (parts : List ℕ) : List ℕ := (parts ++ [0, 0]).take 3

/-- Python's tuple comparison `a >= b`. -/
def versionGe : List ℕ → List ℕ → Bool
  | _, [] => true
  | [], _ :: _ => false
  | a :: as, b :: bs => if a = b then versionGe as bs else decide (b < a)

/-- `runtime_version_matches`. -/
def runtimeVersionMatches (actual : Option String) (requirement : Json) (normalizeLeadingV : Bool) : Bool :=
  match actual, versionRequirement requirement with
  | some actual, some (mode, expected) =>
    match versionParts P actual normalizeLeadingV, versionParts P expected normalizeLeadingV with
    | some a, some e =>
      match mode with
      | .exact => decide (a = e)
      | .minimum => versionGe (paddedVersion a) (paddedVersion e)
    | _, _ => false
  | _, _ => false

/-! ## Capability checks -/

/-- `_as_string_set`. -/
def asStringSet : Json → Option (List String)
  | .str s => some [P.lower s]
  | .arr items => items.mapM fun
    | .str s => some (P.lower s)
    | _ => none
  | _ => none

/-- `_platform_mismatch`. -/
def platformMismatch (actual : String) (required : Json) (name : String) : Option String :=
  match asStringSet P required with
  | none => some s!"invalid_capability_requirement:{name}"
  | some allowed =>
    if allowed ≠ [] ∧ P.lower actual ∉ allowed then some s!"{name}_not_supported" else none

/-- `_version_mismatch`. -/
def versionMismatch (actual : Option String) (name : String) (required : Json) : Option String :=
  if (versionRequirement required).isNone then some s!"invalid_capability_requirement:{name}"
  else if runtimeVersionMatches P actual required (name == "node") then none
  else if name == "pnpm" then some "pnpm_version_mismatch_or_missing"
  else some s!"{name}_version_too_old_or_missing"

/-- `_boolean_capability_mismatch`. -/
def booleanCapabilityMismatch (available : Bool) (name : String) (required : Json) : Option String :=
  match required with
  | .bool b => if b && !available then some s!"{name}_not_available" else none
  | _ => some s!"invalid_capability_requirement:{name}"

/-- `_browser_mismatch`. -/
def browserMismatch (browsers : List String) (required : Json) : Option String :=
  match asStringSet P required with
  | none => some "invalid_capability_requirement:browsers"
  | some needed =>
    if needed.all fun b => decide (b ∈ browsers.map P.lower) then none else some "browser_capability_missing"

/-- `_custom_capability_mismatch`. -/
def customCapabilityMismatch (capabilities : List (String × Json)) (name : String) (required : Json) :
    Option String :=
  let available := (lookup capabilities name).bind (asStringSet P)
  match required with
  | .bool b =>
    match lookup capabilities name with
    | some (.bool a) => if a = b then none else some s!"capability_missing:{name}"
    | _ => some s!"capability_missing:{name}"
  | .str s =>
    match available with
    | some set => if P.lower s ∈ set then none else some s!"capability_missing:{name}"
    | none => some s!"capability_missing:{name}"
  | _ =>
    match asStringSet P required with
    | none => some s!"invalid_capability_requirement:{name}"
    | some needed =>
      match available with
      | some set =>
        if needed.all fun v => decide (v ∈ set) then none else some s!"capability_missing:{name}"
      | none => some s!"capability_missing:{name}"

/-- `_repository_write_mismatch`. -/
def repositoryWriteMismatch : Json → Option String
  | .bool b => if b then some "repository_write_not_permitted" else none
  | _ => some "invalid_capability_requirement:repository_write"

/-- `NetworkPolicy(value)`. -/
def networkPolicyOfValue : Json → Option NetworkPolicy
  | .str "disabled" => some .disabled
  | .str "worker_restricted" => some .workerRestricted
  | _ => none

/-- The comparison shared by `_network_policy_mismatch` and `_match_network_policy`. -/
def networkPolicyUnsupported (offered required : NetworkPolicy) : Option String :=
  match required with
  | .disabled => none
  | .workerRestricted => if offered ≠ .workerRestricted then some "network_policy_not_supported" else none

/-- `_network_policy_mismatch`. -/
def networkPolicyMismatch (offered : NetworkPolicy) (required : Json) : Option String :=
  match networkPolicyOfValue required with
  | none => some "invalid_capability_requirement:network_policy"
  | some policy => networkPolicyUnsupported offered policy

/-- `_capability_mismatch`, for a lower-cased requirement name. -/
def capabilityMismatch (d : WorkerDeclaration) (name : String) (required : Json) : Option String :=
  match name with
  | "operating_system" => platformMismatch P d.operatingSystem required "operating_system"
  | "architecture" => platformMismatch P d.architecture required "architecture"
  | "python" => versionMismatch P d.pythonVersion "python" required
  | "node" => versionMismatch P d.nodeVersion "node" required
  | "pnpm" => versionMismatch P d.pnpmVersion "pnpm" required
  | "docker" => booleanCapabilityMismatch d.dockerAvailable "docker" required
  | "gpu" => booleanCapabilityMismatch d.gpuAvailable "gpu" required
  | "unity" => booleanCapabilityMismatch d.unityAvailable "unity" required
  | "desktop" => booleanCapabilityMismatch d.desktopAvailable "desktop" required
  | "browser" | "browsers" => browserMismatch P d.browsers required
  | "repository_write" => repositoryWriteMismatch required
  | "network_policy" => networkPolicyMismatch d.networkPolicyCapability required
  | name => customCapabilityMismatch P d.capabilities name required

/-- `_match_capability_mapping`. -/
def matchCapabilityMapping (d : WorkerDeclaration) (requirements : List (String × Json)) : List String :=
  requirements.filterMap fun (name, required) => capabilityMismatch P d (P.lower name) required

/-- `match_worker_capabilities`: the mismatch reasons, each once, in order. -/
def matchWorkerCapabilities (d : WorkerDeclaration) (manifestRequirements requestedRequirements : List (String × Json))
    (networkPolicy : NetworkPolicy) : List String :=
  (matchCapabilityMapping P d manifestRequirements ++ matchCapabilityMapping P d requestedRequirements ++
    (networkPolicyUnsupported d.networkPolicyCapability networkPolicy).toList ++
    (if d.repositoryWriteCapability then ["repository_write_capability_must_be_false"] else [])).eraseDups

end Switchboard
