import Switchboard.Spec.Completion
import Switchboard.Spec.RelativePath

/-!
# The manifest registry

`registry.py`: the checks of the constructors of trusted manifests, and what is hashed of them. A manifest is
identified by the SHA-256 digest of its canonical JSON, which leaves out the parts that are empty.

* `TrustedArtifact.validate`, `TrustedStep.validate`, `TrustedManifest.validate`: the constructors.
* `TrustedStep.digestPayload`, `TrustedManifest.digestPayload`: the payload of the digest.
-/

namespace Switchboard

open PyText Transaction

variable (P : Platform) (U : CharTable)

/-- A pattern of a first character, further ones and a longest length. -/
def shaped (first other : Char → Bool) (most : ℕ) (value : String) : Bool :=
  match value.toList with
  | [] => false
  | c :: cs => first c && cs.all other && decide (cs.length + 1 ≤ most)

/-! ## Artifacts -/

/-- `[a-z0-9][a-z0-9-]{0,63}`. -/
def artifactKind : String → Bool := shaped keyChar (fun c => keyChar c || c == '-') 64

/-- `TrustedArtifact.__post_init__`. -/
def TrustedArtifact.validate (a : TrustedArtifact) : Except InputError Unit := do
  ensure (artifactKind a.kind) (.value "trusted artifact kind is invalid")
  validateRelativePath P a.relativePath
  ensure (decide (3 ≤ a.mediaType.length ∧ a.mediaType.length ≤ 128)) (.value "trusted artifact metadata is invalid")

def redactionState (redacted : Bool) : String := if redacted then "redacted" else "none"

/-- `TrustedArtifact.safe_metadata`. -/
def TrustedArtifact.safeMetadata (a : TrustedArtifact) : Json :=
  .obj
    [("kind", .str a.kind), ("media_type", .str a.mediaType), ("redaction_state", .str (redactionState a.redacted)),
      ("relative_path", .str a.relativePath)]

/-! ## Steps -/

namespace TrustedStep

/-- The parsers that a trusted step may select. -/
def parserKinds : List String :=
  ["pytest", "coverage", "pytest-coverage", "security-audit", "dependency-audit", "dependency-health",
    "critical-coverage", "quality-summary-v1", "secret-scan"]

/-- `key.replace("_", "a").isalnum()`: letters, digits and underscores are the word characters. -/
def environmentKey (key : String) : Bool := !key.toList.isEmpty && key.toList.all U.isWord

/-- `TrustedStep.__post_init__`. -/
def validate (s : TrustedStep) : Except InputError Unit := do
  ensure (s.id != "" && s.title != "" && decide (s.id.length ≤ 80)) (.value "trusted step identity must not be empty")
  ensure (!s.argv.isEmpty && s.argv.all fun item => item != "")
    (.value "trusted step argv must contain fixed non-empty items")
  ensure (decide (0 < s.timeoutSeconds)) (.value "trusted step timeout must be positive")
  ensure (decide (1 ≤ s.outputSummaryLimit ∧ s.outputSummaryLimit ≤ 64 * 1024))
    (.value "trusted step output summary limit is out of bounds")
  ensure (s.workingDirectory.toList.head? != some '/' && !(posixParts s.workingDirectory.toList).contains ['.', '.'])
    (.value "trusted step working directory must remain relative")
  ensure (!(s.required && s.diagnosticOnly)) (.value "a required step cannot be diagnostic-only")
  ensure (s.parserKind.all fun kind => parserKinds.contains kind) (.value "trusted step parser kind is unsupported")
  ensure (decide (s.artifacts.map TrustedArtifact.relativePath).Nodup)
    (.value "trusted step artifact paths must be unique")
  ensure (decide (s.environment.map Prod.fst).Nodup &&
      s.environment.all fun item => environmentKey U item.1 && item.2 != "")
    (.value "trusted step environment must contain unique valid values")

def integer (n : ℕ) : Json := .int n

/-- The fields of a payload that are left out if there is nothing in them. -/
def optionalFields (s : TrustedStep) : List (String × Json) :=
  let parser : List (String × Json) :=
    match s.parserKind with
    | none => []
    | some kind => if kind = "" then [] else [("parser_kind", .str kind)]
  let artifacts : List (String × Json) :=
    if s.artifacts = [] then [] else [("artifacts", .arr (s.artifacts.map TrustedArtifact.safeMetadata))]
  parser ++ artifacts

/-- The fields of `digest_payload` that are always there. -/
def fixedFields (s : TrustedStep) : List (String × Json) :=
  [("argv", .arr (s.argv.map .str)),
    ("capability_condition", match s.capabilityCondition with | none => .null | some condition => .obj condition),
    ("diagnostic_only", .bool s.diagnosticOnly),
    ("environment", .arr (s.environment.map fun item => .arr [.str item.1, .str item.2])), ("id", .str s.id),
    ("output_summary_limit", integer s.outputSummaryLimit), ("required", .bool s.required),
    ("timeout_seconds", .int s.timeoutSeconds), ("title", .str s.title),
    ("working_directory", .str s.workingDirectory)]

/-- `digest_payload`. -/
def digestPayload (s : TrustedStep) : Json := .obj (s.fixedFields ++ s.optionalFields)

/-- `safe_metadata`. -/
def safeMetadata (s : TrustedStep) : Json :=
  let identity : List (String × Json) :=
    [("id", .str s.id), ("required", .bool s.required), ("timeout_seconds", .int s.timeoutSeconds),
      ("output_summary_limit", integer s.outputSummaryLimit)]
  let condition : List (String × Json) :=
    match s.capabilityCondition with
    | none | some [] => []
    | some condition => [("capability_condition", .obj condition)]
  let diagnostic : List (String × Json) := if s.diagnosticOnly then [("diagnostic_only", .bool true)] else []
  let environment : List (String × Json) :=
    if s.environment = [] then []
    else [("environment_keys", .arr ((Service.sortedTexts (s.environment.map Prod.fst)).map .str))]
  .obj (identity ++ condition ++ diagnostic ++ environment ++ s.optionalFields)

end TrustedStep

/-! ## Manifests -/

namespace TrustedManifest

/-- `TrustedManifest.__post_init__`. -/
def validate (m : TrustedManifest) : Except InputError Unit := do
  ensure (m.executionSteps.isEmpty ||
      sameItems m.metadata.fixedStepMetadata (m.executionSteps.map TrustedStep.safeMetadata))
    (.value "fixed_step_metadata must match safe executable-step metadata")
  m.dependencyLockPaths.forM (validateRelativePath P)
  ensure (m.resultContract.all fun contract => match contract with | .obj _ => true | _ => false)
    (.value "trusted manifest result contract is invalid")

/-- The fields of the payload that are always there. -/
def fixedFields (m : TrustedManifest) : List (String × Json) :=
  [("allowed_parameters", .arr ((Service.sortedTexts m.allowedParameters).map .str)),
    ("artifact_declarations", .arr m.metadata.artifactDeclarations), ("description", .str m.metadata.description),
    ("environment_policy", .obj m.metadata.environmentPolicy),
    ("fixed_step_metadata", .arr m.metadata.fixedStepMetadata), ("name", .str m.metadata.name),
    ("network_policy", .str m.metadata.networkPolicy.value), ("registry_source", .str m.metadata.registrySource),
    ("repository_write_policy", .str "read_only"),
    ("required_capabilities", .obj m.metadata.requiredCapabilities),
    ("schema_version", .int m.metadata.schemaVersion), ("timeout_seconds", .int m.metadata.timeoutSeconds),
    ("version", .str m.metadata.version)]

/-- The fields that are left out if there is nothing in them. -/
def optionalFields (m : TrustedManifest) : List (String × Json) :=
  let steps : List (String × Json) :=
    if m.executionSteps.isEmpty then []
    else [("execution_steps", .arr (m.executionSteps.map TrustedStep.digestPayload))]
  let locks : List (String × Json) :=
    if m.dependencyLockPaths = [] then []
    else [("dependency_lock_paths", .arr (m.dependencyLockPaths.map .str))]
  let contract : List (String × Json) :=
    match m.resultContract with
    | none => []
    | some contract => [("result_contract", contract)]
  steps ++ locks ++ contract

/-- The payload of `digest`. -/
def digestPayload (m : TrustedManifest) : Json := .obj (m.fixedFields ++ m.optionalFields)

end TrustedManifest

end Switchboard
