import Switchboard.Spec.Parsers
import Switchboard.Spec.Registry

/-!
# Workload profiles

`workload_profiles.py`: the reviewed profiles that are compiled into trusted manifests. A profile has passed
the checks of its constructors before it is compiled.

* `ProfileResultContract.validate`, `identityPayload`: the contract of one step, and what the worker sees of it.
* `WorkloadProfile.validate`: the constructor of a profile.
* `compileProfile`: the trusted manifest of a profile.
-/

namespace Switchboard

open Transaction

/-! ## Result contracts -/

/-- A value that compares with integers: an `int`, a `bool` or a finite `float`, the latter with its JSON text. -/
inductive Number
  | int (i : ℤ)
  | bool (b : Bool)
  | float (x : ℚ) (text : FloatText)

namespace Number

def value : Number → ℚ
  | int i => i
  | bool b => if b then 1 else 0
  | float x _ => x

def toJson : Number → Json
  | int i => .int i
  | bool b => .bool b
  | float _ text => .float text

/-- `isinstance(n, int)` for a value that is no `bool`. -/
def isInt : Number → Bool
  | int _ => true
  | _ => false

end Number

/-- `ResultContract` of a profile. `from_mapping` hands the numbers over as they are. -/
structure ProfileResultContract where
  parserKind : Option String
  source : String
  sourcePath : Option String
  minimumCoveragePercent : Option Number
  minimumTestCount : Option Number
  maximumParsedRecords : Number
  maximumParsedBytes : Number
  requiredSummaryFields : List String
  failureConditions : List String

/-- `_PARSER_KINDS`. -/
def parserKinds : List String :=
  ["pytest", "coverage", "pytest-coverage", "security-audit", "dependency-audit", "dependency-health",
    "critical-coverage", "quality-summary-v1", "secret-scan"]

/-- `_RESULT_FIELDS_BY_PARSER`. -/
def resultFieldsByParser : List (String × List String) :=
  [("coverage", ["coverage"]), ("dependency-audit", ["audit"]), ("dependency-health", ["audit"]), ("pytest", ["tests"]),
    ("pytest-coverage", ["coverage", "tests"]),
    ("quality-summary-v1", ["coverage-threshold", "diagnostics", "operations", "profile", "status"]),
    ("secret-scan", ["audit"])]

/-- `_RESULT_FAILURES_BY_PARSER`. -/
def resultFailuresByParser : List (String × List String) :=
  [("dependency-audit", ["dependency-vulnerability"]), ("dependency-health", ["dependency-health"]),
    ("pytest", ["test-failure"]), ("pytest-coverage", ["coverage-threshold", "test-failure"]),
    ("quality-summary-v1", ["coverage-threshold", "quality-operation-failure"]),
    ("secret-scan", ["baseline-validation"])]

/-- `table.get(kind, frozenset())`. -/
def tableEntry (table : List (String × List String)) (kind : String) : List String :=
  ((table.find? fun e => e.1 == kind).map Prod.snd).getD []

/-- `_SAFE_EXCLUSION.fullmatch`. -/
def safeExclusion : String → Bool := shaped keyChar (fun c => keyChar c || c == '-') 96

def maxProfileResultRecords : ℤ := 10000000

def maxProfileResultBytes : ℤ := 2 * 1024 * 1024

/-- `low <= n <= high`. -/
def Number.between (low high : ℤ) (n : Number) : Bool := decide ((low : ℚ) ≤ n.value ∧ n.value ≤ high)

namespace ProfileResultContract

/-- `_validate_source`. -/
def validateSource (c : ProfileResultContract) : Except InputError Unit := do
  ensure (c.parserKind.all fun kind => parserKinds.contains kind) (.value "profile result parser kind is unsupported")
  ensure (c.source == "stdout" || c.source == "artifact") (.value "profile result source is unsupported")
  if c.source = "artifact" then
    match c.sourcePath with
    | none => .error (.value "artifact result source requires a declared path")
    | some path => validateProfilePath "profile result source path" path
  else ensure c.sourcePath.isNone (.value "stdout result source must not declare an artifact path")

/-- `_validate_numeric_limits`. -/
def validateNumericLimits (c : ProfileResultContract) : Except InputError Unit := do
  ensure (c.minimumCoveragePercent.all (Number.between 0 100)) (.value "profile coverage threshold is invalid")
  ensure (c.minimumTestCount.all (Number.between 0 maxProfileResultRecords))
    (.value "profile test-count rule is invalid")
  ensure (Number.between 1 maxProfileResultRecords c.maximumParsedRecords)
    (.value "profile parsed-record limit is invalid")
  ensure (Number.between 1 maxProfileResultBytes c.maximumParsedBytes) (.value "profile parsed-byte limit is invalid")

/-- `_validate_declared_fields`. -/
def validateDeclaredFields (c : ProfileResultContract) : Except InputError Unit := do
  ensure (decide c.requiredSummaryFields.Nodup && c.requiredSummaryFields.all safeExclusion)
    (.value "profile result summary fields are invalid")
  ensure (decide c.failureConditions.Nodup && c.failureConditions.all safeExclusion)
    (.value "profile result failure conditions are invalid")

/-- `_validate_parser_rules`. -/
def validateParserRules (c : ProfileResultContract) : Except InputError Unit :=
  match c.parserKind with
  | none => return ()
  | some kind => do
    if kind = "quality-summary-v1" then
      ensure (c.source == "artifact" && c.sourcePath == some "reports/quality-summary.json")
        (.value "quality result source is unsupported")
    else ensure (c.source == "stdout" && c.sourcePath.isNone) (.value "profile result source is unsupported")
    ensure (c.requiredSummaryFields.all fun field => (tableEntry resultFieldsByParser kind).contains field)
      (.value "profile result summary fields are unsupported")
    ensure (c.failureConditions.all fun failure => (tableEntry resultFailuresByParser kind).contains failure)
      (.value "profile result failure conditions are unsupported")
    ensure (!(c.failureConditions.contains "coverage-threshold" && c.minimumCoveragePercent.isNone))
      (.value "profile coverage failure condition requires a threshold")
    ensure (c.minimumCoveragePercent.isNone || ["coverage", "pytest-coverage", "quality-summary-v1"].contains kind)
      (.value "profile result coverage parser is unsupported")
    ensure (c.minimumTestCount.isNone || ["pytest", "pytest-coverage"].contains kind)
      (.value "profile result test parser is unsupported")

/-- `__post_init__`. -/
def validate (c : ProfileResultContract) : Except InputError Unit := do
  c.validateSource
  c.validateNumericLimits
  c.validateDeclaredFields
  c.validateParserRules

/-- `identity_payload`. -/
def identityPayload (c : ProfileResultContract) : List (String × Json) :=
  [("failure_conditions", .arr (c.failureConditions.map .str)), ("maximum_parsed_bytes", c.maximumParsedBytes.toJson),
    ("maximum_parsed_records", c.maximumParsedRecords.toJson),
    ("minimum_coverage_percent", (c.minimumCoveragePercent.map Number.toJson).getD .null),
    ("minimum_test_count", (c.minimumTestCount.map Number.toJson).getD .null),
    ("parser_kind", optionalText c.parserKind),
    ("required_summary_fields", .arr (c.requiredSummaryFields.map .str)), ("source", .str c.source),
    ("source_path", optionalText c.sourcePath)]

end ProfileResultContract

/-! ## Artifacts and limits -/

/-- `ArtifactDeclaration`. -/
structure ArtifactDeclaration where
  kind : String
  relativePath : String
  mediaType : String
  redactionState : String := "none"
  required : Bool := true
  maximumBytes : ℤ := 64 * 1024 * 1024

def maxArtifactBytes : ℤ := 64 * 1024 * 1024

/-- `_SAFE_MEDIA_TYPE.fullmatch`. -/
def safeMediaType (value : String) : Bool :=
  isMediaType value.toList && decide (2 ≤ value.length ∧ value.length ≤ 128)

/-- `ArtifactDeclaration.__post_init__`. -/
def ArtifactDeclaration.validate (d : ArtifactDeclaration) : Except InputError Unit := do
  ensure (artifactKind d.kind) (.value "profile artifact kind is invalid")
  validateProfilePath "profile artifact path" d.relativePath
  ensure (safeMediaType d.mediaType) (.value "profile artifact media type is invalid")
  ensure (["none", "redacted"].contains d.redactionState) (.value "profile artifact redaction state is invalid")
  ensure (decide (1 ≤ d.maximumBytes ∧ d.maximumBytes ≤ maxArtifactBytes)) (.value "profile artifact bounds are invalid")

/-- `ArtifactDeclaration.identity_payload`. -/
def ArtifactDeclaration.identityPayload (d : ArtifactDeclaration) : Json :=
  .obj
    [("kind", .str d.kind), ("maximum_bytes", .int d.maximumBytes), ("media_type", .str d.mediaType),
      ("redaction_state", .str d.redactionState), ("relative_path", .str d.relativePath), ("required", .bool d.required)]

/-- `ResourceLimits`. -/
structure ResourceLimits where
  maximumArtifactCount : ℤ
  maximumArtifactBytes : ℤ
  maximumTotalArtifactBytes : ℤ
  retentionDays : ℤ

/-- `ResourceLimits.__post_init__`. -/
def ResourceLimits.validate (l : ResourceLimits) : Except InputError Unit := do
  ensure (decide (1 ≤ l.maximumArtifactCount ∧ l.maximumArtifactCount ≤ 128))
    (.value "profile artifact-count limit is invalid")
  ensure (decide (1 ≤ l.maximumArtifactBytes ∧ l.maximumArtifactBytes ≤ maxArtifactBytes))
    (.value "profile per-artifact limit is invalid")
  ensure (decide (l.maximumArtifactBytes ≤ l.maximumTotalArtifactBytes ∧
      l.maximumTotalArtifactBytes ≤ 512 * 1024 * 1024)) (.value "profile total-artifact limit is invalid")
  ensure (decide (1 ≤ l.retentionDays ∧ l.retentionDays ≤ 3650)) (.value "profile retention limit is invalid")

/-- `ResourceLimits.identity_payload`. -/
def ResourceLimits.identityPayload (l : ResourceLimits) : Json :=
  .obj
    [("maximum_artifact_bytes", .int l.maximumArtifactBytes), ("maximum_artifact_count", .int l.maximumArtifactCount),
      ("maximum_total_artifact_bytes", .int l.maximumTotalArtifactBytes), ("retention_days", .int l.retentionDays)]

/-! ## Steps -/

/-- `WorkloadStep`. -/
structure WorkloadStep where
  id : String
  title : String
  argv : List String
  required : Bool
  timeoutSeconds : ℤ
  outputSummaryLimit : ℕ := 4096
  workingDirectory : String := "."
  environment : List (String × String) := []
  resultContract : Option ProfileResultContract := none
  artifacts : List ArtifactDeclaration := []
  diagnosticOnly : Bool := false

section validation

-- `str.casefold`
variable (P : Platform) (casefold : String → String)

/-- `_SHELL_EXECUTABLES`. -/
def shellExecutables : List String :=
  ["bash", "cmd", "cmd.exe", "command", "fish", "powershell", "powershell.exe", "pwsh", "pwsh.exe", "sh", "zsh"]

/-- `_SHELL_ARGUMENTS`. -/
def shellArguments : List String := ["-c", "/c", "-command", "-encodedcommand"]

/-- `[A-Za-z0-9_.-]`. -/
def versionChar (c : Char) : Bool := PyText.isAsciiAlnum c || c == '_' || c == '.' || c == '-'

/-- `_EXECUTABLE.fullmatch`. -/
def executableName : String → Bool := shaped PyText.isAsciiAlnum versionChar 128

/-- `item.startswith(("/", "\\")) or re.match(r"^[A-Za-z]:", item)`. -/
def absoluteArgument (item : String) : Bool :=
  match item.toList with
  | '/' :: _ | '\\' :: _ => true
  | c :: ':' :: _ => PyText.isAsciiLetter c
  | _ => false

/-- The part of an argument behind its first equals sign, or all of it, with slashes only. -/
def pathArgument (item : String) : List Char :=
  let text := item.toList
  let value := if text.contains '=' then (text.dropWhile (· != '=')).tail else text
  value.map fun c => if c = '\\' then '/' else c

/-- `_validate_fixed_argv`. -/
def validateFixedArgv (argv : List String) : Except InputError Unit :=
  match argv with
  | [] => .error (.value "profile step argv must be a non-empty fixed tuple")
  | executable :: arguments => do
    ensure (argv.all fun item => item != "" && !item.toList.contains '\x00')
      (.value "profile step argv must be a non-empty fixed tuple")
    ensure (executableName executable && !shellExecutables.contains (P.lower executable))
      (.value "profile step executable is unsafe or shell-shaped")
    ensure (arguments.all fun item => !shellArguments.contains (casefold item))
      (.value "profile step shell invocation is not allowed")
    ensure (argv.all fun item => !absoluteArgument item) (.value "profile step argv must not contain absolute paths")
    ensure (arguments.all fun item =>
        ((pathArgument item).splitOn '/').all fun segment => segment != ['.'] && segment != ['.', '.'])
      (.value "profile step argv must not contain traversal or dot segments")

/-- `_ENVIRONMENT_KEY.fullmatch`. -/
def environmentName : String → Bool :=
  shaped (fun c => ('A' ≤ c && c ≤ 'Z') || c == '_') (fun c => ('A' ≤ c && c ≤ 'Z') || PyText.isAsciiDigit c || c == '_')
    64

/-- `_ALLOWED_FIXED_ENVIRONMENT_KEYS`. -/
def allowedFixedEnvironmentKeys : List String :=
  ["PIP_DISABLE_PIP_VERSION_CHECK", "PIP_NO_INPUT", "PYTHONDONTWRITEBYTECODE", "PYTHONUTF8"]

/-- `_validate_environment`. -/
def validateEnvironment (environment : List (String × String)) : Except InputError Unit := do
  ensure (decide (environment.map Prod.fst).Nodup) (.value "profile step environment keys must be unique")
  environment.forM fun (key, value) => do
    ensure (environmentName key && allowedFixedEnvironmentKeys.contains key)
      (.value "profile step environment key is unsupported")
    ensure (decide (value ≠ "" ∧ value.length ≤ 256) &&
        value.toList.all (fun c => !(['\x00', '\n', '\r', '%'].contains c)) &&
        !decide (['$', Char.ofNat 123] <:+: value.toList)) (.value "profile step environment value is invalid")

/-- `WorkloadStep.__post_init__`, behind the constructors of its parts. -/
def WorkloadStep.validate (s : WorkloadStep) : Except InputError Unit := do
  (match s.resultContract with
    | none => return ()
    | some contract => contract.validate)
  s.artifacts.forM ArtifactDeclaration.validate
  ensure (shaped keyChar (fun c => keyChar c || c == '-') 80 s.id && decide (s.title ≠ "" ∧ s.title.length ≤ 160))
    (.value "profile step identity is invalid")
  validateFixedArgv P casefold s.argv
  ensure (s.required != s.diagnosticOnly) (.value "profile step required/diagnostic policy is invalid")
  ensure (decide (1 ≤ s.timeoutSeconds ∧ s.timeoutSeconds ≤ 3600)) (.value "profile step timeout is invalid")
  ensure (decide (1 ≤ s.outputSummaryLimit ∧ s.outputSummaryLimit ≤ 65536)) (.value "profile step output bound is invalid")
  if s.workingDirectory ≠ "." then validateProfilePath "profile working directory" s.workingDirectory
  validateEnvironment s.environment
  ensure (decide (s.artifacts.map ArtifactDeclaration.relativePath).Nodup)
    (.value "profile step artifact paths must be unique")
  match s.resultContract with
  | none => return ()
  | some contract => do
    ensure contract.parserKind.isSome (.value "profile result contract must select a fixed parser")
    ensure (contract.source != "artifact" ||
        s.artifacts.any fun d => contract.sourcePath == some d.relativePath)
      (.value "profile result source must be a declared artifact")

end validation

/-! ## Profiles -/

/-- `WorkloadProfile`. -/
structure WorkloadProfile where
  repositoryFullName : String
  displayName : String
  description : String
  documentationReference : String
  manifestName : String
  manifestVersion : String
  requiredCapabilities : List (String × Json)
  environmentPolicy : List (String × List String)
  networkPolicy : String
  repositoryWritePolicy : String
  timeoutSeconds : ℤ
  resourceLimits : ResourceLimits
  resultAffectingInputPaths : List String
  deterministicExclusions : List String
  steps : List WorkloadStep

/-- The declarations of the artifacts of all steps. -/
def WorkloadProfile.declarations (p : WorkloadProfile) : List ArtifactDeclaration :=
  p.steps.flatMap WorkloadStep.artifacts

section profiles

variable (P : Platform) (casefold : String → String)

/-- `PUBLIC_WORKLOAD_REPOSITORIES`. -/
def publicWorkloadRepositories : List String :=
  ["Nobodyworld/dev-agent-switchboard", "Nobodyworld/app-accounting-modular", "Nobodyworld/dev-logger-zscripts",
    "Nobodyworld/app-industry-resilience"]

/-- `\d+(?:\.\d+){1,2}`. -/
def runtimeVersion (version : String) : Bool :=
  let parts := version.toList.splitOn '.'
  decide (parts.length = 2 ∨ parts.length = 3) &&
    parts.all fun part => !part.isEmpty && part.all fun c => (P.digit c).isSome

/-- The requirement on one runtime: exactly one version, the least or the only one. -/
def runtimeRequirement (value : Json) : Bool :=
  match value with
  | .obj [(name, .str version)] => (name == "minimum" || name == "exact") && runtimeVersion P version
  | _ => false

/-- `_validate_capabilities`. -/
def WorkloadProfile.validateCapabilities (requirements : List (String × Json)) : Except InputError Unit := do
  let allowed := ["git_available", "node", "operating_system", "pnpm", "python", "repository_write"]
  ensure (requirements.all fun r => allowed.contains r.1)
    (.value "profile capability requirement is not readiness-enforceable")
  ensure (match lookup requirements "operating_system" with
    | some (.arr items) => !items.isEmpty && isTextListIn ["linux", "windows"] (.arr items)
    | _ => false) (.value "profile operating-system capability is invalid")
  ensure (["python", "node", "pnpm"].all fun runtime => (lookup requirements runtime).all (runtimeRequirement P))
    (.value "profile runtime capability is invalid")
  ensure (match lookup requirements "git_available" with | some (.bool true) => true | _ => false)
    (.value "profile must require Git availability")
  ensure (match lookup requirements "repository_write" with | some (.bool false) => true | _ => false)
    (.value "profile must prohibit repository writes")

/-- `_ALLOWED_INHERITED_ENVIRONMENT_KEYS`. -/
def allowedInheritedEnvironmentKeys : List String := ["PATH", "HOME", "USERPROFILE", "SYSTEMROOT", "TEMP", "TMP"]

/-- The keys of one entry of the environment policy. -/
def policyKeys (policy : List (String × List String)) (name : String) : List String :=
  ((policy.find? fun e => e.1 == name).map Prod.snd).getD []

/-- The checks of the environment policy. -/
def validateEnvironmentPolicy (policy : List (String × List String)) : Except InputError Unit := do
  ensure (hasKeys policy ["allowed_inherited_keys", "redact_keys"])
    (.value "profile environment policy fields are invalid")
  let inherited := policyKeys policy "allowed_inherited_keys"
  let redacted := policyKeys policy "redact_keys"
  ensure (!inherited.isEmpty && decide inherited.Nodup && inherited.all allowedInheritedEnvironmentKeys.contains)
    (.value "profile inherited environment policy is unsupported")
  ensure (!redacted.isEmpty && decide redacted.Nodup && redacted.all environmentName)
    (.value "profile redaction policy is invalid")

/-- `_REPOSITORY.fullmatch`, without dot segments. -/
def repositoryName (value : String) : Bool :=
  match value.toList.splitOn '/' with
  | [owner, repository] => [owner, repository].all fun part =>
      decide (1 ≤ part.length ∧ part.length ≤ 100) && part.all repositoryChar && part != ['.'] && part != ['.', '.']
  | _ => false

/-- `WorkloadProfile.__post_init__`, behind the constructors of its parts. -/
def WorkloadProfile.validate (p : WorkloadProfile) : Except InputError Unit := do
  p.resourceLimits.validate
  p.steps.forM (WorkloadStep.validate P casefold)
  ensure (repositoryName p.repositoryFullName && publicWorkloadRepositories.contains p.repositoryFullName)
    (.value "profile repository is not public and reviewed")
  ensure (shaped keyChar (fun c => keyChar c || c == '-') 128 p.manifestName &&
      shaped PyText.isAsciiAlnum versionChar 64 p.manifestVersion) (.value "profile manifest identity is invalid")
  ensure (decide (p.displayName ≠ "" ∧ p.displayName.length ≤ 120)) (.value "profile display name is invalid")
  ensure (decide (p.description ≠ "" ∧ p.description.length ≤ 500)) (.value "profile description is invalid")
  validateProfilePath "profile documentation reference" p.documentationReference
  ensure ("docs/".toList.isPrefixOf p.documentationReference.toList &&
      ".md".toList.isSuffixOf p.documentationReference.toList) (.value "profile documentation reference is invalid")
  validateCapabilities P p.requiredCapabilities
  validateEnvironmentPolicy p.environmentPolicy
  ensure (["disabled", "worker_restricted"].contains p.networkPolicy) (.value "profile network policy is unsupported")
  ensure (p.repositoryWritePolicy == "read_only") (.value "profile repository write policy is unsupported")
  ensure (decide (1 ≤ p.timeoutSeconds ∧ p.timeoutSeconds ≤ 14400)) (.value "profile timeout is invalid")
  ensure (!p.resultAffectingInputPaths.isEmpty) (.value "profile result-affecting inputs are required")
  ensure (decide p.resultAffectingInputPaths.Nodup) (.value "profile result-affecting inputs must be unique")
  p.resultAffectingInputPaths.forM (validateProfilePath "profile result-affecting input")
  ensure (decide (1 ≤ p.steps.length ∧ p.steps.length ≤ 64)) (.value "profile step count is invalid")
  ensure (decide (p.steps.map WorkloadStep.id).Nodup) (.value "profile step IDs must be unique")
  let artifactPaths := p.declarations.map ArtifactDeclaration.relativePath
  ensure (decide artifactPaths.Nodup) (.value "profile artifact paths must be unique")
  ensure (decide ((artifactPaths.length : ℤ) ≤ p.resourceLimits.maximumArtifactCount))
    (.value "profile artifact declarations exceed the fixed limit")
  ensure (decide p.deterministicExclusions.Nodup && p.deterministicExclusions.all safeExclusion)
    (.value "profile deterministic exclusions are invalid")

end profiles

/-! ## Compilation -/

section compilation

variable (P : Platform) (U : PyText.CharTable)

/-- `artifact_factory`: the limit of the declaration and its required flag are no part of a trusted artifact. -/
def compileArtifact (d : ArtifactDeclaration) : Except InputError TrustedArtifact := do
  let artifact : TrustedArtifact :=
    { kind := d.kind, relativePath := d.relativePath, mediaType := d.mediaType
      redacted := d.redactionState == "redacted" }
  ensure (["none", "redacted"].contains d.redactionState) (.value "trusted artifact metadata is invalid")
  artifact.validate P
  return artifact

/-- `step_factory`. -/
def compileStep (s : WorkloadStep) : Except InputError TrustedStep := do
  let artifacts ← s.artifacts.mapM (compileArtifact P)
  let step : TrustedStep :=
    { id := s.id, title := s.title, argv := s.argv, required := s.required, timeoutSeconds := s.timeoutSeconds
      outputSummaryLimit := s.outputSummaryLimit, workingDirectory := s.workingDirectory, environment := s.environment
      diagnosticOnly := s.diagnosticOnly, parserKind := s.resultContract.bind ProfileResultContract.parserKind
      artifacts := artifacts }
  step.validate U
  return step

/-- The result contract of `_profile_manifest_arguments`. -/
def profileResultContract (p : WorkloadProfile) : Json :=
  .obj
    [("resource_limits", p.resourceLimits.identityPayload), ("schema_version", .int 1),
      ("steps", .arr (p.steps.filterMap fun s => s.resultContract.map fun contract =>
        .obj [("id", .str s.id), ("result_contract", .obj contract.identityPayload)]))]

/-- `NetworkPolicy(value)`. -/
def networkPolicyOf (value : String) : Except InputError NetworkPolicy :=
  if value = "disabled" then .ok .disabled
  else if value = "worker_restricted" then .ok .workerRestricted
  else .error (.value (value ++ " is not a valid NetworkPolicy"))

/-- `RepositoryWritePolicy(value)`. -/
def repositoryWritePolicyOf (value : String) : Except InputError RepositoryWritePolicy :=
  if value = "read_only" then .ok .readOnly
  else .error (.value (value ++ " is not a valid RepositoryWritePolicy"))

/-- The items of a policy in the order of their names. -/
def sortedPolicy (policy : List (String × List String)) : List (String × Json) :=
  (policy.insertionSort fun a b => a.1 ≤ b.1).map fun e => (e.1, .arr (e.2.map .str))

/-- The body of `compile_trusted_manifests` on one profile. -/
def compileProfile (p : WorkloadProfile) : Except InputError TrustedManifest := do
  let steps ← p.steps.mapM (compileStep P U)
  let networkPolicy ← networkPolicyOf p.networkPolicy
  let repositoryWritePolicy ← repositoryWritePolicyOf p.repositoryWritePolicy
  let manifest : TrustedManifest :=
    { metadata :=
        { name := p.manifestName, version := p.manifestVersion, schemaVersion := 1, description := p.description
          registrySource := "server/execution/workload_profiles.py", requiredCapabilities := p.requiredCapabilities
          fixedStepMetadata := steps.map TrustedStep.safeMetadata, environmentPolicy := sortedPolicy p.environmentPolicy
          networkPolicy := networkPolicy, repositoryWritePolicy := repositoryWritePolicy
          timeoutSeconds := p.timeoutSeconds
          artifactDeclarations := p.declarations.map ArtifactDeclaration.identityPayload }
      allowedParameters := [], executionSteps := steps, dependencyLockPaths := p.resultAffectingInputPaths
      resultContract := some (profileResultContract p) }
  manifest.validate P
  return manifest

end compilation

end Switchboard
