import Mathlib.Data.List.Sort
import Switchboard.Lib.JsonObjects
import Switchboard.Spec.Identity
import Switchboard.Spec.Rendering
import Switchboard.Spec.RetainedEvidence
import Switchboard.Spec.Schemas

/-!
# Operator reports

The report of a validation lifecycle (`execution_operator/models.py`), and the contract that its shape and its recorded
facts have to keep (`report_contract.py`).

* `OperatorLifecycleReport`: the report, with its runtime and its runs.
* `validateReportShape`, `validateReportState`: the contract.
* `OperatorLifecycleReport.asDict`, `asJsonBytes`, `asText`: the checked report, as JSON and as text.
-/

namespace Switchboard

open Transaction
open JsonText (Value)

namespace Operator

/-! ## The report -/

/-- The exceptions of the module; every `ReportContractError` is raised again as a failure with its one reason. -/
inductive ReportException
  /-- `OperatorLifecycleFailure`. -/
  | failure (reason : String)
  | valueError
  deriving DecidableEq, Repr

/-- `RuntimeSummary`. -/
structure RuntimeSummary where
  schemaVersion : ℤ
  runtimeId : String
  repositoryFullName : String
  targetSha : String
  manifestName : String
  manifestVersion : String
  manifestDigest : String
  mode : String
  commandIdentity : String
  createdAt : String
  deriving DecidableEq

/-- A duration: a stored report may hold an `int` for it. -/
inductive Duration
  | int (i : ℤ)
  | float (x : Binary64)
  deriving DecidableEq

/-- `StepSummary`. -/
structure StepSummary where
  stepId : String
  status : String
  durationSeconds : Duration
  deriving DecidableEq

/-- `ArtifactSummary`. -/
structure ArtifactSummary where
  kind : String
  relativePath : String
  sizeBytes : ℤ
  sha256 : String
  deriving DecidableEq

/-- `RunSummary`. -/
structure RunSummary where
  schemaVersion : ℤ
  workOrderId : ℤ
  runId : ℤ
  sourceRunId : ℤ
  phase : String
  workerId : String
  status : String
  reuseDecision : String
  reusedFromRunId : Option ℤ
  reuseIdentityHash : String
  evidenceFingerprint : String
  evidenceRetentionExpiresAt : String
  routingPolicy : String
  routeReason : String
  requiredQuotaUnits : ℤ
  reservedQuotaUnits : ℤ
  quotaReservationState : String
  eligibleCandidateCount : ℤ
  stepCount : ℤ
  artifactCount : ℤ
  artifactTotalBytes : ℤ
  routeVerified : Bool
  evidenceVerified : Bool
  localEvidenceVerified : Bool
  sourceCheckoutUnchanged : Bool
  steps : List StepSummary
  artifacts : List ArtifactSummary
  deriving DecidableEq

/-- `OperatorLifecycleReport`. -/
structure OperatorLifecycleReport where
  schemaVersion : ℤ := 2
  outcome : String := "failed"
  reason : String := "not_started"
  runtime : Option RuntimeSummary := none
  phases : List String := []
  preflightChecks : List String := []
  preflightPassed : Bool := false
  serverReady : Bool := false
  workerReady : Bool := false
  freshApproved : Bool := false
  reuseApproved : Bool := false
  runs : List RunSummary := []
  activeLeaseCount : Option ℤ := none
  workerActiveRunCount : Option ℤ := none
  ownedProcessesStopped : Bool := false
  portReleased : Bool := false
  canonicalCheckoutUnchanged : Bool := false
  failedRuntimePreserved : Bool := false
  operatorActionCount : ℤ := 0
  avoidedDeterministicStepCount : ℤ := 0
  completedAt : Option String := none
  deriving DecidableEq

/-! ## `dataclasses.asdict` -/

def texts (values : List String) : Value Binary64 := .arr (values.map .str)

def optionalInt : Option ℤ → Value Binary64
  | none => .null
  | some i => .int i

def optionalStr : Option String → Value Binary64
  | none => .null
  | some s => .str s

def Duration.payload : Duration → Value Binary64
  | .int i => .int i
  | .float x => .float x

def RuntimeSummary.fields (s : RuntimeSummary) : List (String × Value Binary64) :=
  [("schema_version", .int s.schemaVersion), ("runtime_id", .str s.runtimeId),
    ("repository_full_name", .str s.repositoryFullName), ("target_sha", .str s.targetSha),
    ("manifest_name", .str s.manifestName), ("manifest_version", .str s.manifestVersion),
    ("manifest_digest", .str s.manifestDigest), ("mode", .str s.mode), ("command_identity", .str s.commandIdentity),
    ("created_at", .str s.createdAt)]

def RuntimeSummary.payload (s : RuntimeSummary) : Value Binary64 := .obj s.fields

def StepSummary.fields (s : StepSummary) : List (String × Value Binary64) :=
  [("step_id", .str s.stepId), ("status", .str s.status), ("duration_seconds", s.durationSeconds.payload)]

def StepSummary.payload (s : StepSummary) : Value Binary64 := .obj s.fields

def ArtifactSummary.fields (a : ArtifactSummary) : List (String × Value Binary64) :=
  [("kind", .str a.kind), ("relative_path", .str a.relativePath), ("size_bytes", .int a.sizeBytes),
    ("sha256", .str a.sha256)]

def ArtifactSummary.payload (a : ArtifactSummary) : Value Binary64 := .obj a.fields

def RunSummary.fields (r : RunSummary) : List (String × Value Binary64) :=
  [("schema_version", .int r.schemaVersion), ("work_order_id", .int r.workOrderId), ("run_id", .int r.runId),
    ("source_run_id", .int r.sourceRunId), ("phase", .str r.phase), ("worker_id", .str r.workerId),
    ("status", .str r.status), ("reuse_decision", .str r.reuseDecision),
    ("reused_from_run_id", optionalInt r.reusedFromRunId), ("reuse_identity_hash", .str r.reuseIdentityHash),
    ("evidence_fingerprint", .str r.evidenceFingerprint),
    ("evidence_retention_expires_at", .str r.evidenceRetentionExpiresAt), ("routing_policy", .str r.routingPolicy),
    ("route_reason", .str r.routeReason), ("required_quota_units", .int r.requiredQuotaUnits),
    ("reserved_quota_units", .int r.reservedQuotaUnits), ("quota_reservation_state", .str r.quotaReservationState),
    ("eligible_candidate_count", .int r.eligibleCandidateCount), ("step_count", .int r.stepCount),
    ("artifact_count", .int r.artifactCount), ("artifact_total_bytes", .int r.artifactTotalBytes),
    ("route_verified", .bool r.routeVerified), ("evidence_verified", .bool r.evidenceVerified),
    ("local_evidence_verified", .bool r.localEvidenceVerified),
    ("source_checkout_unchanged", .bool r.sourceCheckoutUnchanged), ("steps", .arr (r.steps.map StepSummary.payload)),
    ("artifacts", .arr (r.artifacts.map ArtifactSummary.payload))]

def RunSummary.payload (r : RunSummary) : Value Binary64 := .obj r.fields

def OperatorLifecycleReport.fields (r : OperatorLifecycleReport) : List (String × Value Binary64) :=
  [("schema_version", .int r.schemaVersion), ("outcome", .str r.outcome), ("reason", .str r.reason),
    ("runtime", r.runtime.elim .null RuntimeSummary.payload), ("phases", texts r.phases),
    ("preflight_checks", texts r.preflightChecks), ("preflight_passed", .bool r.preflightPassed),
    ("server_ready", .bool r.serverReady), ("worker_ready", .bool r.workerReady),
    ("fresh_approved", .bool r.freshApproved), ("reuse_approved", .bool r.reuseApproved),
    ("runs", .arr (r.runs.map RunSummary.payload)), ("active_lease_count", optionalInt r.activeLeaseCount),
    ("worker_active_run_count", optionalInt r.workerActiveRunCount),
    ("owned_processes_stopped", .bool r.ownedProcessesStopped), ("port_released", .bool r.portReleased),
    ("canonical_checkout_unchanged", .bool r.canonicalCheckoutUnchanged),
    ("failed_runtime_preserved", .bool r.failedRuntimePreserved), ("operator_action_count", .int r.operatorActionCount),
    ("avoided_deterministic_step_count", .int r.avoidedDeterministicStepCount),
    ("completed_at", optionalStr r.completedAt)]

def OperatorLifecycleReport.payload (r : OperatorLifecycleReport) : Value Binary64 := .obj r.fields

/-! ## The shape -/

/-- `type(value)`. -/
inductive ValueType
  | none
  | bool
  | int
  | float
  | str
  | list
  | dict
  deriving DecidableEq

def typeOf : Value Binary64 → ValueType
  | .null => .none
  | .bool _ => .bool
  | .int _ => .int
  | .float _ => .float
  | .str _ => .str
  | .arr _ => .list
  | .obj _ => .dict

/-- The names of a record with the types of their values. -/
abbrev Shape := List (String × List ValueType)

def reportFlags : List String :=
  ["preflight_passed", "server_ready", "worker_ready", "fresh_approved", "reuse_approved", "owned_processes_stopped",
    "port_released", "canonical_checkout_unchanged", "failed_runtime_preserved"]

def runFlags : List String :=
  ["route_verified", "evidence_verified", "local_evidence_verified", "source_checkout_unchanged"]

/-- `dict.fromkeys`. -/
def fromKeys (names : List String) (types : List ValueType) : Shape := names.map fun name => (name, types)

/-- `_REPORT_SHAPE`. -/
def reportShape : Shape :=
  fromKeys reportFlags [.bool] ++
    [("schema_version", [.int]), ("outcome", [.str]), ("reason", [.str]), ("runtime", [.dict, .none]),
      ("phases", [.list]), ("preflight_checks", [.list]), ("runs", [.list]), ("active_lease_count", [.int, .none]),
      ("worker_active_run_count", [.int, .none]), ("operator_action_count", [.int]),
      ("avoided_deterministic_step_count", [.int]), ("completed_at", [.str, .none])]

/-- `_RUNTIME_SHAPE`, and with it the keys of a marker. -/
def runtimeShape : Shape :=
  ("schema_version", [.int]) ::
    fromKeys ["runtime_id", "repository_full_name", "target_sha", "manifest_name", "manifest_version",
      "manifest_digest", "mode", "command_identity", "created_at"] [.str]

/-- `_RUN_SHAPE`. -/
def runShape : Shape :=
  fromKeys runFlags [.bool] ++
    fromKeys ["schema_version", "work_order_id", "run_id", "source_run_id", "required_quota_units",
      "reserved_quota_units", "eligible_candidate_count", "step_count", "artifact_count", "artifact_total_bytes"]
      [.int] ++
    fromKeys ["phase", "worker_id", "status", "reuse_decision", "reuse_identity_hash", "evidence_fingerprint",
      "evidence_retention_expires_at", "routing_policy", "route_reason", "quota_reservation_state"] [.str] ++
    [("reused_from_run_id", [.int, .none]), ("steps", [.list]), ("artifacts", [.list])]

def stepShape : Shape := [("step_id", [.str]), ("status", [.str]), ("duration_seconds", [.int, .float])]

def artifactShape : Shape := [("kind", [.str]), ("relative_path", [.str]), ("size_bytes", [.int]), ("sha256", [.str])]

/-- `_require`. -/
def require (condition : Bool) : Except ReportException Unit := ensure condition (.failure "report_contract_invalid")

/-- `_shape`. -/
def shape (value : Value Binary64) (fields : Shape) : Except ReportException (List (String × Value Binary64)) :=
  match value with
  | .obj items => do
    require (hasKeys items (fields.map Prod.fst))
    require (fields.all fun f => ((getField items f.1).map typeOf).any fun type => decide (type ∈ f.2))
    return items
  | _ => .error (.failure "report_contract_invalid")

/-- `fields[name]` where it is a list. -/
def listField (fields : List (String × Value Binary64)) (name : String) : List (Value Binary64) :=
  match getField fields name with
  | some (.arr items) => items
  | _ => []

/-- `_MAX_ITEMS`. -/
def maxItems : ℕ := 128

/-- `_MAX_RUNS`. -/
def maxRuns : ℕ := 2

/-- `_collection`. -/
def collection (items : List (Value Binary64)) : Except ReportException Unit := require (decide (items.length ≤ maxItems))

/-- A list of texts of the report. -/
def validateTexts (items : List (Value Binary64)) : Except ReportException Unit := do
  collection items
  require (items.all fun item => typeOf item == .str)

/-- One item of `runs`. -/
def validateRunShape (value : Value Binary64) : Except ReportException Unit := do
  let run ← shape value runShape
  collection (listField run "steps")
  collection (listField run "artifacts")
  (listField run "steps").forM fun step => do let _ ← shape step stepShape
  (listField run "artifacts").forM fun artifact => do let _ ← shape artifact artifactShape

/-- `runtime`, unless it is `None`. -/
def validateRuntimeShape : Value Binary64 → Except ReportException Unit
  | .null => return ()
  | value => do let _ ← shape value runtimeShape

/-- `validate_report_shape`. -/
def validateReportShape (payload : Value Binary64) : Except ReportException Unit := do
  let report ← shape payload reportShape
  ["phases", "preflight_checks"].forM fun name => validateTexts (listField report name)
  require (decide ((listField report "runs").length ≤ maxRuns))
  validateRuntimeShape ((getField report "runtime").getD .null)
  (listField report "runs").forM validateRunShape

/-! ## The state -/

def preflightCheckNames : List String :=
  ["canonical_repository", "clean_source", "target_commit", "source_snapshot", "manifest_contract", "python_runtime",
    "git_runtime", "worker_capabilities", "root_safety", "loopback_port", "process_token", "report_policy"]

def freshPhases : List String :=
  ["preflight_passed", "runtime_created", "server_healthy", "worker_online", "fresh_created",
    "fresh_approval_required", "fresh_approved", "fresh_queued", "fresh_running", "fresh_succeeded", "fresh_verified"]

def reusePhases : List String :=
  ["reuse_approval_required", "reuse_created", "reuse_approved", "reuse_queued", "reuse_succeeded", "reuse_verified"]

def shutdownPhases : List String := ["shutdown_started", "cleanup_verified", "completed"]

/-- `LIFECYCLE_PHASES`. -/
def lifecyclePhases : List String := freshPhases ++ reusePhases ++ shutdownPhases

/-- A text of digits, where the template has `d`, and of the other characters of the template. -/
def fits (template text : List Char) : Bool :=
  decide (template.length = text.length) &&
    (template.zip text).all fun (t, c) => if t = 'd' then PyText.isAsciiDigit c else decide (c = t)

/-- `_TIMESTAMP.fullmatch`. The digits are those of ASCII: `fromisoformat` reads no others. -/
def timestampShaped (text : List Char) : Bool :=
  fits "dddd-dd-ddTdd:dd:dd".toList (text.take 19) &&
    match text.drop 19 with
    | ['Z'] => true
    | '.' :: rest =>
      decide (rest.getLast? = some 'Z' ∧ 1 ≤ rest.dropLast.length ∧ rest.dropLast.length ≤ 6) &&
        rest.dropLast.all PyText.isAsciiDigit
    | _ => false

/-- `fromisoformat` of a text with `Z` for the offset of UTC. -/
def instantOf (text : String) : Option Time :=
  (IsoTime.fromIsoformat (PyText.replace "Z".toList "+00:00".toList text.toList)).bind awareInstant

/-- `_timestamp`. -/
def timestamp (value : String) : Except ReportException Time := do
  require (timestampShaped value.toList)
  match instantOf value with
  | some t => return t
  | none => .error (.failure "report_contract_invalid")

/-- `success_phases`. -/
def successPhases (mode : String) : Except ReportException (List String) := do
  require (decide (mode ∈ ["fresh-only", "fresh-then-exact-reuse"]))
  let reuse := if mode = "fresh-then-exact-reuse" then reusePhases else []
  return freshPhases ++ reuse ++ shutdownPhases

/-- The links of a reuse to its source in `_validate_runs`. -/
def validateReuse (report : OperatorLifecycleReport) (fresh reuse : RunSummary) : Except ReportException Unit := do
  require (report.runtime.any fun runtime => decide (runtime.mode = "fresh-then-exact-reuse"))
  require (report.reuseApproved && decide ("reuse_verified" ∈ report.phases))
  require (decide (reuse.phase = "reuse"))
  require (decide (reuse.runId ≠ fresh.runId))
  require (decide (reuse.workOrderId ≠ fresh.workOrderId))
  require (decide (reuse.reusedFromRunId = some reuse.sourceRunId ∧ reuse.sourceRunId = fresh.runId))
  require (decide (fresh.workerId = reuse.workerId ∧ fresh.reuseIdentityHash = reuse.reuseIdentityHash))
  require (decide (reuse.stepCount = 0 ∧ reuse.artifactCount = 0))
  require (decide (report.avoidedDeterministicStepCount = fresh.stepCount))

/-- `_validate_runs`. -/
def validateRuns (report : OperatorLifecycleReport) : Except ReportException Unit :=
  match report.runs with
  | [] => require (decide (report.avoidedDeterministicStepCount = 0))
  | fresh :: others => do
    require (report.runtime.isSome && report.freshApproved)
    require (decide (fresh.phase = "fresh" ∧ "fresh_verified" ∈ report.phases))
    require (decide (0 < fresh.stepCount))
    report.runs.forM fun run => do
      require (decide ((run.steps.map StepSummary.stepId).Nodup))
      require (decide ((run.artifacts.map ArtifactSummary.relativePath).Nodup))
    match others with
    | [] => require (decide (report.avoidedDeterministicStepCount = 0))
    | [reuse] => validateReuse report fresh reuse
    -- two names are assigned from `runs`
    | _ => .error .valueError

/-- `_validate_success`. -/
def validateSuccess (report : OperatorLifecycleReport) : Except ReportException Unit :=
  match report.runtime with
  | none => require false
  | some runtime => do
    require (decide (report.phases = (← successPhases runtime.mode)))
    let reuse := decide (runtime.mode = "fresh-then-exact-reuse")
    require (decide (report.runs.length = 1 + reuse.toNat))
    require (decide (report.reason = "lifecycle_verified"))
    require report.completedAt.isSome
    require (report.preflightPassed && report.serverReady && report.workerReady)
    require (report.freshApproved && report.reuseApproved == reuse)
    require (decide (report.operatorActionCount = 1 + reuse.toNat))
    require (decide (report.activeLeaseCount = some 0 ∧ report.workerActiveRunCount = some 0))
    require (!report.failedRuntimePreserved)
    let completed ← timestamp (report.completedAt.getD "")
    report.runs.forM fun run => do
      require (decide (completed < (← timestamp run.evidenceRetentionExpiresAt)))

/-- The phases stand in their order, each once. -/
def phasesOrdered (phases : List String) : Bool :=
  let positions := phases.map fun phase => lifecyclePhases.idxOf phase
  decide (positions = positions.dedup.insertionSort (· ≤ ·))

/-- The flags with the phases that set them. -/
def OperatorLifecycleReport.flagPhases (report : OperatorLifecycleReport) : List (Bool × String) :=
  [(report.preflightPassed, "preflight_passed"), (report.serverReady, "server_healthy"),
    (report.workerReady, "worker_online"), (report.freshApproved, "fresh_approved"),
    (report.reuseApproved, "reuse_approved")]

/-- The checks of the runtime in `validate_report_state`. -/
def validateReportRuntime (report : OperatorLifecycleReport) : Except ReportException Unit :=
  match report.runtime with
  | some runtime => do
    let created ← timestamp runtime.createdAt
    let allowed ← successPhases runtime.mode
    require (report.phases.all fun phase => decide (phase ∈ allowed))
    match report.completedAt with
    | some completedAt => do require (decide (created ≤ (← timestamp completedAt)))
    | none => pure ()
    require (decide (runtime.mode = "fresh-only" → report.reuseApproved = false ∧ report.operatorActionCount ≤ 1))
  | none => require (report.phases.isEmpty && report.runs.isEmpty && report.completedAt.isNone)

/-- What a report has to keep that claims no success. -/
def validateUnsuccessful (report : OperatorLifecycleReport) : Except ReportException Unit := do
  require (decide ("completed" ∉ report.phases ∧ report.reason ≠ "lifecycle_verified"))
  require (decide (report.completedAt.isSome → "shutdown_started" ∈ report.phases ∧ report.failedRuntimePreserved = true))
  require (decide (report.outcome = "inspected" →
    report.phases = [] ∧ report.runs = [] ∧ report.completedAt = none))

/-- `_SAFE_REASON.fullmatch`. -/
def safeReason : String → Bool := shaped keyChar (fun c => keyChar c || ['_', '.', ':', '-'].contains c) 128

/-- `validate_report_state`. -/
def validateReportState (report : OperatorLifecycleReport) : Except ReportException Unit := do
  require (decide (report.schemaVersion = 2))
  require (decide (report.outcome ∈ ["succeeded", "failed", "inspected"]))
  require (safeReason report.reason)
  require (report.phases.all fun phase => decide (phase ∈ lifecyclePhases))
  require (phasesOrdered report.phases)
  [report.activeLeaseCount, report.workerActiveRunCount, some report.operatorActionCount,
    some report.avoidedDeterministicStepCount].forM fun count => require (count.all fun n => decide (0 ≤ n))
  report.flagPhases.forM fun (flag, phase) => require (flag == decide (phase ∈ report.phases))
  require (decide (report.preflightChecks = if report.preflightPassed then preflightCheckNames else []))
  let approved : ℤ := report.freshApproved.toNat + report.reuseApproved.toNat
  require (decide (approved ≤ report.operatorActionCount ∧ report.operatorActionCount ≤ min (approved + 1) maxRuns))
  require (!report.reuseApproved || report.freshApproved)
  validateReportRuntime report
  require (decide ("cleanup_verified" ∈ report.phases →
    report.ownedProcessesStopped = true ∧ report.portReleased = true ∧ report.canonicalCheckoutUnchanged = true))
  validateRuns report
  if report.outcome = "succeeded" then validateSuccess report else validateUnsuccessful report

/-! ## Summaries -/

/-- `OperatorLifecycleFailure(reason)`: a reason that is no safe one is replaced. -/
def operatorFailure (reason : String) : ReportException :=
  .failure (if safeReason reason then reason else "operator_lifecycle_failure")

/-- `_SAFE_ID.fullmatch`. -/
def safeId (value : String) : Bool :=
  let char c := PyText.isAsciiAlnum c || ['_', '.', ':', '@', '/', '-'].contains c
  shaped char char 255 value

def lowerHex (c : Char) : Bool := PyText.isAsciiDigit c || (decide ('a' ≤ c) && decide (c ≤ 'f'))

/-- `_SHA.fullmatch`. -/
def sha40 (value : String) : Bool := value.toList.all lowerHex && decide (value.length = 40)

/-- `validate_runtime_summary`; the types of the fields are those of the structure. -/
def validateRuntimeSummary (s : RuntimeSummary) : Except ReportException Unit :=
  ensure
    (decide (s.schemaVersion = 1) && safeId s.runtimeId && safeId s.repositoryFullName && sha40 s.targetSha &&
      safeId s.manifestName && safeId s.manifestVersion && hex64 s.manifestDigest &&
      decide (s.mode ∈ ["fresh-only", "fresh-then-exact-reuse"]) &&
      decide (s.commandIdentity = "validation-lifecycle@1") && decide (s.createdAt.length ≤ 64))
    (.failure "runtime_marker_invalid")

/-- The runtime of a report, if it has one. -/
def validateRuntime : Option RuntimeSummary → Except ReportException Unit
  | none => return ()
  | some s => validateRuntimeSummary s

/-- `duration_seconds < 0`. -/
def Duration.isNegative : Duration → Bool
  | .int i => decide (i < 0)
  | .float (.finite q) => decide (q < 0)
  | .float (.infinity negative) => negative
  | .float .nan => false

/-- `_MAX_STRING`. -/
def maxString : ℕ := 512

variable (P : Platform)

/-- `_safe_relative_path`. -/
def safeRelativePath (value : String) : Bool :=
  decide (value ≠ "") && decide (value.length ≤ maxString) && (validateRelativePath P value).toBool

/-- The phase of a run fits its source. -/
def RunSummary.phaseLinkValid (r : RunSummary) : Bool :=
  decide (r.phase = "fresh" ∧ r.sourceRunId = r.runId ∧ r.reusedFromRunId = none ∧ r.reuseDecision = "fresh") ||
    decide (r.phase = "reuse" ∧ r.reusedFromRunId = some r.sourceRunId ∧ r.reuseDecision = "reused" ∧ r.stepCount = 0 ∧
      r.artifactCount = 0)

def RunSummary.artifactBytes (r : RunSummary) : ℤ := (r.artifacts.map ArtifactSummary.sizeBytes).sum

/-- The expiry of a summary is bounded and ends in `Z`. -/
def RunSummary.expiryShaped (r : RunSummary) : Bool :=
  decide (r.evidenceRetentionExpiresAt.length ≤ 64 ∧ r.evidenceRetentionExpiresAt.toList.getLast? = some 'Z')

/-- The fields of a run that `_validate_run_summary` checks together. -/
def RunSummary.checks (r : RunSummary) : Bool :=
  decide (r.schemaVersion = 1) && decide (1 ≤ r.workOrderId) && decide (1 ≤ r.runId) && decide (1 ≤ r.sourceRunId) &&
    safeId r.workerId && hex64 r.reuseIdentityHash && hex64 r.evidenceFingerprint && r.expiryShaped &&
    r.phaseLinkValid && decide (r.status = "succeeded") && decide (r.routingPolicy = "first_available") &&
    safeReason r.routeReason && decide (r.requiredQuotaUnits = 0) && decide (r.reservedQuotaUnits = 0) &&
    decide (r.quotaReservationState = "not_required") && decide (1 ≤ r.eligibleCandidateCount) &&
    decide (r.stepCount = r.steps.length) && decide (r.artifactCount = r.artifacts.length) &&
    decide (r.artifactTotalBytes = r.artifactBytes) && decide (0 ≤ r.artifactBytes) && r.routeVerified &&
    r.evidenceVerified && r.localEvidenceVerified && r.sourceCheckoutUnchanged

def StepSummary.checks (s : StepSummary) : Bool :=
  safeId s.stepId && safeReason s.status && !s.durationSeconds.isNegative

def ArtifactSummary.checks (a : ArtifactSummary) : Bool :=
  safeReason a.kind && safeRelativePath P a.relativePath && decide (0 ≤ a.sizeBytes) && hex64 a.sha256

/-- `_validate_run_summary`. -/
def validateRunSummary (r : RunSummary) : Except ReportException Unit :=
  ensure
    ((instantOf r.evidenceRetentionExpiresAt).isSome && r.checks && r.steps.all StepSummary.checks &&
      r.artifacts.all (ArtifactSummary.checks P))
    (.failure "report_run_invalid")

/-! ## Public values -/

mutual

/-- `_validate_public_value` at a depth. -/
def validatePublicValue (depth : ℕ) (value : Value Binary64) : Except ReportException Unit := do
  ensure (decide (depth ≤ 8)) (.failure "report_depth_limit_exceeded")
  match value with
  | .str s =>
    ensure (decide (s.length ≤ maxString) && !containsAbsoluteLocalPath s.toList && !containsWorkerCredential P s)
      (.failure "report_text_policy_rejected")
  | .float x => ensure (decide (x ≠ .nan ∧ ∀ negative, x ≠ .infinity negative)) (.failure "report_number_invalid")
  | .arr items => do
    ensure (decide (items.length ≤ maxItems)) (.failure "report_collection_limit_exceeded")
    validatePublicItems (depth + 1) items
  | .obj fields => do
    ensure (decide (fields.length ≤ 64)) (.failure "report_collection_limit_exceeded")
    validatePublicFields (depth + 1) fields
  | _ => return ()

def validatePublicItems (depth : ℕ) : List (Value Binary64) → Except ReportException Unit
  | [] => return ()
  | item :: items => do
    validatePublicValue depth item
    validatePublicItems depth items

def validatePublicFields (depth : ℕ) : List (String × Value Binary64) → Except ReportException Unit
  | [] => return ()
  | (name, value) :: fields => do
    ensure (decide (name.length ≤ 64)) (.failure "report_key_policy_rejected")
    validatePublicValue depth value
    validatePublicFields depth fields

end

/-! ## Serialized reports -/

/-- `as_dict`. -/
def OperatorLifecycleReport.asDict (r : OperatorLifecycleReport) : Except ReportException (Value Binary64) := do
  validateReportShape r.payload
  validateRuntime r.runtime
  r.runs.forM (validateRunSummary P)
  validatePublicValue P 0 r.payload
  validateReportState r
  return r.payload

mutual

/-- `int.__repr__` refuses no integer of the value: none has more digits than the interpreter converts. -/
def writable : Value Binary64 → Bool
  | .int i => decide ((Nat.toDigits 10 i.natAbs).length ≤ maximumDigits)
  | .arr items => writableItems items
  | .obj fields => writableFields fields
  | _ => true

def writableItems : List (Value Binary64) → Bool
  | [] => true
  | item :: items => writable item && writableItems items

def writableFields : List (String × Value Binary64) → Bool
  | [] => true
  | (_, value) :: fields => writable value && writableFields fields

end

/-- `text.encode("utf-8")`. -/
def encodeUtf8 (text : List Char) : Bytes := text.flatMap String.utf8EncodeChar

-- `float.__repr__`
variable (floatRepr : Binary64 → List Char)

/-- `json.dumps` with `ensure_ascii=True` and the compact separators. -/
def recordEncoder : JsonText.Encoder Binary64 := ⟨escapeAscii, floatRepr⟩

/-- `json.dumps(payload, sort_keys=True, separators=(",", ":"), ensure_ascii=True).encode("utf-8")`. -/
def dumpsRecord (payload : Value Binary64) : Except ReportException Bytes := do
  ensure (writable payload) .valueError
  return encodeUtf8 (JsonText.print (recordEncoder floatRepr) (JsonText.sorted payload))

/-- `as_json_bytes`. -/
def OperatorLifecycleReport.asJsonBytes (r : OperatorLifecycleReport) (maximumBytes : ℕ) :
    Except ReportException Bytes := do
  let encoded ← dumpsRecord floatRepr (← r.asDict P)
  ensure (decide (encoded.length ≤ maximumBytes)) (.failure "report_size_limit_exceeded")
  return encoded

/-- `str` of a `bool`. -/
def boolText (b : Bool) : String := if b then "True" else "False"

def optionalIntText : Option ℤ → String
  | none => "None"
  | some i => toString i

/-- The line of a run. -/
def RunSummary.line (r : RunSummary) : String :=
  s!"{r.phase}: work_order={r.workOrderId} run={r.runId} source_run={r.sourceRunId} status={r.status} " ++
    s!"reuse={r.reuseDecision} identity_hash={r.reuseIdentityHash} route={r.routingPolicy}:{r.routeReason} " ++
    s!"worker={r.workerId} eligible={r.eligibleCandidateCount} quota={r.requiredQuotaUnits}/{r.reservedQuotaUnits}:" ++
    s!"{r.quotaReservationState} steps={r.stepCount} artifacts={r.artifactCount} " ++
    s!"artifact_bytes={r.artifactTotalBytes} fingerprint={r.evidenceFingerprint} expires={r.evidenceRetentionExpiresAt}"

def OperatorLifecycleReport.lines (r : OperatorLifecycleReport) : List String :=
  ["Switchboard operator validation lifecycle", s!"outcome: {r.outcome}", s!"reason: {r.reason}",
    s!"preflight: {boolText r.preflightPassed}", s!"server_ready: {boolText r.serverReady}",
    s!"worker_ready: {boolText r.workerReady}", s!"fresh_approved: {boolText r.freshApproved}",
    s!"reuse_approved: {boolText r.reuseApproved}", s!"runs: {r.runs.length}",
    s!"active_lease_count: {optionalIntText r.activeLeaseCount}",
    s!"owned_processes_stopped: {boolText r.ownedProcessesStopped}", s!"port_released: {boolText r.portReleased}",
    s!"canonical_checkout_unchanged: {boolText r.canonicalCheckoutUnchanged}",
    s!"failed_runtime_preserved: {boolText r.failedRuntimePreserved}",
    s!"operator_action_count: {r.operatorActionCount}",
    s!"avoided_deterministic_step_count: {r.avoidedDeterministicStepCount}",
    "phases: " ++ ",".intercalate r.phases] ++ r.runs.map RunSummary.line

/-- `as_text`. -/
def OperatorLifecycleReport.asText (r : OperatorLifecycleReport) (maximumBytes : ℕ) :
    Except ReportException Bytes := do
  let _ ← r.asDict P
  ensure (writable r.payload) .valueError
  let encoded := encodeUtf8 ("\n".intercalate r.lines ++ "\n").toList
  ensure (decide (encoded.length ≤ maximumBytes)) (.failure "report_size_limit_exceeded")
  return encoded

end Operator

end Switchboard
