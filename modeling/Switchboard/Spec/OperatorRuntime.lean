import Switchboard.Spec.OperatorReport

/-!
# The records of an operator's runtime

The marker and the two reports of a runtime root (`execution_operator/runtime.py`), as regular files to which nobody
else writes, and the inspection of a stored report (`lifecycle.py`).

* `readRecord`: a bounded record of strict JSON.
* `createRuntime`, `writeReport`: what a lifecycle writes.
* `inspectValidationRuntime`: what an inspection reads.
-/

namespace Switchboard

open Transaction
open JsonText (Value)

namespace Operator

/-- The records of a runtime root. -/
structure RuntimeRoot where
  marker : Bytes
  reportJson : Option Bytes := none
  reportText : Option Bytes := none
  deriving DecidableEq

/-! ## Strict JSON -/

variable (I : Interpreter)

/-- The arguments of `_strict_json`. -/
def recordDecoder : JsonText.Decoder Binary64 :=
  { parseFloat := Binary64.ofLiteral
    parseConstant := fun _ => .error .value
    objectPairs := JsonText.distinctPairs
    recursionLimit := I.recursionLimit
    maximumDigits := maximumDigits }

/-- `_read_json` of the bytes of a record. -/
def readRecord (data : Bytes) (maximum : ℕ) : Except ReportException (Value Binary64) := do
  ensure (decide (data.length ≤ maximum)) (.failure "runtime_record_invalid")
  match Utf8.strict data with
  | none => .error (.failure "runtime_record_invalid")
  | some text => (JsonText.loads (recordDecoder I) text).mapError fun _ => .failure "runtime_record_invalid"

/-! ## Records from values -/

section fields

variable (fields : List (String × Value Binary64))

def strField (name : String) : Option String :=
  match getField fields name with
  | some (.str s) => some s
  | _ => none

def intField (name : String) : Option ℤ :=
  match getField fields name with
  | some (.int i) => some i
  | _ => none

def boolField (name : String) : Option Bool :=
  match getField fields name with
  | some (.bool b) => some b
  | _ => none

def optionalIntField (name : String) : Option (Option ℤ) :=
  match getField fields name with
  | some .null => some none
  | some (.int i) => some (some i)
  | _ => none

def optionalStrField (name : String) : Option (Option String) :=
  match getField fields name with
  | some .null => some none
  | some (.str s) => some (some s)
  | _ => none

def strItem : Value Binary64 → Option String
  | .str s => some s
  | _ => none

/-- A list whose items are read one by one. -/
def itemsField {α : Type} (name : String) (read : Value Binary64 → Option α) : Option (List α) :=
  match getField fields name with
  | some (.arr items) => items.mapM read
  | _ => none

/-- `RuntimeSummary(**fields)`, if the types are those of the structure. -/
def RuntimeSummary.ofFields : Option RuntimeSummary := do
  return {
    schemaVersion := ← intField fields "schema_version"
    runtimeId := ← strField fields "runtime_id"
    repositoryFullName := ← strField fields "repository_full_name"
    targetSha := ← strField fields "target_sha"
    manifestName := ← strField fields "manifest_name"
    manifestVersion := ← strField fields "manifest_version"
    manifestDigest := ← strField fields "manifest_digest"
    mode := ← strField fields "mode"
    commandIdentity := ← strField fields "command_identity"
    createdAt := ← strField fields "created_at" }

def durationField (name : String) : Option Duration :=
  match getField fields name with
  | some (.int i) => some (.int i)
  | some (.float x) => some (.float x)
  | _ => none

end fields

/-- `StepSummary(**step)`. -/
def StepSummary.ofValue : Value Binary64 → Option StepSummary
  | .obj fields => do
    return {
      stepId := ← strField fields "step_id"
      status := ← strField fields "status"
      durationSeconds := ← durationField fields "duration_seconds" }
  | _ => none

/-- `ArtifactSummary(**artifact)`. -/
def ArtifactSummary.ofValue : Value Binary64 → Option ArtifactSummary
  | .obj fields => do
    return {
      kind := ← strField fields "kind"
      relativePath := ← strField fields "relative_path"
      sizeBytes := ← intField fields "size_bytes"
      sha256 := ← strField fields "sha256" }
  | _ => none

/-- `RunSummary(**item, steps=steps, artifacts=artifacts)`. -/
def RunSummary.ofValue : Value Binary64 → Option RunSummary
  | .obj fields => do
    return {
      schemaVersion := ← intField fields "schema_version"
      workOrderId := ← intField fields "work_order_id"
      runId := ← intField fields "run_id"
      sourceRunId := ← intField fields "source_run_id"
      phase := ← strField fields "phase"
      workerId := ← strField fields "worker_id"
      status := ← strField fields "status"
      reuseDecision := ← strField fields "reuse_decision"
      reusedFromRunId := ← optionalIntField fields "reused_from_run_id"
      reuseIdentityHash := ← strField fields "reuse_identity_hash"
      evidenceFingerprint := ← strField fields "evidence_fingerprint"
      evidenceRetentionExpiresAt := ← strField fields "evidence_retention_expires_at"
      routingPolicy := ← strField fields "routing_policy"
      routeReason := ← strField fields "route_reason"
      requiredQuotaUnits := ← intField fields "required_quota_units"
      reservedQuotaUnits := ← intField fields "reserved_quota_units"
      quotaReservationState := ← strField fields "quota_reservation_state"
      eligibleCandidateCount := ← intField fields "eligible_candidate_count"
      stepCount := ← intField fields "step_count"
      artifactCount := ← intField fields "artifact_count"
      artifactTotalBytes := ← intField fields "artifact_total_bytes"
      routeVerified := ← boolField fields "route_verified"
      evidenceVerified := ← boolField fields "evidence_verified"
      localEvidenceVerified := ← boolField fields "local_evidence_verified"
      sourceCheckoutUnchanged := ← boolField fields "source_checkout_unchanged"
      steps := ← itemsField fields "steps" StepSummary.ofValue
      artifacts := ← itemsField fields "artifacts" ArtifactSummary.ofValue }
  | _ => none

/-- `StoredOperatorLifecycleReport(**payload)` with the runtime and the runs assigned. -/
def OperatorLifecycleReport.ofFields (summary : RuntimeSummary) (fields : List (String × Value Binary64)) :
    Option OperatorLifecycleReport := do
  return {
    schemaVersion := ← intField fields "schema_version"
    outcome := ← strField fields "outcome"
    reason := ← strField fields "reason"
    runtime := some summary
    phases := ← itemsField fields "phases" strItem
    preflightChecks := ← itemsField fields "preflight_checks" strItem
    preflightPassed := ← boolField fields "preflight_passed"
    serverReady := ← boolField fields "server_ready"
    workerReady := ← boolField fields "worker_ready"
    freshApproved := ← boolField fields "fresh_approved"
    reuseApproved := ← boolField fields "reuse_approved"
    runs := ← itemsField fields "runs" RunSummary.ofValue
    activeLeaseCount := ← optionalIntField fields "active_lease_count"
    workerActiveRunCount := ← optionalIntField fields "worker_active_run_count"
    ownedProcessesStopped := ← boolField fields "owned_processes_stopped"
    portReleased := ← boolField fields "port_released"
    canonicalCheckoutUnchanged := ← boolField fields "canonical_checkout_unchanged"
    failedRuntimePreserved := ← boolField fields "failed_runtime_preserved"
    operatorActionCount := ← intField fields "operator_action_count"
    avoidedDeterministicStepCount := ← intField fields "avoided_deterministic_step_count"
    completedAt := ← optionalStrField fields "completed_at" }

/-! ## The marker -/

def maxMarkerBytes : ℕ := 16 * 1024

def maxReportBytes : ℕ := 1024 * 1024

/-- `_read_runtime_summary`. -/
def readRuntimeSummary (root : RuntimeRoot) : Except ReportException RuntimeSummary := do
  match ← readRecord I root.marker maxMarkerBytes with
  | .obj fields => do
    ensure (hasKeys fields (runtimeShape.map Prod.fst)) (.failure "runtime_marker_invalid")
    match RuntimeSummary.ofFields fields with
    | none => .error (.failure "runtime_marker_invalid")
    | some summary => do
      validateRuntimeSummary summary
      return summary
  | _ => .error (.failure "runtime_marker_invalid")

/-- `verify_runtime_ownership`: every failure is the loss of the ownership. -/
def verifyRuntimeOwnership (root : RuntimeRoot) (expected : RuntimeSummary) : Except ReportException Unit :=
  match readRuntimeSummary I root with
  | .ok current => ensure (decide (current = expected)) (.failure "runtime_ownership_lost")
  | .error _ => .error (.failure "runtime_ownership_lost")

-- `float.__repr__`
variable (floatRepr : Binary64 → List Char)

/-- The root that `create_runtime` leaves, with the marker of its summary. -/
def createRuntime (summary : RuntimeSummary) : Except ReportException RuntimeRoot := do
  validateRuntimeSummary summary
  let marker ← dumpsRecord floatRepr summary.payload
  verifyRuntimeOwnership I { marker } summary
  return { marker }

/-! ## Reports -/

variable (P : Platform)

/-- `write_report`. Writing a report leaves the marker as it is, so the second check of it passes as the first does. -/
def writeReport (root : RuntimeRoot) (report : OperatorLifecycleReport) (maximumBytes : ℕ) :
    Except ReportException RuntimeRoot :=
  match report.runtime with
  | none => .error (.failure "runtime_ownership_lost")
  | some expected => do
    let json ← report.asJsonBytes P floatRepr maximumBytes
    let text ← report.asText P maximumBytes
    verifyRuntimeOwnership I root expected
    return { root with reportJson := some json, reportText := some text }

/-- `read_runtime_report`. -/
def readRuntimeReport (root : RuntimeRoot) (expected : RuntimeSummary) :
    Except ReportException (Option (List (String × Value Binary64))) := do
  verifyRuntimeOwnership I root expected
  match root.reportJson with
  | none => return none
  | some data =>
    match ← readRecord I data maxReportBytes with
    | .obj fields => return some fields
    | _ => .error (.failure "runtime_record_invalid")

/-- The report that `inspect_validation_runtime` builds from a stored payload. -/
def storedReport (summary : RuntimeSummary) (fields : List (String × Value Binary64)) :
    Except ReportException OperatorLifecycleReport := do
  ensure (hasKeys fields (reportShape.map Prod.fst)) .valueError
  ensure (sameValue ((getField fields "runtime").getD .null) summary.payload) .valueError
  validateReportShape (.obj fields)
  match OperatorLifecycleReport.ofFields summary fields with
  | none => .error .valueError
  | some report => do
    let _ ← report.asDict P
    return report

/-- `inspect_validation_runtime`. -/
def inspectValidationRuntime (root : RuntimeRoot) : Except ReportException OperatorLifecycleReport := do
  let summary ← readRuntimeSummary I root
  match ← readRuntimeReport I root summary with
  | none => return { outcome := "inspected", reason := "runtime_marker_verified", runtime := some summary }
  | some fields => (storedReport P summary fields).mapError fun _ => .failure "runtime_report_invalid"

end Operator

end Switchboard
