import Switchboard.Spec.Repository
import Switchboard.Spec.Routing

/-!
# What a completion is checked against

The checks of `service.py` between a worker's report and the records it may change:
the evidence binding, the reuse identity, the reuse columns derived from a completion,
and the eligibility of a source run. They read the database and write nothing.
-/

namespace Switchboard

open Table Transaction

/-- `value or default` on optional text: the empty string is falsy. -/
def orText (value : Option String) (default : Option String) : Option String :=
  match value with
  | some s => if s = "" then default else some s
  | none => default

namespace Service

variable (P : Platform)

/-- `get_work_order`. -/
def requireWorkOrder (workOrderId : ℕ) (s : Database) : Except ExecutionError WorkOrder :=
  match Repository.getWorkOrder workOrderId s with
  | some o => .ok o
  | none => .error (.executionNotFound "work_order_not_found")

/-- `get_run`. -/
def requireRun (runId : ℕ) (s : Database) : Except ExecutionError ExecutionRun :=
  match Repository.getRun runId s with
  | some r => .ok r
  | none => .error (.executionNotFound "execution_run_not_found")

/-! ## The reuse identity -/

/-- `sorted` of strings. -/
def sortedTexts (texts : List String) : List String := texts.mergeSort fun a b => decide (a ≤ b)

/-- The comparison of `_validate_reuse_identity`. -/
def identityMatches (order : WorkOrder) (definition : TrustedManifest) (identity : ReuseIdentity) : Bool :=
  identity.repositoryFullName == order.spec.repositoryFullName &&
    identity.testedSha == order.spec.commitSha &&
    identity.manifestName == order.spec.manifestName &&
    identity.manifestVersion == order.spec.manifestVersion &&
    identity.manifestDigest == order.spec.manifestDigest &&
    identity.executionPolicyHash == order.spec.executionPolicyHash &&
    identity.resultContractHash == P.resultContractHash definition &&
    identity.dependencyLockHashes.map DependencyLockHash.relativePath == sortedTexts definition.dependencyLockPaths

/-- `_validate_reuse_identity`. -/
def validateReuseIdentity (order : WorkOrder) (identity : ReuseIdentity) : Except ExecutionError Unit :=
  match P.getTrustedManifest order.spec.manifestName order.spec.manifestVersion with
  | none => .error (.manifestIntegrity "trusted_manifest_not_found")
  | some definition =>
    ensure (identityMatches P order definition identity) (.lifecycleConflict "reuse_identity_work_order_mismatch")

/-! ## Evidence -/

/-- The comparison of `_validate_completion_evidence`. -/
def evidenceMatches (snapshot : LeaseSnapshot) (completion : ExecutionCompletion) (order : WorkOrder)
    (evidence : ExecutionEvidence) : Bool :=
  evidence.runId == snapshot.executionRunId &&
    evidence.workOrderId == snapshot.workOrderId &&
    evidence.workerId == snapshot.workerId &&
    evidence.repositoryFullName == order.spec.repositoryFullName &&
    evidence.testedSha == order.spec.commitSha &&
    evidence.manifestName == order.spec.manifestName &&
    evidence.manifestVersion == order.spec.manifestVersion &&
    evidence.manifestDigest == order.spec.manifestDigest &&
    evidence.terminalStatus.toRun == completion.status &&
    evidence.artifacts == completion.artifactMetadata

/-- `_validate_completion_evidence`. -/
def validateCompletionEvidence (snapshot : LeaseSnapshot) (completion : ExecutionCompletion) (s : Database) :
    Except ExecutionError Unit :=
  match completion.evidenceMetadata with
  | none => ensure completion.artifactMetadata.isEmpty (.lifecycleConflict "artifacts_require_execution_evidence")
  | some evidence => do
    let order ← requireWorkOrder snapshot.workOrderId s
    ensure (evidenceMatches snapshot completion order evidence)
      (.lifecycleConflict "execution_evidence_identity_mismatch")

/-! ## Reuse columns -/

/-- The decision of a completion, with the defaults of `_reuse_completion_values`. -/
def completionDecision (policy : ReusePolicy) (completion : ExecutionCompletion) : Option ReuseDecision :=
  match completion.reuseDecision with
  | some d => some d
  | none =>
    if policy = .never then some .fresh
    else if completion.status ≠ .succeeded ∧ completion.evidenceMetadata.isNone = true then some .unavailable
    else none

/-- The checks of a decision against the order's policy. -/
def checkDecision (policy : ReusePolicy) (status : ExecutionRunStatus) (decision : Option ReuseDecision) :
    Except ExecutionError ReuseDecision := do
  match decision with
  | some d =>
    ensure (d == .fresh || d == .reused || d == .unavailable)
      (.lifecycleConflict "invalid_reuse_completion_decision")
    ensure (!(policy == .requireExact && d == .fresh)) (.lifecycleConflict "require_exact_forbids_fresh_execution")
    ensure (!(d == .unavailable && policy == .never))
      (.lifecycleConflict "reuse_unavailable_requires_opt_in_policy")
    ensure (!(d == .unavailable && status == .succeeded)) (.lifecycleConflict "unavailable_reuse_must_not_succeed")
    return d
  | none => .error (.lifecycleConflict "invalid_reuse_completion_decision")

/-- The checks of the submitted or stored identity. -/
def checkIdentity (order : WorkOrder) (identity : Option ReuseIdentity) (identityHash : Option String) :
    Except ExecutionError Unit :=
  match identity with
  | none => .ok ()
  | some identity => do
    validateReuseIdentity P order identity
    ensure (identityHash == some (P.reuseIdentityHash identity)) (.lifecycleConflict "reuse_identity_hash_mismatch")

/-- The source of a `REUSED` completion, from the candidate held by the run. -/
def reuseSource (run : ExecutionRun) (decision : ReuseDecision) (identity : Option ReuseIdentity)
    (identityHash : Option String) : Except ExecutionError (Option ℕ × Option String) :=
  if decision = .reused then
    match run.reuse.candidateMetadata, identity with
    | some candidate, some identity => do
      ensure (candidate.reuseIdentity == identity && some candidate.reuseIdentityHash == identityHash)
        (.lifecycleConflict "verified_reuse_candidate_mismatch")
      return (some candidate.sourceRunId, some candidate.expectedSourceEvidenceFingerprint)
    | _, _ => .error (.lifecycleConflict "verified_reuse_candidate_missing")
  else .ok (none, none)

/-- Evidence of a `NEVER` order written before reuse existed. -/
def isLegacyNeverEvidence (order : WorkOrder) (completion : ExecutionCompletion) (identity : Option ReuseIdentity)
    (identityHash : Option String) : Bool :=
  order.spec.reusePolicy == .never &&
    (match completion.evidenceMetadata with
      | some evidence => evidence.reuseProvenance.isNone
      | none => false) &&
    identity.isNone && identityHash.isNone

/-- The provenance and retention checks on current evidence. -/
def checkProvenance (completion : ExecutionCompletion) (evidence : ExecutionEvidence) (decision : ReuseDecision)
    (identityHash : Option String) (source : Option ℕ × Option String) : Except ExecutionError Unit :=
  match evidence.reuseProvenance with
  | none => .error (.lifecycleConflict "execution_reuse_provenance_mismatch")
  | some provenance => do
    ensure (provenance.decision.toDecision == decision) (.lifecycleConflict "execution_reuse_provenance_mismatch")
    ensure (some provenance.reuseIdentityHash == identityHash) (.lifecycleConflict "execution_reuse_identity_mismatch")
    ensure (provenance.sourceRunId == source.1 && provenance.sourceEvidenceFingerprint == source.2)
      (.lifecycleConflict "execution_reuse_source_mismatch")
    match completion.evidenceRetentionExpiresAt with
    | none => .error (.lifecycleConflict "execution_evidence_retention_missing")
    | some retention =>
      ensure retention.isAware (.lifecycleConflict "execution_evidence_retention_missing")
      ensure (evidence.artifacts.all fun a => a.retentionExpiresAt == retention.utcNaive)
        (.lifecycleConflict "execution_evidence_retention_mismatch")

/-- The evidence half of `_reuse_completion_values`. -/
def checkEvidenceReuse (completion : ExecutionCompletion) (legacy : Bool) (decision : ReuseDecision)
    (identityHash : Option String) (source : Option ℕ × Option String) : Except ExecutionError Unit :=
  match completion.evidenceMetadata with
  | some evidence =>
    if legacy then
      ensure completion.evidenceRetentionExpiresAt.isNone
        (.lifecycleConflict "legacy_evidence_retention_is_unsupported")
    else checkProvenance completion evidence decision identityHash source
  | none =>
    ensure completion.evidenceRetentionExpiresAt.isNone
      (.lifecycleConflict "retention_requires_execution_evidence")

/-- `_reuse_completion_values` after its run and its order were read. -/
def reuseColumns (run : ExecutionRun) (order : WorkOrder) (completion : ExecutionCompletion) :
    Except ExecutionError RunReuse := do
  let decision ← checkDecision order.spec.reusePolicy completion.status
    (completionDecision order.spec.reusePolicy completion)
  let identity := completion.reuseIdentity.or run.reuse.identity
  let identityHash := orText completion.reuseIdentityHash run.reuse.identityHash
  checkIdentity P order identity identityHash
  let legacy := isLegacyNeverEvidence order completion identity identityHash
  ensure (!(completion.evidenceMetadata.isSome && identity.isNone && !legacy))
    (.lifecycleConflict "execution_evidence_requires_reuse_identity")
  let source ← reuseSource run decision identity identityHash
  checkEvidenceReuse completion legacy decision identityHash source
  return {
    identity := identity
    identityHash := identityHash
    reusedFromRunId := source.1
    sourceEvidenceFingerprint := source.2
    decision := decision
    reason := orText completion.reuseReason (some decision.value)
    candidateMetadata := none
    evidenceRetentionExpiresAt := completion.evidenceRetentionExpiresAt.map DateTime.stored }

/-- `_reuse_completion_values`: the reuse columns of the finished run. -/
def reuseCompletionValues (snapshot : LeaseSnapshot) (completion : ExecutionCompletion) (s : Database) :
    Except ExecutionError RunReuse := do
  let run ← requireRun snapshot.executionRunId s
  let order ← requireWorkOrder snapshot.workOrderId s
  reuseColumns P run order completion

/-! ## Source runs -/

/-- The bounds and the validator of the `ReuseCandidate` contract. -/
def validCandidate (c : ReuseCandidate) : Bool :=
  decide (1 ≤ c.sourceRunId ∧ c.sourceRunId ≤ 9223372036854775807) &&
    decide (1 ≤ c.expectedSourceWorkerId.length ∧ c.expectedSourceWorkerId.length ≤ 128) &&
    decide (c.sourceCreatedAt < c.retentionExpiresAt) &&
    c.reuseIdentityHash == P.reuseIdentityHash c.reuseIdentity &&
    decide ((c.artifacts.map ArtifactRecord.relativePath).Nodup) &&
    c.artifacts.all fun a => a.retentionExpiresAt == c.retentionExpiresAt

/-- The disjunction of `_validated_reuse_candidate`, negated: every check passes. -/
def eligibleSource (sourceRun : ExecutionRun) (sourceOrder : WorkOrder) (worker : Worker)
    (evidence : ExecutionEvidence) (stored expected : ReuseIdentity) (retention now : Time)
    (provenance : ReuseProvenance) : Bool :=
  decide (sourceOrder.spec.repositoryFullName ∈ servedRepositories worker.declaration) &&
    sourceOrder.status == .succeeded && sourceOrder.finishedAt.isSome &&
    sourceRun.status == .succeeded && sourceRun.reuse.decision == .fresh &&
    sourceRun.reuse.reusedFromRunId.isNone && sourceRun.reuse.sourceEvidenceFingerprint.isNone &&
    sourceRun.reuse.candidateMetadata.isNone && decide (now < retention) &&
    stored == expected && sourceRun.reuse.identityHash == some (P.reuseIdentityHash stored) &&
    evidence.fingerprint != "" && evidence.runId == sourceRun.id &&
    evidence.workOrderId == sourceOrder.id && evidence.workerId == sourceRun.workerId &&
    evidence.terminalStatus == .succeeded && evidence.artifacts == sourceRun.artifactMetadata &&
    (sourceRun.artifactMetadata.all fun a => a.retentionExpiresAt == retention) &&
    provenance.decision == .fresh && provenance.sourceRunId.isNone &&
    provenance.sourceEvidenceFingerprint.isNone &&
    some provenance.reuseIdentityHash == sourceRun.reuse.identityHash &&
    stored.repositoryFullName == evidence.repositoryFullName && stored.testedSha == evidence.testedSha &&
    stored.manifestName == evidence.manifestName && stored.manifestVersion == evidence.manifestVersion &&
    stored.manifestDigest == evidence.manifestDigest &&
    stored.workerEnvironmentFingerprint == evidence.environmentFingerprint &&
    stored.dependencyLockHashes == evidence.dependencyLockHashes

/-- `_validated_reuse_candidate`. -/
def validatedReuseCandidate (sourceRun : ExecutionRun) (sourceOrder : WorkOrder) (expected : ReuseIdentity)
    (now : Time) (s : Database) : Option ReuseCandidate := do
  let evidence ← sourceRun.evidenceMetadata
  let stored ← sourceRun.reuse.identity
  let retention ← sourceRun.reuse.evidenceRetentionExpiresAt
  let _ ← sourceRun.finishedAt
  let worker ← Repository.getWorker sourceRun.workerId s
  let provenance ← evidence.reuseProvenance
  let identityHash ← sourceRun.reuse.identityHash
  guard (eligibleSource P sourceRun sourceOrder worker evidence stored expected retention now provenance = true)
  let candidate : ReuseCandidate :=
    { sourceRunId := sourceRun.id, expectedSourceWorkerId := sourceRun.workerId
      expectedSourceEvidenceFingerprint := evidence.fingerprint, reuseIdentity := stored
      reuseIdentityHash := identityHash, sourceCreatedAt := evidence.startedAt
      retentionExpiresAt := retention, artifacts := sourceRun.artifactMetadata }
  guard (validCandidate P candidate = true)
  return candidate

end Service

end Switchboard
