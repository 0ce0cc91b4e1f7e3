import Switchboard.Lib.Table
import Switchboard.Spec.Evidence
import Switchboard.Spec.Json

/-!
# The execution plane's records

The rows of `models.py` that the execution service reads or writes, the commands of
`entities.py`, the trusted definitions of `registry.py` and `catalog.py`, and the
database that holds the rows.

A work order's creation-time columns, which no statement ever updates, are grouped in
`WorkOrderSpec`; the `route_*` and `reuse_*` columns in `OrderRoute`, `RunRoute` and
`RunReuse`. `created_at` and `updated_at` are written and never read, and are left out.

Ids are generated as SQLite does for an `INTEGER PRIMARY KEY`: one above the largest
id present (`Table.nextId`). Run and order ids are therefore never reused; the id of
a deleted lease can be.
-/

namespace Switchboard

open Table

/-! ## Trusted definitions -/

/-- The metadata of a trusted manifest that is persisted and shown to workers. -/
structure ManifestMetadata where
  name : String
  version : String
  schemaVersion : ℤ
  description : String
  registrySource : String
  requiredCapabilities : List (String × Json)
  fixedStepMetadata : List Json
  environmentPolicy : List (String × Json)
  networkPolicy : NetworkPolicy
  repositoryWritePolicy : RepositoryWritePolicy
  timeoutSeconds : ℤ
  artifactDeclarations : List Json

/-- `_matches_trusted_manifest`, and the comparison that the worker makes, without the digest. -/
def ManifestMetadata.matches (a b : ManifestMetadata) : Bool :=
  a.name == b.name && a.version == b.version && a.schemaVersion == b.schemaVersion &&
    a.description == b.description && a.registrySource == b.registrySource &&
    sameMapping a.requiredCapabilities b.requiredCapabilities && sameItems a.fixedStepMetadata b.fixedStepMetadata &&
    sameMapping a.environmentPolicy b.environmentPolicy && a.networkPolicy == b.networkPolicy &&
    a.repositoryWritePolicy == b.repositoryWritePolicy && a.timeoutSeconds == b.timeoutSeconds &&
    sameItems a.artifactDeclarations b.artifactDeclarations

instance : BEq ManifestMetadata := ⟨ManifestMetadata.matches⟩

theorem ManifestMetadata.matches_refl (a : ManifestMetadata) : (a == a) = true := by
  show ManifestMetadata.matches a a = true
  simp [ManifestMetadata.matches]

structure TrustedArtifact where
  kind : String
  relativePath : String
  mediaType : String
  redacted : Bool
  deriving DecidableEq, Repr

/-- One reviewed fixed-argv step. -/
structure TrustedStep where
  id : String
  title : String
  argv : List String
  required : Bool
  timeoutSeconds : ℤ
  outputSummaryLimit : ℕ := 4096
  workingDirectory : String := "."
  environment : List (String × String) := []
  capabilityCondition : Option (List (String × Json)) := none
  diagnosticOnly : Bool := false
  parserKind : Option String := none
  artifacts : List TrustedArtifact := []

structure TrustedManifest where
  metadata : ManifestMetadata
  allowedParameters : List String
  executionSteps : List TrustedStep
  dependencyLockPaths : List String
  resultContract : Option Json

structure TrustedRepository where
  fullName : String
  manifests : List (String × String)

/-! ## Commands -/

/-- `WorkOrderDraft`. -/
structure WorkOrderDraft where
  schemaVersion : ℤ
  repositoryFullName : String
  commitSha : String
  manifestName : String
  manifestVersion : String
  manifestParameters : List (String × Json)
  requiredCapabilities : List (String × Json)
  permittedPaths : List String
  forbiddenScopeNotes : String
  expectedArtifactKinds : List String
  approvalPolicy : ApprovalPolicy
  timeoutSeconds : ℤ
  resourceMetadata : List (String × Json)
  networkPolicy : NetworkPolicy
  repositoryWriteAllowed : Bool
  preferredExecutor : Option String
  costCeiling : Option FloatText
  reusePolicy : ReusePolicy
  routingPolicy : RoutingPolicy
  maximumCostUnits : Option ℤ
  requiredQuotaUnits : ℤ

/-- What a worker declares about itself. -/
structure WorkerDeclaration where
  displayName : String
  operatingSystem : String
  architecture : String
  pythonVersion : Option String
  nodeVersion : Option String
  pnpmVersion : Option String
  dockerAvailable : Bool
  browsers : List String
  gpuAvailable : Bool
  unityAvailable : Bool
  desktopAvailable : Bool
  capabilities : List (String × Json)
  repositoryFullNames : List String
  networkPolicyCapability : NetworkPolicy
  repositoryWriteCapability : Bool

/-- `WorkerRegistration`. -/
structure WorkerRegistration where
  workerId : String
  declaration : WorkerDeclaration
  maxConcurrency : ℤ
  status : WorkerStatus

/-- The values shared by `RoutingProfileDraft` and `RoutingProfileReplacement`. -/
structure RoutingProfileValues where
  enabled : Bool
  estimatedCostUnitsPerRun : ℤ
  quotaCapacityUnits : ℤ
  quotaRemainingUnits : ℤ
  quotaResetAt : Option DateTime
  routingPriority : ℤ

structure RoutingProfileDraft where
  schemaVersion : ℤ
  workerId : String
  values : RoutingProfileValues

structure RoutingProfileReplacement where
  expectedRevision : ℤ
  values : RoutingProfileValues

structure RoutingQuotaReset where
  expectedRevision : ℤ
  quotaRemainingUnits : ℤ
  quotaResetAt : DateTime

/-! ## Rows -/

/-- `CommandManifest`: the persisted snapshot of a trusted manifest. -/
structure CommandManifest where
  id : ℕ
  metadata : ManifestMetadata
  digest : String

/-- The columns of a work order that creation fixes. -/
structure WorkOrderSpec where
  schemaVersion : ℤ
  repositoryFullName : String
  commitSha : String
  manifestId : ℕ
  manifestName : String
  manifestVersion : String
  manifestDigest : String
  manifestParameters : List (String × Json)
  requiredCapabilities : List (String × Json)
  permittedPaths : List String
  forbiddenScopeNotes : String
  expectedArtifactKinds : List String
  approvalPolicy : ApprovalPolicy
  timeoutSeconds : ℤ
  resourceMetadata : List (String × Json)
  networkPolicy : NetworkPolicy
  repositoryWriteAllowed : Bool
  preferredExecutor : Option String
  costCeiling : Option FloatText
  routingPolicy : RoutingPolicy
  maximumCostUnits : Option ℤ
  requiredQuotaUnits : ℤ
  reusePolicy : ReusePolicy
  executionPolicyHash : String

/-- The `route_*` columns of a work order. -/
structure OrderRoute where
  schemaVersion : Option ℤ := none
  selectedWorkerId : Option String := none
  profileRevision : Option ℤ := none
  estimatedCostUnits : Option ℤ := none
  reservedQuotaUnits : ℤ := 0
  quotaState : Option QuotaReservationState := none
  eligibleCandidateCount : Option ℕ := none
  explicitPinApplied : Bool := false
  reason : Option String := none
  decidedAt : Option Time := none

/-- `ExecutionWorkOrder`. -/
structure WorkOrder where
  id : ℕ
  spec : WorkOrderSpec
  status : WorkOrderStatus
  attemptCount : ℕ
  approvedAt : Option Time
  queuedAt : Option Time
  assignedAt : Option Time
  startedAt : Option Time
  finishedAt : Option Time
  terminalReason : Option String
  route : OrderRoute

/-- `ExecutionWorker`. -/
structure Worker where
  workerId : String
  declaration : WorkerDeclaration
  maxConcurrency : ℤ
  activeRunCount : ℤ
  status : WorkerStatus
  lastHeartbeatAt : Time
  lastCheckoutPollAt : Option Time

/-- `WorkerRoutingProfile`. -/
structure RoutingProfile where
  workerId : String
  schemaVersion : ℤ
  enabled : Bool
  estimatedCostUnitsPerRun : ℤ
  quotaCapacityUnits : ℤ
  quotaRemainingUnits : ℤ
  quotaResetAt : Option Time
  routingPriority : ℤ
  revision : ℤ
  deriving DecidableEq

/-- The `route_*` columns of a run. -/
structure RunRoute where
  schemaVersion : ℤ
  routingPolicy : RoutingPolicy
  profileRevision : Option ℤ
  estimatedCostUnits : Option ℤ
  requiredQuotaUnits : ℤ
  reservedQuotaUnits : ℤ
  quotaState : QuotaReservationState
  eligibleCandidateCount : ℕ
  explicitPinApplied : Bool
  reason : String
  decidedAt : Time

/-- The reuse columns of a run. -/
structure RunReuse where
  identity : Option ReuseIdentity := none
  identityHash : Option String := none
  reusedFromRunId : Option ℕ := none
  sourceEvidenceFingerprint : Option String := none
  decision : ReuseDecision
  reason : Option String
  candidateMetadata : Option ReuseCandidate := none
  evidenceRetentionExpiresAt : Option Time := none

/-- `ExecutionRun`. Absent evidence (`{}`) is `none`. -/
structure ExecutionRun where
  id : ℕ
  workOrderId : ℕ
  workerId : String
  attemptNumber : ℕ
  status : ExecutionRunStatus
  queuedAt : Time
  assignedAt : Time
  startedAt : Option Time
  finishedAt : Option Time
  leaseExpiresAt : Time
  lastHeartbeatAt : Time
  resultSummary : Option String
  terminalReason : Option String
  cleanupStatus : Option String
  artifactMetadata : List ArtifactRecord
  evidenceMetadata : Option ExecutionEvidence
  reuse : RunReuse
  route : RunRoute

/-- `ExecutionLease`. -/
structure Lease where
  id : ℕ
  workOrderId : ℕ
  executionRunId : ℕ
  workerId : String
  expiresAt : Time
  lastHeartbeatAt : Time
  deriving DecidableEq

/-- `LeaseSnapshot`: the identifiers a call keeps while it consumes a lease. -/
structure LeaseSnapshot where
  id : ℕ
  workOrderId : ℕ
  executionRunId : ℕ
  workerId : String
  deriving DecidableEq

def Lease.snapshot (l : Lease) : LeaseSnapshot := ⟨l.id, l.workOrderId, l.executionRunId, l.workerId⟩

instance : Keyed CommandManifest ℕ := ⟨CommandManifest.id⟩
instance : Keyed WorkOrder ℕ := ⟨WorkOrder.id⟩
instance : Keyed Worker String := ⟨Worker.workerId⟩
instance : Keyed RoutingProfile String := ⟨RoutingProfile.workerId⟩
instance : Keyed ExecutionRun ℕ := ⟨ExecutionRun.id⟩
instance : Keyed Lease ℕ := ⟨Lease.id⟩

@[simp] theorem key_order (o : WorkOrder) : key o = o.id := rfl
@[simp] theorem key_worker (w : Worker) : key w = w.workerId := rfl
@[simp] theorem key_profile (p : RoutingProfile) : key p = p.workerId := rfl
@[simp] theorem key_run (r : ExecutionRun) : key r = r.id := rfl
@[simp] theorem key_lease (l : Lease) : key l = l.id := rfl

/-- The tables of the execution plane. -/
structure Database where
  manifests : List CommandManifest
  orders : List WorkOrder
  workers : List Worker
  profiles : List RoutingProfile
  runs : List ExecutionRun
  leases : List Lease

/-- The empty database. -/
def Database.init : Database := ⟨[], [], [], [], [], []⟩

/-! ## The deployment -/

/-- What the service takes from its deployment: the version-controlled registry and
catalog, the SHA-256 identities over canonical JSON, and Python's Unicode tables. -/
structure Platform where
  /-- `iter_trusted_manifests()`. -/
  manifests : List TrustedManifest
  /-- `iter_trusted_repositories()`. -/
  repositories : List TrustedRepository
  /-- `TrustedManifest.digest`. -/
  manifestDigest : TrustedManifest → String
  /-- `compute_execution_policy_hash`. -/
  executionPolicyHash : WorkOrderDraft → String
  /-- `compute_reuse_identity_hash`. -/
  reuseIdentityHash : ReuseIdentity → String
  /-- `compute_result_contract_hash` of a manifest's declarations. -/
  resultContractHash : TrustedManifest → String
  /-- `str.lower`. -/
  lower : String → String
  /-- The value of a Unicode decimal digit, as `\d` and `int` read it. -/
  digit : Char → Option ℕ

namespace Platform

variable (P : Platform)

/-- `get_trusted_manifest`. -/
def getTrustedManifest (name version : String) : Option TrustedManifest :=
  P.manifests.find? fun m => m.metadata.name == name && m.metadata.version == version

/-- Membership in `TRUSTED_REPOSITORIES`. -/
def trustsRepository (fullName : String) : Bool := P.repositories.any fun r => r.fullName == fullName

/-- `repository_allows_manifest`. -/
def repositoryAllowsManifest (fullName name version : String) : Bool :=
  match P.repositories.find? fun r => r.fullName == fullName with
  | some r => decide ((name, version) ∈ r.manifests)
  | none => false

end Platform

/-! ## Exceptions -/

/-- The exceptions an operation can raise, each with its message. -/
inductive ExecutionError
  | executionNotFound (detail : String)
  | lifecycleConflict (detail : String)
  | approvalDenied (detail : String)
  | unknownManifest (detail : String)
  | manifestIntegrity (detail : String)
  | manifestParameter (detail : String)
  | repositoryWritePolicy (detail : String)
  | ownershipConflict (detail : String)
  /-- SQLAlchemy's `IntegrityError`. -/
  | integrity
  /-- The internal signal that rolls back one nested checkout attempt. -/
  | checkoutReservationConflict (detail : String)
  /-- Any other exception of the database driver. -/
  | database
  /-- A `ValueError` that is not an execution-domain error. -/
  | valueError (detail : String)
  /-- An asynchronous function that ran off the end of a generator. -/
  | runtimeError (detail : String)
  deriving DecidableEq, Repr

end Switchboard
