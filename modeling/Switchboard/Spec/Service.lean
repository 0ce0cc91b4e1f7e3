import Switchboard.Spec.Completion

/-!
# The execution service

The operations of `service.py` that change the execution plane, each one transaction:
it commits whole, or rolls back when it raises.

A call brings its environment: the successive readings of the clock, the configured
lease and freshness windows, and the database faults that hit the statements of a
nested claim. A fault anywhere else rolls the whole operation back.

* `step`: one call.
* `runCalls`: the session after a finite sequence of calls, from the empty database.
-/

namespace Switchboard

open Table Transaction

/-- The guarded statements of one nested claim. -/
inductive ClaimStatement
  | reserveWorkerCapacity | reserveRoutingQuota | claimQueuedWorkOrder | insertRun | insertLease
  deriving DecidableEq, Repr

inductive DatabaseFault
  | integrity | other
  deriving DecidableEq, Repr

def DatabaseFault.error : DatabaseFault → ExecutionError
  | .integrity => .integrity
  | .other => .database

/-- The environment of one call. -/
structure Env where
  /-- Successive readings of the service clock. -/
  clock : ℕ → Time
  leaseSeconds : ℤ
  heartbeatFreshnessSeconds : ℤ
  activePollFreshnessSeconds : ℤ
  /-- The fault that the claim of the `n`-th candidate meets at a statement. -/
  fault : ℕ → ClaimStatement → Option DatabaseFault

structure CheckoutResult where
  runId : Option ℕ
  workOrderId : Option ℕ
  reason : Option String
  mismatchReasons : List String := []

structure ExpiryResult where
  requeuedWorkOrderIds : List ℕ
  timedOutRunIds : List ℕ

structure ReuseCandidateResult where
  decision : ReuseDecision
  reason : String
  candidate : Option ReuseCandidate

structure RouteAssessment where
  schemaVersion : ℤ
  workOrderId : ℕ
  routingPolicy : RoutingPolicy
  selectedWorkerId : Option String
  selectedRoutingProfileRevision : Option ℤ
  estimatedCostUnits : Option ℤ
  requiredQuotaUnits : ℤ
  reservedQuotaUnits : ℤ
  quotaReservationState : QuotaReservationState
  eligibleCandidateCount : ℕ
  explicitPinApplied : Bool
  reason : String
  decisionTimestamp : Time

namespace Service

variable (P : Platform) (env : Env)

/-- `sync_trusted_manifests`. -/
def syncTrustedManifests : Tx Unit :=
  Repository.ensureManifests (P.manifests.map fun m => (m.metadata, P.manifestDigest m))

/-! ## Work orders -/

def isHexDigit (c : Char) : Bool :=
  ('0' ≤ c && c ≤ '9') || ('a' ≤ c && c ≤ 'f') || ('A' ≤ c && c ≤ 'F')

/-- `_SHA_PATTERN.fullmatch`. -/
def isExactSha (sha : String) : Bool := sha.length == 40 && sha.toList.all isHexDigit

def routingIntegerInBounds (n : ℤ) : Bool := decide (0 ≤ n ∧ n ≤ maxRoutingInteger)

/-- `_validate_work_order_draft`. -/
def validateWorkOrderDraft (draft : WorkOrderDraft) : Except ExecutionError Unit := do
  ensure (draft.schemaVersion == 1) (.lifecycleConflict "unsupported_work_order_schema_version")
  ensure (isExactSha draft.commitSha) (.lifecycleConflict "commit_sha_must_be_exact_40_character_hex")
  ensure (!draft.repositoryWriteAllowed) (.repositoryWritePolicy "repository_write_must_be_false")
  ensure
    (match lookup draft.requiredCapabilities "repository_write" with
      | none => true
      | some (.bool b) => !b
      | some _ => false)
    (.repositoryWritePolicy "repository_write_capability_not_permitted")
  ensure (routingIntegerInBounds draft.requiredQuotaUnits && draft.maximumCostUnits.all routingIntegerInBounds)
    (.lifecycleConflict "routing_integer_out_of_bounds")

/-- The parameters of the draft that the manifest does not allow, sorted. -/
def unsupportedParameters (draft : WorkOrderDraft) (definition : TrustedManifest) : List String :=
  sortedTexts ((draft.manifestParameters.map Prod.fst).filter fun name =>
    decide (name ∉ definition.allowedParameters))

/-- The columns that creation fixes. -/
def workOrderSpec (draft : WorkOrderDraft) (manifest : CommandManifest) : WorkOrderSpec :=
  { schemaVersion := draft.schemaVersion
    repositoryFullName := draft.repositoryFullName
    commitSha := P.lower draft.commitSha
    manifestId := manifest.id
    manifestName := manifest.metadata.name
    manifestVersion := manifest.metadata.version
    manifestDigest := manifest.digest
    manifestParameters := draft.manifestParameters
    requiredCapabilities := draft.requiredCapabilities
    permittedPaths := draft.permittedPaths
    forbiddenScopeNotes := draft.forbiddenScopeNotes
    expectedArtifactKinds := draft.expectedArtifactKinds
    approvalPolicy := draft.approvalPolicy
    timeoutSeconds := draft.timeoutSeconds
    resourceMetadata := draft.resourceMetadata
    networkPolicy := draft.networkPolicy
    repositoryWriteAllowed := false
    preferredExecutor := draft.preferredExecutor
    costCeiling := draft.costCeiling
    routingPolicy := draft.routingPolicy
    maximumCostUnits := draft.maximumCostUnits
    requiredQuotaUnits := draft.requiredQuotaUnits
    reusePolicy := draft.reusePolicy
    executionPolicyHash := P.executionPolicyHash draft }

/-- `create_work_order`. -/
def createWorkOrder (draft : WorkOrderDraft) : Tx WorkOrder := do
  query fun _ => validateWorkOrderDraft draft
  require (P.trustsRepository draft.repositoryFullName) (.unknownManifest "trusted_repository_not_found")
  let definition ← requireSome (P.getTrustedManifest draft.manifestName draft.manifestVersion)
    (.unknownManifest "trusted_manifest_not_found")
  require (P.repositoryAllowsManifest draft.repositoryFullName draft.manifestName draft.manifestVersion)
    (.unknownManifest "repository_manifest_not_allowed")
  let unsupported := unsupportedParameters draft definition
  require unsupported.isEmpty
    (.manifestParameter ("unsupported_manifest_parameters:" ++ ",".intercalate unsupported))
  let preferred ← read fun s => draft.preferredExecutor.all fun w => (Repository.getWorker w s).isSome
  require preferred (.executionNotFound "preferred_executor_not_found")
  let manifest ← Repository.ensureManifest definition.metadata (P.manifestDigest definition)
  exec (Repository.createWorkOrder (workOrderSpec P draft manifest))

/-- `_ensure_approvable`. The only approval policy is the explicit one. -/
def ensureApprovable (order : WorkOrder) : Except ExecutionError Unit := do
  ensure (P.trustsRepository order.spec.repositoryFullName) (.approvalDenied "repository_not_allowlisted")
  ensure (!order.spec.repositoryWriteAllowed) (.approvalDenied "repository_write_not_permitted")
  match P.getTrustedManifest order.spec.manifestName order.spec.manifestVersion with
  | none => .error (.approvalDenied "trusted_manifest_not_found")
  | some definition =>
    ensure (P.repositoryAllowsManifest order.spec.repositoryFullName order.spec.manifestName
      order.spec.manifestVersion) (.approvalDenied "repository_manifest_not_allowed")
    ensure (P.manifestDigest definition == order.spec.manifestDigest)
      (.manifestIntegrity "trusted_manifest_digest_conflict")

/-- The guarded transition that approval, queueing, rejection, expiry and the cancellation of
an unleased order share. -/
def transitionUnleased (workOrderId : ℕ) (currentStatuses : List WorkOrderStatus)
    (values : WorkOrder → WorkOrder) (conflict : String) : Tx WorkOrder := do
  let updated ← exec (Repository.transitionUnleasedWorkOrder workOrderId currentStatuses values)
  require updated (.lifecycleConflict conflict)
  query (requireWorkOrder workOrderId)

/-- `approve_work_order`. -/
def approveWorkOrder (workOrderId : ℕ) (queue : Bool) : Tx WorkOrder := do
  let order ← query (requireWorkOrder workOrderId)
  require (order.status == .pendingApproval) (.lifecycleConflict "work_order_not_pending_approval")
  query fun _ => ensureApprovable P order
  let now := env.clock 0
  transitionUnleased order.id [.pendingApproval]
    (fun o =>
      { o with
        status := if queue then .queued else .approved
        approvedAt := some now
        queuedAt := if queue then some now else none })
    "work_order_not_pending_approval"

/-- `queue_work_order`. -/
def queueWorkOrder (workOrderId : ℕ) : Tx WorkOrder := do
  let order ← query (requireWorkOrder workOrderId)
  transitionUnleased order.id [.approved]
    (fun o => { o with status := .queued, queuedAt := some (env.clock 0) }) "invalid_work_order_transition"

/-- `reject_work_order`. -/
def rejectWorkOrder (workOrderId : ℕ) (reason : Option String) : Tx WorkOrder := do
  let order ← query (requireWorkOrder workOrderId)
  transitionUnleased order.id [.pendingApproval]
    (fun o =>
      { o with
        status := .rejected, finishedAt := some (env.clock 0)
        terminalReason := orText reason (some "rejected_by_operator") })
    "invalid_work_order_transition"

/-- `expire_work_order`. -/
def expireWorkOrder (workOrderId : ℕ) (reason : Option String) : Tx WorkOrder := do
  let order ← query (requireWorkOrder workOrderId)
  transitionUnleased order.id [.approved, .queued]
    (fun o =>
      { o with
        status := .expired, finishedAt := some (env.clock 0)
        terminalReason := orText reason (some "expired_by_operator") })
    "invalid_work_order_transition"

/-! ## Finishing a lease -/

/-- The columns that a completion leaves on its run. -/
def finishedRun (completion : ExecutionCompletion) (reuse : RunReuse) (now : Time) (r : ExecutionRun) :
    ExecutionRun :=
  { r with
    status := completion.status, finishedAt := some now, lastHeartbeatAt := now
    resultSummary := completion.resultSummary
    terminalReason := orText completion.terminalReason (some completion.status.value)
    cleanupStatus := completion.cleanupStatus
    artifactMetadata := completion.artifactMetadata
    evidenceMetadata := completion.evidenceMetadata
    reuse := reuse }

/-- The nested block of `_finish_active_lease` and of one turn of `expire_stale_leases` after
the lease is consumed: release the quota, move the run and the order, release the slot. -/
def settleConsumedLease (snapshot : LeaseSnapshot) (moveRun moveOrder : Statement) (conflict : String) :
    Tx Unit := do
  let quotaReleased ← Repository.releaseRunQuotaReservation snapshot.executionRunId snapshot.workOrderId
    snapshot.workerId
  let runUpdated ← exec moveRun
  let workOrderUpdated ← exec moveOrder
  let released ← exec (Repository.releaseWorkerCapacity snapshot.workerId)
  require (quotaReleased && runUpdated && workOrderUpdated && released) (.lifecycleConflict conflict)

/-- `_finish_active_lease`; `n` is the number of clock readings before it. -/
def finishActiveLease (snapshot : LeaseSnapshot) (completion : ExecutionCompletion)
    (requireLive ownershipError : Bool) (n : ℕ) : Tx ExecutionRun := do
  query (validateCompletionEvidence snapshot completion)
  let reuse ← query (reuseCompletionValues P snapshot completion)
  let now := env.clock n
  let consumed ← exec (Repository.consumeLease snapshot now (if requireLive then .live else .any))
  require consumed
    (if ownershipError then .ownershipConflict "execution_lease_not_owned"
      else .lifecycleConflict "execution_lease_transition_in_progress")
  settleConsumedLease snapshot
    (Repository.finishActiveRun snapshot.executionRunId (finishedRun completion reuse now))
    (Repository.finishActiveWorkOrder snapshot.workOrderId completion.status.toWorkOrder now
      ((orText completion.terminalReason none).getD completion.status.value))
    "execution_record_transition_in_progress"
  query (requireRun snapshot.executionRunId)

/-- The completion with which an operator cancels a leased order. -/
def cancellation (terminalReason : String) : ExecutionCompletion :=
  { status := .cancelled, terminalReason := some terminalReason
    cleanupStatus := some "cancelled_by_control_plane" }

/-- `cancel_work_order`. -/
def cancelWorkOrder (workOrderId : ℕ) (reason : Option String) : Tx WorkOrder := do
  let order ← query (requireWorkOrder workOrderId)
  let now := env.clock 0
  let terminalReason := (orText reason none).getD "cancelled_by_operator"
  if order.status ∈ [WorkOrderStatus.pendingApproval, .approved, .queued] then
    transitionUnleased order.id [.pendingApproval, .approved, .queued]
      (fun o => { o with status := .cancelled, finishedAt := some now, terminalReason := some terminalReason })
      "work_order_transition_in_progress"
  else
    require (!order.status.isTerminal) (.lifecycleConflict "work_order_is_terminal")
    let snapshot ← read (Repository.getLeaseSnapshotForWorkOrder order.id)
    let snapshot ← requireSome snapshot (.lifecycleConflict "execution_lease_transition_in_progress")
    let _ ← finishActiveLease P env snapshot (cancellation terminalReason) false false 1
    query (requireWorkOrder order.id)

/-- `complete_run`. -/
def completeRun (runId : ℕ) (workerId : String) (completion : ExecutionCompletion) : Tx ExecutionRun := do
  require completion.status.isTerminal (.lifecycleConflict "execution_completion_must_be_terminal")
  let _ ← query (requireRun runId)
  let snapshot ← read (Repository.getLeaseSnapshotForRun runId)
  let snapshot ← requireSome snapshot (.ownershipConflict "execution_lease_not_owned")
  require (snapshot.workerId == workerId) (.ownershipConflict "execution_lease_not_owned")
  finishActiveLease P env snapshot completion true true 0

/-! ## Stale leases -/

/-- One turn of the loop of `expire_stale_leases`: whether the lease was consumed. -/
def expireStaleLease (now : Time) (snapshot : LeaseSnapshot) : Tx Bool := do
  let consumed ← exec (Repository.consumeLease snapshot now .stale)
  if consumed then
    settleConsumedLease snapshot (Repository.requeueStaleActiveRun snapshot.executionRunId now)
      (Repository.requeueStaleActiveWorkOrder snapshot.workOrderId now) "stale_lease_state_conflict"
    return true
  else return false

/-- The loop of `expire_stale_leases`. -/
def expireLoop (now : Time) : List LeaseSnapshot → Tx ExpiryResult
  | [] => return ⟨[], []⟩
  | snapshot :: rest => do
    let expired ← expireStaleLease now snapshot
    let result ← expireLoop now rest
    return if expired then ⟨snapshot.workOrderId :: result.requeuedWorkOrderIds,
      snapshot.executionRunId :: result.timedOutRunIds⟩ else result

/-- `expire_stale_leases`. -/
def expireStaleLeases (now : Time) : Tx ExpiryResult := do
  let snapshots ← read (Repository.listStaleLeaseSnapshots now)
  expireLoop now snapshots

/-- `requeue_stale_work_order`. -/
def requeueStaleWorkOrder (workOrderId : ℕ) : Tx WorkOrder := do
  let result ← expireStaleLeases (env.clock 0)
  require (decide (workOrderId ∈ result.requeuedWorkOrderIds)) (.lifecycleConflict "work_order_could_not_be_requeued")
  query (requireWorkOrder workOrderId)

/-! ## Workers -/

/-- `register_worker`. -/
def registerWorker (registration : WorkerRegistration) : Tx Unit := do
  require (!registration.declaration.repositoryWriteCapability)
    (.repositoryWritePolicy "repository_write_capability_must_be_false")
  Repository.upsertWorker
    { registration with
      declaration :=
        { registration.declaration with
          operatingSystem := P.lower registration.declaration.operatingSystem
          architecture := P.lower registration.declaration.architecture
          repositoryWriteCapability := false } }
    (env.clock 0)

/-- `heartbeat_worker`. -/
def heartbeatWorker (workerId : String) (status : Option WorkerStatus) : Tx Unit := do
  let worker ← read (Repository.getWorker workerId)
  require worker.isSome (.executionNotFound "worker_not_found")
  let _ ← exec (Repository.updateWorkerHeartbeat workerId (env.clock 0) status)

/-! ## Routing profiles -/

/-- The columns that `_routing_profile_values` derives from operator input. -/
structure ProfileColumns where
  enabled : Bool
  estimatedCostUnitsPerRun : ℤ
  quotaCapacityUnits : ℤ
  quotaRemainingUnits : ℤ
  quotaResetAt : Option Time
  routingPriority : ℤ

/-- `_routing_profile_values`, without the part for drafts. -/
def routingProfileValues (values : RoutingProfileValues) : Except ExecutionError ProfileColumns := do
  ensure (routingIntegerInBounds values.estimatedCostUnitsPerRun &&
      routingIntegerInBounds values.quotaCapacityUnits && routingIntegerInBounds values.quotaRemainingUnits &&
      routingIntegerInBounds values.routingPriority)
    (.lifecycleConflict "routing_profile_integer_out_of_bounds")
  ensure (decide (values.quotaRemainingUnits ≤ values.quotaCapacityUnits))
    (.lifecycleConflict "routing_quota_exceeds_capacity")
  ensure (values.quotaResetAt.all DateTime.isAware) (.lifecycleConflict "routing_quota_reset_must_be_aware")
  return {
    enabled := values.enabled
    estimatedCostUnitsPerRun := values.estimatedCostUnitsPerRun
    quotaCapacityUnits := values.quotaCapacityUnits
    quotaRemainingUnits := values.quotaRemainingUnits
    quotaResetAt := values.quotaResetAt.map DateTime.utcNaive
    routingPriority := values.routingPriority }

/-- The row of a new profile. -/
def newProfile (draft : RoutingProfileDraft) (c : ProfileColumns) : RoutingProfile :=
  { workerId := draft.workerId, schemaVersion := draft.schemaVersion, enabled := c.enabled
    estimatedCostUnitsPerRun := c.estimatedCostUnitsPerRun, quotaCapacityUnits := c.quotaCapacityUnits
    quotaRemainingUnits := c.quotaRemainingUnits, quotaResetAt := c.quotaResetAt
    routingPriority := c.routingPriority, revision := 1 }

/-- The replaced columns of a profile. -/
def replacedProfile (c : ProfileColumns) (p : RoutingProfile) : RoutingProfile :=
  { p with
    enabled := c.enabled, estimatedCostUnitsPerRun := c.estimatedCostUnitsPerRun
    quotaCapacityUnits := c.quotaCapacityUnits, quotaRemainingUnits := c.quotaRemainingUnits
    quotaResetAt := c.quotaResetAt, routingPriority := c.routingPriority }

/-- `create_routing_profile`. -/
def createRoutingProfile (draft : RoutingProfileDraft) : Tx Unit := do
  let worker ← read (Repository.getWorker draft.workerId)
  require worker.isSome (.executionNotFound "worker_not_found")
  let existing ← read (Repository.getRoutingProfile draft.workerId)
  require existing.isNone (.lifecycleConflict "routing_profile_already_exists")
  let columns ← query fun _ => routingProfileValues draft.values
  require (draft.schemaVersion == routingSchemaVersion)
    (.lifecycleConflict "unsupported_routing_profile_schema_version")
  exec (Repository.insertRoutingProfile (newProfile draft columns))

/-- `get_routing_profile`. -/
def requireRoutingProfile (workerId : String) (s : Database) : Except ExecutionError RoutingProfile :=
  match Repository.getRoutingProfile workerId s with
  | some p => .ok p
  | none => .error (.executionNotFound "routing_profile_not_found")

/-- `_valid_routing_revision`. -/
def validRoutingRevision (n : ℤ) : Bool := decide (1 ≤ n ∧ n ≤ maxRoutingInteger)

/-- `replace_routing_profile` after its profile and its reservation count were read. -/
def replaceReadProfile (workerId : String) (replacement : RoutingProfileReplacement) (profile : RoutingProfile)
    (reserved : ℕ) : Tx RoutingProfile := do
  require (reserved == 0) (.lifecycleConflict "routing_profile_has_active_reservations")
  require (profile.revision == replacement.expectedRevision) (.lifecycleConflict "routing_profile_revision_conflict")
  let columns ← query fun _ => routingProfileValues replacement.values
  let updated ← exec (Repository.replaceRoutingProfile workerId replacement.expectedRevision (replacedProfile columns))
  require updated (.lifecycleConflict "routing_profile_revision_conflict")
  query (requireRoutingProfile workerId)

/-- `replace_routing_profile`. -/
def replaceRoutingProfile (workerId : String) (replacement : RoutingProfileReplacement) : Tx RoutingProfile := do
  require (validRoutingRevision replacement.expectedRevision)
    (.lifecycleConflict "routing_profile_revision_out_of_bounds")
  let profile ← query (requireRoutingProfile workerId)
  let reserved ← read (Repository.countReservedQuotaRuns workerId)
  replaceReadProfile workerId replacement profile reserved

/-- The checks of `reset_routing_quota` on its arguments. -/
def checkReset (reset : RoutingQuotaReset) : Except ExecutionError Unit := do
  ensure (validRoutingRevision reset.expectedRevision) (.lifecycleConflict "routing_profile_revision_out_of_bounds")
  ensure (routingIntegerInBounds reset.quotaRemainingUnits) (.lifecycleConflict "routing_profile_integer_out_of_bounds")
  ensure reset.quotaResetAt.isAware (.lifecycleConflict "routing_quota_reset_must_be_aware")

/-- The comparison of a requested reset with the profile that was read: whether it was
already applied. -/
def resetAlreadyApplied (reset : RoutingQuotaReset) (profile : RoutingProfile) : Except ExecutionError Bool :=
  match profile.quotaResetAt with
  | none => .ok false
  | some existing =>
    if reset.quotaResetAt.utcNaive < existing then .error (.lifecycleConflict "routing_quota_reset_is_stale")
    else if existing = reset.quotaResetAt.utcNaive then
      if profile.quotaRemainingUnits = reset.quotaRemainingUnits then
        if profile.revision = reset.expectedRevision + 1 then .ok true
        else .error (.lifecycleConflict "routing_profile_revision_conflict")
      else .error (.lifecycleConflict "routing_quota_reset_conflict")
    else .ok false

/-- `reset_routing_quota` after its profile and its reservation count were read. -/
def resetReadProfile (workerId : String) (reset : RoutingQuotaReset) (profile : RoutingProfile)
    (reserved : ℕ) : Tx RoutingProfile := do
  require (reserved == 0) (.lifecycleConflict "routing_profile_has_active_reservations")
  require (profile.revision == reset.expectedRevision) (.lifecycleConflict "routing_profile_revision_conflict")
  require (decide (reset.quotaRemainingUnits ≤ profile.quotaCapacityUnits))
    (.lifecycleConflict "routing_quota_exceeds_capacity")
  let updated ← exec (Repository.resetRoutingQuota workerId reset.expectedRevision reset.quotaRemainingUnits
    reset.quotaResetAt.utcNaive)
  require updated (.lifecycleConflict "routing_profile_revision_conflict")
  query (requireRoutingProfile workerId)

/-- `reset_routing_quota`. -/
def resetRoutingQuota (workerId : String) (reset : RoutingQuotaReset) : Tx RoutingProfile := do
  query fun _ => checkReset reset
  let profile ← query (requireRoutingProfile workerId)
  let applied ← query fun _ => resetAlreadyApplied reset profile
  if applied then return profile
  else
    let reserved ← read (Repository.countReservedQuotaRuns workerId)
    resetReadProfile workerId reset profile reserved

/-! ## Checkout -/

/-- `_routing_request`. -/
def routingRequest (order : WorkOrder) (manifest : CommandManifest) : RoutingEvaluationRequest :=
  { repositoryFullName := order.spec.repositoryFullName
    routingPolicy := order.spec.routingPolicy
    preferredExecutor := order.spec.preferredExecutor
    maximumCostUnits := order.spec.maximumCostUnits
    requiredQuotaUnits := order.spec.requiredQuotaUnits
    manifestRequirements := manifest.metadata.requiredCapabilities
    requestedRequirements := order.spec.requiredCapabilities
    networkPolicy := order.spec.networkPolicy }

/-- `_routing_eligibilities`. -/
def routingEligibilities (request : RoutingEvaluationRequest) (now : Time) (s : Database) :
    List RoutingEligibility :=
  (Repository.listWorkersWithProfiles s).map fun (worker, profile) =>
    evaluateRoutingCandidate P worker profile request now env.heartbeatFreshnessSeconds
      env.activePollFreshnessSeconds

/-- `_unavailable_worker_result`. -/
def unavailableWorkerResult (worker : Worker) : Option CheckoutResult :=
  match worker.status with
  | .draining | .offline => some ⟨none, none, some "worker_not_available", []⟩
  | .busy => some ⟨none, none, some "worker_concurrency_limit", []⟩
  | .online => none

/-- The fault, if any, that the `n`-th claim meets at a statement. -/
def mayFail (n : ℕ) (st : ClaimStatement) : Tx Unit :=
  match env.fault n st with
  | some f => raise f.error
  | none => return ()

/-- What a claim took from the routing profile. -/
structure QuotaClaim where
  profileRevision : Option ℤ
  estimatedCostUnits : Option ℤ
  reservedQuotaUnits : ℤ
  quotaState : QuotaReservationState

/-- The quota part of `_claim_routed_work`. -/
def claimQuota (n : ℕ) (worker : Worker) (order : WorkOrder) (profile : Option RoutingProfile) :
    Tx QuotaClaim :=
  match profile with
  | none => return ⟨none, none, 0, .notRequired⟩
  | some profile => do
    mayFail env n .reserveRoutingQuota
    let revision ← Repository.reserveRoutingQuota worker.workerId profile.revision order.spec.requiredQuotaUnits
    let revision ← requireSome revision (.checkoutReservationConflict "routing_reservation_conflict")
    return ⟨some revision, some profile.estimatedCostUnitsPerRun, order.spec.requiredQuotaUnits,
      if order.spec.requiredQuotaUnits ≠ 0 then .reserved else .notRequired⟩

/-- `order_route_values`. -/
def orderRoute (worker : Worker) (q : QuotaClaim) (eligibleCandidateCount : ℕ) (explicitPin : Bool)
    (now : Time) : OrderRoute :=
  { schemaVersion := some routingSchemaVersion, selectedWorkerId := some worker.workerId
    profileRevision := q.profileRevision, estimatedCostUnits := q.estimatedCostUnits
    reservedQuotaUnits := q.reservedQuotaUnits, quotaState := some q.quotaState
    eligibleCandidateCount := some eligibleCandidateCount, explicitPinApplied := explicitPin
    reason := some "routing_selected", decidedAt := some now }

/-- The `route_values` of the new run. -/
def runRoute (order : WorkOrder) (q : QuotaClaim) (eligibleCandidateCount : ℕ) (explicitPin : Bool)
    (now : Time) : RunRoute :=
  { schemaVersion := routingSchemaVersion, routingPolicy := order.spec.routingPolicy
    profileRevision := q.profileRevision, estimatedCostUnits := q.estimatedCostUnits
    requiredQuotaUnits := order.spec.requiredQuotaUnits, reservedQuotaUnits := q.reservedQuotaUnits
    quotaState := q.quotaState, eligibleCandidateCount := eligibleCandidateCount
    explicitPinApplied := explicitPin, reason := "routing_selected", decidedAt := now }

/-- The nested block of `_claim_routed_work`. -/
def claimBlock (n : ℕ) (worker : Worker) (order : WorkOrder) (profile : Option RoutingProfile)
    (eligibleCandidateCount : ℕ) (explicitPin : Bool) (now : Time) : Tx CheckoutResult := do
  let expiresAt := now + seconds env.leaseSeconds
  mayFail env n .reserveWorkerCapacity
  let reserved ← exec (Repository.reserveWorkerCapacity worker.workerId)
  require reserved (.checkoutReservationConflict "worker_concurrency_limit")
  let quota ← claimQuota env n worker order profile
  mayFail env n .claimQueuedWorkOrder
  let claimed ← exec (Repository.claimQueuedWorkOrder order.id now
    (orderRoute worker quota eligibleCandidateCount explicitPin now))
  require claimed (.checkoutReservationConflict "checkout_conflict")
  let claimedOrder ← query (requireWorkOrder order.id)
  mayFail env n .insertRun
  let run ← Repository.createRun claimedOrder worker.workerId now expiresAt
    (runRoute order quota eligibleCandidateCount explicitPin now)
  mayFail env n .insertLease
  let _ ← Repository.createLease claimedOrder run worker.workerId now expiresAt
  return ⟨some run.id, some claimedOrder.id, none, []⟩

/-- The exceptions that `_claim_routed_work` turns into a result. -/
def claimFailure : ExecutionError → Option CheckoutResult
  | .checkoutReservationConflict detail => some ⟨none, none, some detail, []⟩
  | .integrity => some ⟨none, none, some "checkout_conflict", []⟩
  | _ => none

/-- `_claim_routed_work`. -/
def claimRoutedWork (n : ℕ) (worker : Worker) (order : WorkOrder) (profile : Option RoutingProfile)
    (eligibleCandidateCount : ℕ) (explicitPin : Bool) (now : Time) : Tx CheckoutResult :=
  attempt (claimBlock env n worker order profile eligibleCandidateCount explicitPin now) claimFailure

/-- What the loop of `_checkout_eligible_work` decides about one queued order. -/
inductive CandidateDecision
  | skip (routeReason : Option String)
  | claim (profile : Option RoutingProfile) (eligibleCandidateCount : ℕ)

/-- The routing half of one turn of `_checkout_eligible_work`. -/
def decideCandidate (worker : Worker) (order : WorkOrder) (evaluations : List RoutingEligibility)
    (eligibility : RoutingEligibility) : Except ExecutionError CandidateDecision :=
  let explicitPin := order.spec.preferredExecutor.isSome
  let eligible := evaluations.filterMap RoutingEligibility.candidate
  match order.spec.routingPolicy with
  | .firstAvailable =>
    match eligibility.candidate with
    | none =>
      let reason := unavailableRouteReason eligibility.reasons explicitPin
      .ok (.skip (if reason ≠ "no_capable_workers" then some reason else none))
    | some _ => .ok (.claim none eligible.length)
  | .cheapestCapable => do
    let ranked ← rankRoutingCandidates eligible order.spec.requiredQuotaUnits
    match ranked with
    | [] => return .skip (some (unavailableRouteReason eligibility.reasons explicitPin))
    | selected :: _ =>
      if selected.worker.workerId ≠ worker.workerId then return .skip (some "better_candidate_active")
      else return .claim selected.profile ranked.length

/-- The result of a checkout that assigned nothing. -/
def unassigned (mismatchReasons routeReasons : List String) : CheckoutResult :=
  match routeReasons with
  | reason :: _ => ⟨none, none, some reason, mismatchReasons.eraseDups⟩
  | [] =>
    if mismatchReasons = [] then ⟨none, none, some "no_queued_work_orders", []⟩
    else ⟨none, none,
      some (if "worker_repository_unavailable" ∈ mismatchReasons then "worker_repository_unavailable"
        else "capability_mismatch"),
      mismatchReasons.eraseDups⟩

/-- The loop of `_checkout_eligible_work`; two clock readings precede the first turn. -/
def checkoutLoop (worker : Worker) (n : ℕ) (mismatchReasons routeReasons : List String) :
    List (WorkOrder × CommandManifest) → Tx CheckoutResult
  | [] => return unassigned mismatchReasons routeReasons
  | (order, manifest) :: rest => do
    let now := env.clock (n + 2)
    let evaluations ← read (routingEligibilities P env (routingRequest order manifest) now)
    let eligibility ← requireSome (evaluations.find? fun e => e.worker.workerId == worker.workerId)
      (.runtimeError "coroutine raised StopIteration")
    let mismatchReasons := mismatchReasons ++ eligibility.reasons
    let decision ← query fun _ => decideCandidate worker order evaluations eligibility
    match decision with
    | .skip reason => checkoutLoop worker (n + 1) mismatchReasons (routeReasons ++ reason.toList) rest
    | .claim profile eligibleCandidateCount =>
      let result ← claimRoutedWork env n worker order profile eligibleCandidateCount
        order.spec.preferredExecutor.isSome now
      if result.reason = some "checkout_conflict" then
        checkoutLoop worker (n + 1) mismatchReasons (routeReasons ++ ["checkout_conflict"]) rest
      else return result

/-- `checkout`. -/
def checkout (workerId : String) : Tx CheckoutResult := do
  syncTrustedManifests P
  let _ ← expireStaleLeases (env.clock 0)
  let worker ← read (Repository.getWorker workerId)
  require worker.isSome (.executionNotFound "worker_not_found")
  let polled ← exec (Repository.recordCheckoutPoll workerId (env.clock 1))
  require polled (.executionNotFound "worker_not_found")
  let worker ← read (Repository.getWorker workerId)
  let worker ← requireSome worker (.executionNotFound "worker_not_found")
  match unavailableWorkerResult worker with
  | some result => return result
  | none =>
    let candidates ← read Repository.listQueuedWorkOrders
    checkoutLoop P env worker 0 [] [] candidates

/-- `assess_route`. -/
def assessRoute (workOrderId : ℕ) : Tx RouteAssessment := do
  syncTrustedManifests P
  let order ← query (requireWorkOrder workOrderId)
  require (order.status == .queued) (.lifecycleConflict "route_assessment_requires_queued_work")
  let manifest ← read (Repository.getManifest order.spec.manifestName order.spec.manifestVersion)
  let manifest ← requireSome manifest (.manifestIntegrity "trusted_manifest_not_found")
  let now := env.clock 0
  let explicitPin := order.spec.preferredExecutor.isSome
  let evaluations ← read (routingEligibilities P env (routingRequest order manifest) now)
  let candidates := evaluations.filterMap RoutingEligibility.candidate
  let mismatches := (evaluations.flatMap RoutingEligibility.reasons).eraseDups
  let assessment (selected : Option RoutingCandidate) (withProfile : Bool) (count : ℕ) (reason : String) :
      RouteAssessment :=
    { schemaVersion := routingSchemaVersion, workOrderId := order.id, routingPolicy := order.spec.routingPolicy
      selectedWorkerId := selected.map fun c => c.worker.workerId
      selectedRoutingProfileRevision :=
        if withProfile then selected.bind fun c => c.profile.map RoutingProfile.revision else none
      estimatedCostUnits :=
        if withProfile then selected.bind fun c => c.profile.map RoutingProfile.estimatedCostUnitsPerRun else none
      requiredQuotaUnits := order.spec.requiredQuotaUnits, reservedQuotaUnits := 0
      quotaReservationState := .notRequired, eligibleCandidateCount := count, explicitPinApplied := explicitPin
      reason := reason, decisionTimestamp := now }
  match order.spec.routingPolicy with
  | .firstAvailable =>
    let selected := order.spec.preferredExecutor.bind fun preferred =>
      candidates.find? fun c => c.worker.workerId == preferred
    return assessment selected false candidates.length
      (if candidates = [] then unavailableRouteReason mismatches explicitPin else "first_available")
  | .cheapestCapable =>
    let ranked ← query fun _ => rankRoutingCandidates candidates order.spec.requiredQuotaUnits
    require (ranked.head?.all fun c => c.profile.isSome) (.manifestIntegrity "ranked_routing_profile_missing")
    return assessment ranked.head? true ranked.length
      (if ranked = [] then unavailableRouteReason mismatches explicitPin else "routing_selected")

/-! ## Runs -/

/-- The columns that a candidate lookup leaves on its run. -/
def resolvedRun (identity : ReuseIdentity) (identityHash : String) (selected : Option ReuseCandidate)
    (r : ExecutionRun) : ExecutionRun :=
  { r with
    reuse :=
      { r.reuse with
        identity := some identity
        identityHash := some identityHash
        decision := if selected.isSome then .candidateAvailable else .unavailable
        reason := some (if selected.isSome then "exact_candidate_available" else "exact_candidate_not_found")
        candidateMetadata := selected } }

/-- The first eligible source among the exact candidates. -/
def selectReuseCandidate (order : WorkOrder) (workerId : String) (identity : ReuseIdentity)
    (identityHash : String) (runId : ℕ) (now : Time) (s : Database) : Option ReuseCandidate :=
  (Repository.listExactReuseCandidates order workerId identityHash runId s).findSome? fun (r, o) =>
    validatedReuseCandidate P r o identity now s

/-- `resolve_reuse_candidate`. -/
def resolveReuseCandidate (runId : ℕ) (workerId : String) (identity : ReuseIdentity) (identityHash : String) :
    Tx ReuseCandidateResult := do
  require (P.reuseIdentityHash identity == identityHash) (.lifecycleConflict "reuse_identity_hash_mismatch")
  let lease ← read (Repository.getLeaseForRun runId)
  let now := env.clock 0
  let lease ← requireSome lease (.ownershipConflict "execution_lease_not_owned")
  require (lease.workerId == workerId && decide (lease.expiresAt ≥ now))
    (.ownershipConflict "execution_lease_not_owned")
  let order ← query (requireWorkOrder lease.workOrderId)
  require (order.spec.reusePolicy != .never) (.lifecycleConflict "reuse_policy_never")
  query fun _ => validateReuseIdentity P order identity
  let selected ← read (selectReuseCandidate P order workerId identity identityHash runId now)
  let updated ← exec (Repository.updateActiveRunReuse runId (resolvedRun identity identityHash selected))
  require updated (.ownershipConflict "execution_lease_not_owned")
  return {
    decision := if selected.isSome then .candidateAvailable else .unavailable
    reason := if selected.isSome then "exact_candidate_available" else "exact_candidate_not_found"
    candidate := selected }

/-- `heartbeat_run`. -/
def heartbeatRun (runId : ℕ) (workerId : String) : Tx ExecutionRun := do
  let _ ← query (requireRun runId)
  let snapshot ← read (Repository.getLeaseSnapshotForRun runId)
  let snapshot ← requireSome snapshot (.ownershipConflict "execution_lease_not_owned")
  require (snapshot.workerId == workerId) (.ownershipConflict "execution_lease_not_owned")
  let now := env.clock 0
  let expiresAt := now + seconds env.leaseSeconds
  let renewed ← exec (Repository.renewOwnedLiveLease runId workerId now expiresAt)
  require renewed (.ownershipConflict "execution_lease_expired")
  let quotaConsumed ← Repository.consumeRunQuotaReservation runId snapshot.workOrderId
  let runUpdated ← exec (Repository.markActiveRunRunning runId now expiresAt)
  let workOrderUpdated ← exec (Repository.markActiveWorkOrderRunning snapshot.workOrderId now)
  require (quotaConsumed && runUpdated && workOrderUpdated) (.lifecycleConflict "execution_run_is_not_active")
  query (requireRun runId)

end Service

/-! ## Runs of the service -/

/-- The operations of the service that can change the execution plane. -/
inductive Operation
  | syncTrustedManifests
  | createWorkOrder (draft : WorkOrderDraft)
  | approveWorkOrder (workOrderId : ℕ) (queue : Bool)
  | queueWorkOrder (workOrderId : ℕ)
  | rejectWorkOrder (workOrderId : ℕ) (reason : Option String)
  | expireWorkOrder (workOrderId : ℕ) (reason : Option String)
  | cancelWorkOrder (workOrderId : ℕ) (reason : Option String)
  | registerWorker (registration : WorkerRegistration)
  | heartbeatWorker (workerId : String) (status : Option WorkerStatus)
  | createRoutingProfile (draft : RoutingProfileDraft)
  | replaceRoutingProfile (workerId : String) (replacement : RoutingProfileReplacement)
  | resetRoutingQuota (workerId : String) (reset : RoutingQuotaReset)
  | assessRoute (workOrderId : ℕ)
  | checkout (workerId : String)
  | resolveReuseCandidate (runId : ℕ) (workerId : String) (identity : ReuseIdentity) (identityHash : String)
  | heartbeatRun (runId : ℕ) (workerId : String)
  | completeRun (runId : ℕ) (workerId : String) (completion : ExecutionCompletion)
  | expireStaleLeases
  | requeueStaleWorkOrder (workOrderId : ℕ)

/-- One operation with the environment it runs in. -/
structure Call where
  env : Env
  operation : Operation

/-- The transaction of an operation; its result is dropped. -/
def Call.transaction (P : Platform) (c : Call) : Tx Unit :=
  match c.operation with
  | .syncTrustedManifests => Service.syncTrustedManifests P
  | .createWorkOrder draft => do let _ ← Service.createWorkOrder P draft
  | .approveWorkOrder id queue => do let _ ← Service.approveWorkOrder P c.env id queue
  | .queueWorkOrder id => do let _ ← Service.queueWorkOrder c.env id
  | .rejectWorkOrder id reason => do let _ ← Service.rejectWorkOrder c.env id reason
  | .expireWorkOrder id reason => do let _ ← Service.expireWorkOrder c.env id reason
  | .cancelWorkOrder id reason => do let _ ← Service.cancelWorkOrder P c.env id reason
  | .registerWorker registration => Service.registerWorker P c.env registration
  | .heartbeatWorker id status => Service.heartbeatWorker c.env id status
  | .createRoutingProfile draft => Service.createRoutingProfile draft
  | .replaceRoutingProfile id replacement => do let _ ← Service.replaceRoutingProfile id replacement
  | .resetRoutingQuota id reset => do let _ ← Service.resetRoutingQuota id reset
  | .assessRoute id => do let _ ← Service.assessRoute P c.env id
  | .checkout id => do let _ ← Service.checkout P c.env id
  | .resolveReuseCandidate id worker identity hash => do
    let _ ← Service.resolveReuseCandidate P c.env id worker identity hash
  | .heartbeatRun id worker => do let _ ← Service.heartbeatRun c.env id worker
  | .completeRun id worker completion => do let _ ← Service.completeRun P c.env id worker completion
  | .expireStaleLeases => do let _ ← Service.expireStaleLeases (c.env.clock 0)
  | .requeueStaleWorkOrder id => do let _ ← Service.requeueStaleWorkOrder c.env id

/-- One call: committed whole, or rolled back. -/
def step (P : Platform) (ss : Session Database) (c : Call) : Session Database := commit (c.transaction P) ss

/-- The session after the calls, from the empty database. -/
def runCalls (P : Platform) (calls : List Call) : Session Database :=
  calls.foldl (step P) ⟨Database.init, []⟩

end Switchboard
