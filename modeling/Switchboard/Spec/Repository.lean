import Switchboard.Lib.Tx
import Switchboard.Spec.Store

/-!
# Guarded statements

The persistence operations of `repository.py`. A function that issues one statement is
a map on the database that also reports `_affected_one`; a function that issues
several, or raises, is a transaction.

Tables are kept in id order, so `ORDER BY id` is the order of the list. Unique
constraints that a statement can hit raise `integrity`; the remaining `CHECK`
constraints are implied by the guards and are not needed here.
-/

namespace Switchboard

open Table Transaction

/-- A transaction of the execution plane. -/
abbrev Tx := Transaction.Tx Database ExecutionError

/-- One guarded statement: the new database, and whether exactly one row was affected. -/
abbrev Statement := Database → Database × Bool

/-! ## Rows after a statement -/

/-- The order after its claim. -/
def WorkOrder.claimed (now : Time) (route : OrderRoute) (o : WorkOrder) : WorkOrder :=
  { o with status := .assigned, assignedAt := some now, attemptCount := o.attemptCount + 1, route := route }

/-- The order after a heartbeat of its run. -/
def WorkOrder.started (now : Time) (o : WorkOrder) : WorkOrder :=
  { o with
    status := if o.status = .assigned then .running else o.status
    startedAt := if o.status = .assigned then some now else o.startedAt }

/-- The order after its lease was consumed by a terminal report. -/
def WorkOrder.finished (status : WorkOrderStatus) (now : Time) (terminalReason : String) (o : WorkOrder) :
    WorkOrder :=
  { o with status := status, finishedAt := some now, terminalReason := some terminalReason }

/-- The order after its stale lease was consumed. -/
def WorkOrder.requeued (now : Time) (o : WorkOrder) : WorkOrder :=
  { o with status := .queued, queuedAt := some now, terminalReason := none }

def WorkOrder.withQuotaState (q : QuotaReservationState) (o : WorkOrder) : WorkOrder :=
  { o with route := { o.route with quotaState := some q } }

/-- The worker with one more slot taken. -/
def Worker.slotReserved (w : Worker) : Worker :=
  { w with
    activeRunCount := w.activeRunCount + 1
    status := if w.activeRunCount + 1 ≥ w.maxConcurrency then .busy else .online }

/-- The worker with one slot given back. -/
def Worker.slotReleased (w : Worker) : Worker :=
  { w with
    activeRunCount := w.activeRunCount - 1
    status :=
      if w.status = .draining ∨ w.status = .offline then w.status
      else if w.activeRunCount - 1 ≥ w.maxConcurrency then .busy
      else .online }

/-- The profile with `units` taken at the expected revision. -/
def RoutingProfile.reserved (expectedRevision units : ℤ) (p : RoutingProfile) : RoutingProfile :=
  { p with quotaRemainingUnits := p.quotaRemainingUnits - units, revision := expectedRevision + 1 }

/-- The profile with `units` given back. -/
def RoutingProfile.refunded (units : ℤ) (p : RoutingProfile) : RoutingProfile :=
  { p with quotaRemainingUnits := p.quotaRemainingUnits + units, revision := p.revision + 1 }

/-- The run after a heartbeat. -/
def ExecutionRun.started (now expiresAt : Time) (r : ExecutionRun) : ExecutionRun :=
  { r with
    status := if r.status = .assigned then .running else r.status
    startedAt := if r.status = .assigned then some now else r.startedAt
    lastHeartbeatAt := now
    leaseExpiresAt := expiresAt }

/-- The run after its stale lease was consumed. -/
def ExecutionRun.timedOut (now : Time) (r : ExecutionRun) : ExecutionRun :=
  { r with
    status := .timedOut, finishedAt := some now, lastHeartbeatAt := now, resultSummary := none
    terminalReason := some "execution_lease_expired", cleanupStatus := some "lease_expired"
    artifactMetadata := [], evidenceMetadata := none }

def ExecutionRun.withQuotaState (q : QuotaReservationState) (r : ExecutionRun) : ExecutionRun :=
  { r with route := { r.route with quotaState := q } }

/-- The lease after a heartbeat. -/
def Lease.renewed (now expiresAt : Time) (l : Lease) : Lease :=
  { l with lastHeartbeatAt := now, expiresAt := expiresAt }

/-- The deadline guard of a lease deletion. -/
inductive LeaseGuard
  | any | live | stale
  deriving DecidableEq, Repr

def LeaseGuard.allows (g : LeaseGuard) (expiresAt now : Time) : Bool :=
  match g with
  | .any => true
  | .live => decide (expiresAt ≥ now)
  | .stale => decide (expiresAt < now)

def maxExactReuseCandidates : ℕ := 32

def maxRoutingRevision : ℤ := 2147483647

/-! ## One statement on one table -/

def updateOrders (p : WorkOrder → Bool) (f : WorkOrder → WorkOrder) : Statement := fun s =>
  ({ s with orders := updateWhere p f s.orders }, affectedOne p s.orders)

def updateWorkers (p : Worker → Bool) (f : Worker → Worker) : Statement := fun s =>
  ({ s with workers := updateWhere p f s.workers }, affectedOne p s.workers)

def updateProfiles (p : RoutingProfile → Bool) (f : RoutingProfile → RoutingProfile) : Statement := fun s =>
  ({ s with profiles := updateWhere p f s.profiles }, affectedOne p s.profiles)

def updateRuns (p : ExecutionRun → Bool) (f : ExecutionRun → ExecutionRun) : Statement := fun s =>
  ({ s with runs := updateWhere p f s.runs }, affectedOne p s.runs)

def updateLeases (p : Lease → Bool) (f : Lease → Lease) : Statement := fun s =>
  ({ s with leases := updateWhere p f s.leases }, affectedOne p s.leases)

def deleteLeases (p : Lease → Bool) : Statement := fun s =>
  ({ s with leases := deleteWhere p s.leases }, affectedOne p s.leases)

namespace Repository

/-! ## Manifests -/

def getManifest (name version : String) (s : Database) : Option CommandManifest :=
  s.manifests.find? fun m => m.metadata.name == name && m.metadata.version == version

/-- Insert a manifest snapshot; the id is generated. -/
def insertManifest (metadata : ManifestMetadata) (digest : String) (s : Database) : Database × CommandManifest :=
  let m : CommandManifest := ⟨nextId s.manifests, metadata, digest⟩
  ({ s with manifests := s.manifests ++ [m] }, m)

/-- Persist a trusted identity once and reject a conflicting snapshot. -/
def ensureManifest (metadata : ManifestMetadata) (digest : String) : Tx CommandManifest := do
  let existing ← read (getManifest metadata.name metadata.version)
  match existing with
  | some m =>
    require (m.digest == digest && m.metadata == metadata)
      (.manifestIntegrity "trusted_manifest_digest_conflict")
    return m
  | none =>
    -- the digest column is unique; its violation is reported as a conflicting snapshot
    let taken ← read fun s => s.manifests.any fun m => m.digest == digest
    require (!taken) (.manifestIntegrity "trusted_manifest_digest_conflict")
    exec (insertManifest metadata digest)

def ensureManifests : List (ManifestMetadata × String) → Tx Unit
  | [] => return ()
  | (metadata, digest) :: rest => do
    let _ ← ensureManifest metadata digest
    ensureManifests rest

/-! ## Work orders -/

/-- Insert a pending work order; counters and route columns take their defaults. -/
def createWorkOrder (spec : WorkOrderSpec) (s : Database) : Database × WorkOrder :=
  let o : WorkOrder :=
    { id := nextId s.orders, spec := spec, status := .pendingApproval, attemptCount := 0
      approvedAt := none, queuedAt := none, assignedAt := none, startedAt := none
      finishedAt := none, terminalReason := none, route := {} }
  ({ s with orders := s.orders ++ [o] }, o)

def getWorkOrder (workOrderId : ℕ) (s : Database) : Option WorkOrder :=
  s.orders.find? fun o => o.id == workOrderId

/-- Queued orders with their manifest snapshots, in id order. -/
def listQueuedWorkOrders (s : Database) : List (WorkOrder × CommandManifest) :=
  (s.orders.filter fun o => o.status == .queued).flatMap fun o =>
    (s.manifests.filter fun m => m.id == o.spec.manifestId).map fun m => (o, m)

/-- Apply a lifecycle transition only while an unleased state still matches. -/
def transitionUnleasedWorkOrder (workOrderId : ℕ) (currentStatuses : List WorkOrderStatus)
    (values : WorkOrder → WorkOrder) : Statement :=
  updateOrders (fun o => o.id == workOrderId && decide (o.status ∈ currentStatuses)) values

/-- Claim a work order only while it remains queued. -/
def claimQueuedWorkOrder (workOrderId : ℕ) (now : Time) (route : OrderRoute) : Statement :=
  updateOrders (fun o => o.id == workOrderId && o.status == .queued) (WorkOrder.claimed now route)

/-- Advance an assigned or running order. -/
def markActiveWorkOrderRunning (workOrderId : ℕ) (now : Time) : Statement :=
  updateOrders (fun o => o.id == workOrderId && o.status.isActive) (WorkOrder.started now)

/-- Terminalize an active order. -/
def finishActiveWorkOrder (workOrderId : ℕ) (status : WorkOrderStatus) (now : Time)
    (terminalReason : String) : Statement :=
  updateOrders (fun o => o.id == workOrderId && o.status.isActive) (WorkOrder.finished status now terminalReason)

/-- Move an active order back to the queue after a stale lease. -/
def requeueStaleActiveWorkOrder (workOrderId : ℕ) (now : Time) : Statement :=
  updateOrders (fun o => o.id == workOrderId && o.status.isActive) (WorkOrder.requeued now)

/-! ## Workers -/

def getWorker (workerId : String) (s : Database) : Option Worker :=
  s.workers.find? fun w => w.workerId == workerId

/-- The availability that a requested status leads to. -/
def requestedWorkerStatus (requested : WorkerStatus) (active maximum : ℤ) : WorkerStatus :=
  match requested with
  | .busy => .busy
  | .draining => .draining
  | .offline => .offline
  | .online => if active ≥ maximum then .busy else .online

def insertWorker (w : Worker) (s : Database) : Database × Unit :=
  ({ s with workers := s.workers ++ [w] }, ())

/-- Register or refresh a worker, keeping its active run count. The flush raises on
`ck_execution_worker_capacity`. -/
def upsertWorker (registration : WorkerRegistration) (now : Time) : Tx Unit := do
  let existing ← read (getWorker registration.workerId)
  require (decide (1 ≤ registration.maxConcurrency)) .integrity
  match existing with
  | none =>
    exec (insertWorker
      { workerId := registration.workerId, declaration := registration.declaration
        maxConcurrency := registration.maxConcurrency, activeRunCount := 0
        status := registration.status, lastHeartbeatAt := now, lastCheckoutPollAt := none })
  | some _ =>
    let _ ← exec (updateWorkers (fun w => w.workerId == registration.workerId) fun w =>
      { w with
        declaration := registration.declaration
        maxConcurrency := registration.maxConcurrency
        status := requestedWorkerStatus registration.status w.activeRunCount registration.maxConcurrency
        lastHeartbeatAt := now })

/-- Refresh worker liveness and, when one is given, its availability. -/
def updateWorkerHeartbeat (workerId : String) (now : Time) (status : Option WorkerStatus) : Statement :=
  updateWorkers (fun w => w.workerId == workerId) fun w =>
    { w with
      lastHeartbeatAt := now
      status := match status with
        | none => w.status
        | some requested => requestedWorkerStatus requested w.activeRunCount w.maxConcurrency }

/-- Record one pull attempt. -/
def recordCheckoutPoll (workerId : String) (now : Time) : Statement :=
  updateWorkers (fun w => w.workerId == workerId) fun w => { w with lastCheckoutPollAt := some now }

/-- Reserve one free slot on an online worker. -/
def reserveWorkerCapacity (workerId : String) : Statement :=
  updateWorkers
    (fun w => w.workerId == workerId && w.status == .online && decide (w.activeRunCount < w.maxConcurrency))
    Worker.slotReserved

/-- Release one slot, respecting draining and offline workers. -/
def releaseWorkerCapacity (workerId : String) : Statement :=
  updateWorkers (fun w => w.workerId == workerId && decide (w.activeRunCount > 0)) Worker.slotReleased

/-! ## Routing profiles -/

def getRoutingProfile (workerId : String) (s : Database) : Option RoutingProfile :=
  s.profiles.find? fun p => p.workerId == workerId

/-- Every worker with its optional profile, in worker-id order. -/
def listWorkersWithProfiles (s : Database) : List (Worker × Option RoutingProfile) :=
  (s.workers.mergeSort fun a b => decide (a.workerId ≤ b.workerId)).map fun w =>
    (w, getRoutingProfile w.workerId s)

def insertRoutingProfile (p : RoutingProfile) (s : Database) : Database × Unit :=
  ({ s with profiles := s.profiles ++ [p] }, ())

/-- Replace a profile only when its optimistic revision still matches. -/
def replaceRoutingProfile (workerId : String) (expectedRevision : ℤ)
    (values : RoutingProfile → RoutingProfile) : Statement :=
  updateProfiles
    (fun p => p.workerId == workerId && p.revision == expectedRevision && decide (p.revision < maxRoutingRevision))
    fun p => { values p with revision := expectedRevision + 1 }

/-- Replace the quota state only at the exact current revision. -/
def resetRoutingQuota (workerId : String) (expectedRevision remaining : ℤ) (resetAt : Time) : Statement :=
  updateProfiles
    (fun p => p.workerId == workerId && p.revision == expectedRevision &&
      decide (p.revision < maxRoutingRevision) && decide (p.quotaCapacityUnits ≥ remaining))
    fun p =>
      { p with quotaRemainingUnits := remaining, quotaResetAt := some resetAt, revision := expectedRevision + 1 }

/-- Count the worker's runs that hold a reservation. -/
def countReservedQuotaRuns (workerId : String) (s : Database) : ℕ :=
  s.runs.countP fun r => r.workerId == workerId && r.route.quotaState == .reserved

/-- Conditionally reserve quota; the resulting revision is returned. -/
def reserveRoutingQuota (workerId : String) (expectedRevision units : ℤ) : Tx (Option ℤ) := do
  let maximumExpectedRevision := maxRoutingRevision - (if units ≠ 0 then 2 else 1)
  let updated ← exec (updateProfiles
    (fun p => p.workerId == workerId && p.enabled && p.revision == expectedRevision &&
      decide (p.revision ≤ maximumExpectedRevision) && decide (p.quotaRemainingUnits ≥ units) &&
      decide (p.quotaRemainingUnits ≤ p.quotaCapacityUnits))
    (RoutingProfile.reserved expectedRevision units))
  return if updated then some (expectedRevision + 1) else none

/-! ## Runs and leases -/

def getRun (runId : ℕ) (s : Database) : Option ExecutionRun :=
  s.runs.find? fun r => r.id == runId

def insertRun (make : ℕ → ExecutionRun) (s : Database) : Database × ExecutionRun :=
  let r := make (nextId s.runs)
  ({ s with runs := s.runs ++ [r] }, r)

def insertLease (make : ℕ → Lease) (s : Database) : Database × Lease :=
  let l := make (nextId s.leases)
  ({ s with leases := s.leases ++ [l] }, l)

/-- The row of a new attempt at `o`. -/
def activeRun (o : WorkOrder) (workerId : String) (now expiresAt : Time) (route : RunRoute) (id : ℕ) :
    ExecutionRun :=
  { id := id, workOrderId := o.id, workerId := workerId, attemptNumber := o.attemptCount
    status := .assigned, queuedAt := o.queuedAt.getD now, assignedAt := now, startedAt := none
    finishedAt := none, leaseExpiresAt := expiresAt, lastHeartbeatAt := now, resultSummary := none
    terminalReason := none, cleanupStatus := none, artifactMetadata := [], evidenceMetadata := none
    reuse :=
      { decision := if o.spec.reusePolicy = .never then .notRequested else .pending
        reason := some (if o.spec.reusePolicy = .never then "reuse_policy_never" else "exact_candidate_pending") }
    route := route }

/-- Insert the run of the order's current attempt; `uq_execution_run_attempt`. -/
def createRun (o : WorkOrder) (workerId : String) (now expiresAt : Time) (route : RunRoute) :
    Tx ExecutionRun := do
  let duplicate ← read fun s => s.runs.any fun r => r.workOrderId == o.id && r.attemptNumber == o.attemptCount
  require (!duplicate) .integrity
  exec (insertRun (activeRun o workerId now expiresAt route))

/-- Insert the unique active lease of the run. -/
def createLease (o : WorkOrder) (run : ExecutionRun) (workerId : String) (now expiresAt : Time) :
    Tx Lease := do
  let duplicate ← read fun s => s.leases.any fun l => l.workOrderId == o.id || l.executionRunId == run.id
  require (!duplicate) .integrity
  exec (insertLease fun id => ⟨id, o.id, run.id, workerId, expiresAt, now⟩)

def getLeaseForRun (runId : ℕ) (s : Database) : Option Lease :=
  s.leases.find? fun l => l.executionRunId == runId

def getLeaseSnapshotForRun (runId : ℕ) (s : Database) : Option LeaseSnapshot :=
  (getLeaseForRun runId s).map Lease.snapshot

def getLeaseSnapshotForWorkOrder (workOrderId : ℕ) (s : Database) : Option LeaseSnapshot :=
  (s.leases.find? fun l => l.workOrderId == workOrderId).map Lease.snapshot

/-- Leases past their deadline, in id order. -/
def listStaleLeaseSnapshots (now : Time) (s : Database) : List LeaseSnapshot :=
  (s.leases.filter fun l => decide (l.expiresAt < now)).map Lease.snapshot

/-- Renew a lease only while its owner still holds an unexpired claim. -/
def renewOwnedLiveLease (runId : ℕ) (workerId : String) (now expiresAt : Time) : Statement :=
  updateLeases
    (fun l => l.executionRunId == runId && l.workerId == workerId && decide (l.expiresAt ≥ now))
    (Lease.renewed now expiresAt)

/-- Delete exactly one lease when its current state still matches a guard. -/
def consumeLease (snapshot : LeaseSnapshot) (now : Time) (g : LeaseGuard) : Statement :=
  deleteLeases fun l =>
    l.id == snapshot.id && l.workOrderId == snapshot.workOrderId &&
      l.executionRunId == snapshot.executionRunId && l.workerId == snapshot.workerId &&
      g.allows l.expiresAt now

/-- Record a heartbeat only while the run is active. -/
def markActiveRunRunning (runId : ℕ) (now expiresAt : Time) : Statement :=
  updateRuns (fun r => r.id == runId && r.status.isActive) (ExecutionRun.started now expiresAt)

/-- Terminalize one active run. -/
def finishActiveRun (runId : ℕ) (values : ExecutionRun → ExecutionRun) : Statement :=
  updateRuns (fun r => r.id == runId && r.status.isActive) values

/-- Mark an active run timed out after its stale lease was consumed. -/
def requeueStaleActiveRun (runId : ℕ) (now : Time) : Statement :=
  finishActiveRun runId (ExecutionRun.timedOut now)

/-- Persist reuse context only while the run remains active. -/
def updateActiveRunReuse (runId : ℕ) (values : ExecutionRun → ExecutionRun) : Statement :=
  updateRuns (fun r => r.id == runId && r.status.isActive) values

/-! ## Quota reservations -/

/-- Move a run's reservation to `q` while it is reserved. -/
def settleRunQuota (runId : ℕ) (q : QuotaReservationState) : Statement :=
  updateRuns (fun r => r.id == runId && r.route.quotaState == .reserved) (ExecutionRun.withQuotaState q)

/-- Move an order's reservation to `q` while it is reserved. -/
def settleOrderQuota (workOrderId : ℕ) (q : QuotaReservationState) : Statement :=
  updateOrders (fun o => o.id == workOrderId && o.route.quotaState == some .reserved)
    (WorkOrder.withQuotaState q)

/-- Give `units` back to the worker's profile without exceeding its capacity. -/
def refundRoutingQuota (workerId : String) (units : ℤ) : Statement :=
  updateProfiles
    (fun p => p.workerId == workerId && decide (p.revision < maxRoutingRevision) &&
      decide (p.quotaRemainingUnits ≤ p.quotaCapacityUnits - units))
    (RoutingProfile.refunded units)

/-- Move a reservation to `q` on the run and on the order. -/
def settleReservation (runId workOrderId : ℕ) (q : QuotaReservationState) : Tx Bool := do
  let runUpdated ← exec (settleRunQuota runId q)
  let orderUpdated ← exec (settleOrderQuota workOrderId q)
  return runUpdated && orderUpdated

/-- Consume a reserved quota record exactly once on the first run heartbeat. -/
def consumeRunQuotaReservation (runId workOrderId : ℕ) : Tx Bool := do
  let run ← read (getRun runId)
  match run with
  | none => return false
  | some run =>
    match run.route.quotaState with
    | .notRequired | .consumed => return true
    | .released => return false
    | .reserved => settleReservation runId workOrderId .consumed

/-- Release one pre-start reservation without exceeding profile capacity. -/
def releaseRunQuotaReservation (runId workOrderId : ℕ) (workerId : String) : Tx Bool := do
  let run ← read (getRun runId)
  match run with
  | none => return false
  | some run =>
    match run.route.quotaState with
    | .notRequired | .consumed | .released => return true
    | .reserved =>
      if run.route.reservedQuotaUnits > 0 then
        let refunded ← exec (refundRoutingQuota workerId run.route.reservedQuotaUnits)
        if refunded then settleReservation runId workOrderId .released else return false
      else settleReservation runId workOrderId .released

/-! ## Reuse candidates -/

/-- Exact successful fresh candidates, newest first. -/
def listExactReuseCandidates (order : WorkOrder) (workerId reuseIdentityHash : String) (excludeRunId : ℕ)
    (s : Database) : List (ExecutionRun × WorkOrder) :=
  let joined := s.runs.flatMap fun r =>
    (s.orders.filter fun o => r.workOrderId == o.id).map fun o => (r, o)
  let matching := joined.filter fun (r, o) =>
    r.id != excludeRunId && r.workerId == workerId && r.status == .succeeded &&
      r.reuse.decision == .fresh && r.reuse.identityHash == some reuseIdentityHash &&
      o.spec.repositoryFullName == order.spec.repositoryFullName &&
      o.spec.commitSha == order.spec.commitSha &&
      o.spec.manifestName == order.spec.manifestName &&
      o.spec.manifestVersion == order.spec.manifestVersion &&
      o.spec.manifestDigest == order.spec.manifestDigest &&
      o.spec.executionPolicyHash == order.spec.executionPolicyHash
  matching.reverse.take maxExactReuseCandidates

end Repository

end Switchboard
