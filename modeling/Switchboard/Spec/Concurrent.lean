import Switchboard.Lib.Program
import Switchboard.Spec.Service

/-!
# Concurrent calls on leases

The four calls that act on a lease, cut into their steps: `heartbeat_run`,
`complete_run`, `cancel_work_order` and `expire_stale_leases`. Each reads the clock and
lease snapshots first and acts on them later. A first guarded statement takes SQLite's
single write slot and the transaction keeps it; reads before it see whatever was
committed last.

* `LeaseCall.program`: the steps of a call.
* `runLeaseCalls`: any interleaving of any number of them.
* `ExclusiveConsumption`: what the commits do to one lease.
-/

namespace Switchboard

open Table Transaction

/-- A transaction of the execution plane, step by step. -/
abbrev StepTx := Program Database Time ExecutionError

namespace Stepwise

open Program

variable (P : Platform)

/-! ## Statements of the repository -/

/-- Move a reservation to `q` on the run and on the order. -/
def settleReservation (runId workOrderId : ℕ) (q : QuotaReservationState) : StepTx Bool := do
  let runUpdated ← guarded (Repository.settleRunQuota runId q)
  let orderUpdated ← guarded (Repository.settleOrderQuota workOrderId q)
  return runUpdated && orderUpdated

/-- `consume_run_quota_reservation`. -/
def consumeRunQuotaReservation (runId workOrderId : ℕ) : StepTx Bool := do
  let run ← ask (Repository.getRun runId)
  match run with
  | none => return false
  | some run =>
    match run.route.quotaState with
    | .notRequired | .consumed => return true
    | .released => return false
    | .reserved => settleReservation runId workOrderId .consumed

/-- `release_run_quota_reservation`. -/
def releaseRunQuotaReservation (runId workOrderId : ℕ) (workerId : String) : StepTx Bool := do
  let run ← ask (Repository.getRun runId)
  match run with
  | none => return false
  | some run =>
    match run.route.quotaState with
    | .notRequired | .consumed | .released => return true
    | .reserved =>
      if run.route.reservedQuotaUnits > 0 then
        let refunded ← guarded (Repository.refundRoutingQuota workerId run.route.reservedQuotaUnits)
        if refunded then settleReservation runId workOrderId .released else return false
      else settleReservation runId workOrderId .released

/-! ## Calls of the service -/

/-- The statements after a lease was consumed. -/
def settleConsumedLease (snapshot : LeaseSnapshot) (moveRun moveOrder : Statement) (conflict : String) :
    StepTx Unit := do
  let quotaReleased ← releaseRunQuotaReservation snapshot.executionRunId snapshot.workOrderId snapshot.workerId
  let runUpdated ← guarded moveRun
  let workOrderUpdated ← guarded moveOrder
  let released ← guarded (Repository.releaseWorkerCapacity snapshot.workerId)
  demand (quotaReleased && runUpdated && workOrderUpdated && released) (.lifecycleConflict conflict)

/-- The writing half of `_finish_active_lease`. -/
def consumeAndSettle (snapshot : LeaseSnapshot) (completion : ExecutionCompletion) (requireLive ownershipError : Bool)
    (reuse : RunReuse) (now : Time) : StepTx ExecutionRun := do
  let consumed ← guarded (Repository.consumeLease snapshot now (if requireLive then .live else .any))
  demand consumed
    (if ownershipError then .ownershipConflict "execution_lease_not_owned"
      else .lifecycleConflict "execution_lease_transition_in_progress")
  settleConsumedLease snapshot
    (Repository.finishActiveRun snapshot.executionRunId (Service.finishedRun completion reuse now))
    (Repository.finishActiveWorkOrder snapshot.workOrderId completion.status.toWorkOrder now
      ((orText completion.terminalReason none).getD completion.status.value))
    "execution_record_transition_in_progress"
  check (Service.requireRun snapshot.executionRunId)

/-- `_finish_active_lease`. -/
def finishActiveLease (snapshot : LeaseSnapshot) (completion : ExecutionCompletion)
    (requireLive ownershipError : Bool) : StepTx ExecutionRun := do
  check (Service.validateCompletionEvidence snapshot completion)
  let run ← check (Service.requireRun snapshot.executionRunId)
  let order ← check (Service.requireWorkOrder snapshot.workOrderId)
  let reuse ← ofExcept (Service.reuseColumns P run order completion)
  let now ← now
  consumeAndSettle snapshot completion requireLive ownershipError reuse now

/-- The guarded transition of an order without a lease. -/
def transitionUnleased (workOrderId : ℕ) (currentStatuses : List WorkOrderStatus)
    (values : WorkOrder → WorkOrder) (conflict : String) : StepTx WorkOrder := do
  let updated ← guarded (Repository.transitionUnleasedWorkOrder workOrderId currentStatuses values)
  demand updated (.lifecycleConflict conflict)
  check (Service.requireWorkOrder workOrderId)

/-- `cancel_work_order`. -/
def cancelWorkOrder (workOrderId : ℕ) (reason : Option String) : StepTx WorkOrder := do
  let order ← check (Service.requireWorkOrder workOrderId)
  let now ← now
  let terminalReason := (orText reason none).getD "cancelled_by_operator"
  if order.status ∈ [WorkOrderStatus.pendingApproval, .approved, .queued] then
    transitionUnleased order.id [.pendingApproval, .approved, .queued]
      (fun o => { o with status := .cancelled, finishedAt := some now, terminalReason := some terminalReason })
      "work_order_transition_in_progress"
  else
    demand (!order.status.isTerminal) (.lifecycleConflict "work_order_is_terminal")
    let snapshot ← ask (Repository.getLeaseSnapshotForWorkOrder order.id)
    let snapshot ← demandSome snapshot (.lifecycleConflict "execution_lease_transition_in_progress")
    let _ ← finishActiveLease P snapshot (Service.cancellation terminalReason) false false
    check (Service.requireWorkOrder order.id)

/-- `complete_run`. -/
def completeRun (runId : ℕ) (workerId : String) (completion : ExecutionCompletion) : StepTx ExecutionRun := do
  demand completion.status.isTerminal (.lifecycleConflict "execution_completion_must_be_terminal")
  let _ ← check (Service.requireRun runId)
  let snapshot ← ask (Repository.getLeaseSnapshotForRun runId)
  let snapshot ← demandSome snapshot (.ownershipConflict "execution_lease_not_owned")
  demand (snapshot.workerId == workerId) (.ownershipConflict "execution_lease_not_owned")
  finishActiveLease P snapshot completion true true

/-- `heartbeat_run`. -/
def heartbeatRun (leaseSeconds : ℤ) (runId : ℕ) (workerId : String) : StepTx ExecutionRun := do
  let _ ← check (Service.requireRun runId)
  let snapshot ← ask (Repository.getLeaseSnapshotForRun runId)
  let snapshot ← demandSome snapshot (.ownershipConflict "execution_lease_not_owned")
  demand (snapshot.workerId == workerId) (.ownershipConflict "execution_lease_not_owned")
  let now ← now
  let expiresAt := now + seconds leaseSeconds
  let renewed ← guarded (Repository.renewOwnedLiveLease runId workerId now expiresAt)
  demand renewed (.ownershipConflict "execution_lease_expired")
  let quotaConsumed ← consumeRunQuotaReservation runId snapshot.workOrderId
  let runUpdated ← guarded (Repository.markActiveRunRunning runId now expiresAt)
  let workOrderUpdated ← guarded (Repository.markActiveWorkOrderRunning snapshot.workOrderId now)
  demand (quotaConsumed && runUpdated && workOrderUpdated) (.lifecycleConflict "execution_run_is_not_active")
  check (Service.requireRun runId)

/-- One turn of the loop of `expire_stale_leases`. -/
def expireStaleLease (now : Time) (snapshot : LeaseSnapshot) : StepTx Bool := do
  let consumed ← guarded (Repository.consumeLease snapshot now .stale)
  if consumed then
    settleConsumedLease snapshot (Repository.requeueStaleActiveRun snapshot.executionRunId now)
      (Repository.requeueStaleActiveWorkOrder snapshot.workOrderId now) "stale_lease_state_conflict"
    return true
  else return false

/-- The loop of `expire_stale_leases`. -/
def expireLoop (now : Time) : List LeaseSnapshot → StepTx ExpiryResult
  | [] => return ⟨[], []⟩
  | snapshot :: rest => do
    let expired ← expireStaleLease now snapshot
    let result ← expireLoop now rest
    return if expired then ⟨snapshot.workOrderId :: result.requeuedWorkOrderIds,
      snapshot.executionRunId :: result.timedOutRunIds⟩ else result

/-- `expire_stale_leases`. -/
def expireStaleLeases : StepTx ExpiryResult := do
  let now ← now
  let snapshots ← ask (Repository.listStaleLeaseSnapshots now)
  expireLoop now snapshots

end Stepwise

/-- The calls that act on a lease. -/
inductive LeaseCall
  | heartbeatRun (runId : ℕ) (workerId : String)
  | completeRun (runId : ℕ) (workerId : String) (completion : ExecutionCompletion)
  | cancelWorkOrder (workOrderId : ℕ) (reason : Option String)
  | expireStaleLeases

/-- The call as an operation of the service. -/
def LeaseCall.operation : LeaseCall → Operation
  | heartbeatRun runId workerId => .heartbeatRun runId workerId
  | completeRun runId workerId completion => .completeRun runId workerId completion
  | cancelWorkOrder workOrderId reason => .cancelWorkOrder workOrderId reason
  | expireStaleLeases => .expireStaleLeases

/-- The steps of a call; its result is dropped. -/
def LeaseCall.program (P : Platform) (leaseSeconds : ℤ) : LeaseCall → StepTx Unit
  | heartbeatRun runId workerId => do let _ ← Stepwise.heartbeatRun leaseSeconds runId workerId
  | completeRun runId workerId completion => do let _ ← Stepwise.completeRun P runId workerId completion
  | cancelWorkOrder workOrderId reason => do let _ ← Stepwise.cancelWorkOrder P workOrderId reason
  | expireStaleLeases => do let _ ← Stepwise.expireStaleLeases

/-- Any number of calls. -/
abbrev LeaseMachine (ι : Type) := Machine ι Database Time ExecutionError Unit

/-- The machine after the turns of a scheduler, from the session `ss` at time `now`. Every call has its
own lease window; an abort is a fault of the database driver. -/
def runLeaseCalls {ι : Type} [DecidableEq ι] (P : Platform) (leaseSeconds : ι → ℤ) (calls : ι → LeaseCall)
    (ss : Session Database) (now : Time) (turns : List (Turn ι Time)) : LeaseMachine ι :=
  (Machine.start ss now fun i => (calls i).program P (leaseSeconds i)).runTurns .database turns

/-! ## What a commit does to one lease -/

section Exclusive

variable {ι : Type} (calls : ι → LeaseCall) (leaseSeconds : ι → ℤ) (l : Lease) (c : Commit ι Database Time Unit)

/-- The row of the lease is there. -/
def Lease.Held (s : Database) : Prop := ∃ x ∈ s.leases, x.id = l.id

/-- Between `s` and `s'` the lease was consumed, its run ended and its order moved on. -/
structure LeaseClosed (s s' : Database) : Prop where
  held : l.Held s
  consumed : ¬ l.Held s'
  run : ∃ r ∈ s.runs, r.id = l.executionRunId ∧ r.status.isActive = true ∧
    ∃ r' ∈ s'.runs, r'.id = l.executionRunId ∧ r'.status.isTerminal = true
  order : ∃ o ∈ s.orders, o.id = l.workOrderId ∧ o.status.isActive = true ∧
    ∃ o' ∈ s'.orders, o'.id = l.workOrderId ∧ o'.status.isActive = false

/-- Between `s` and `s'` the lease, its run and its order stayed as they were. -/
structure LeaseKept (s s' : Database) : Prop where
  lease : SameRow l.id s.leases s'.leases
  run : SameRow l.executionRunId s.runs s'.runs
  order : SameRow l.workOrderId s.orders s'.orders

/-- The commit consumed the lease. It was the owner's completion, a cancellation of the order, or an
expiry after the deadline. -/
structure Closes : Prop where
  call : (∃ completion, calls c.index = .completeRun l.executionRunId l.workerId completion) ∨
    (∃ reason, calls c.index = .cancelWorkOrder l.workOrderId reason) ∨
    (calls c.index = .expireStaleLeases ∧ ∀ x ∈ c.before.leases, x.id = l.id → x.expiresAt < c.time)
  closed : LeaseClosed l c.before c.after

/-- The commit is a heartbeat of the owner: it read the clock at some `t` no later than the deadline, and
the new deadline is its lease window after `t`. -/
structure Renews : Prop where
  call : calls c.index = .heartbeatRun l.executionRunId l.workerId
  lease : ∃ x ∈ c.before.leases, x.id = l.id ∧ ∃ t ≤ c.time, t ≤ x.expiresAt ∧
    x.renewed t (t + seconds (leaseSeconds c.index)) ∈ c.after.leases
  run : ∃ r ∈ c.before.runs, r.id = l.executionRunId ∧ r.status.isActive = true ∧
    ∃ r' ∈ c.after.runs, r'.id = l.executionRunId ∧ r'.status.isActive = true
  order : ∃ o ∈ c.before.orders, o.id = l.workOrderId ∧ o.status.isActive = true ∧
    ∃ o' ∈ c.after.orders, o'.id = l.workOrderId ∧ o'.status.isActive = true

/-- The commit left the lease alone; it was an expiry, or a call on another lease. -/
structure Leaves : Prop where
  call : ∀ workerId completion reason, calls c.index ≠ .heartbeatRun l.executionRunId workerId ∧
    calls c.index ≠ .completeRun l.executionRunId workerId completion ∧
    calls c.index ≠ .cancelWorkOrder l.workOrderId reason
  kept : LeaseKept l c.before c.after

/-- The commit cancelled the order when its lease was already gone and it waited for the next one. -/
structure Withdraws : Prop where
  call : ∃ reason, calls c.index = .cancelWorkOrder l.workOrderId reason
  gone : ¬ l.Held c.before
  leases : c.after.leases = c.before.leases
  runs : c.after.runs = c.before.runs
  workers : c.after.workers = c.before.workers
  profiles : c.after.profiles = c.before.profiles
  order : ∃ o ∈ c.before.orders, o.id = l.workOrderId ∧ o.status.isActive = false ∧ o.status.isTerminal = false ∧
    ∃ o' ∈ c.after.orders, o'.id = l.workOrderId ∧ o'.status = .cancelled

/-- Exclusive consumption of the lease, for a machine that started from `s₀`. -/
structure ExclusiveConsumption (s₀ : Database) (m : LeaseMachine ι) : Prop where
  commits : ∀ c ∈ m.log, Closes calls l c ∨ Renews calls leaseSeconds l c ∨ Leaves calls l c ∨ Withdraws calls l c
  /-- Once the lease is consumed, no call consumes or renews it again. -/
  exclusive : m.log.Pairwise fun later earlier => Closes calls l earlier → Leaves calls l later ∨ Withdraws calls l later
  /-- The lease expires only after the deadline that the last heartbeat before stored. -/
  deadline : ∀ newer e between h older, m.log = newer ++ e :: (between ++ h :: older) →
    calls e.index = .expireStaleLeases → Closes calls l e → Renews calls leaseSeconds l h →
    (∀ c ∈ between, ¬ Renews calls leaseSeconds l c) → ∀ x ∈ h.after.leases, x.id = l.id → x.expiresAt < e.time
  /-- A call commits if and only if it returns, and commits once; a call that raises commits nothing. -/
  returned : ∀ i, m.tasks i = .finished (.ok ()) ↔ ∃ c ∈ m.log, c.index = i
  once : (m.log.map Commit.index).Nodup
  /-- The database is changed by the commits and by nothing else. -/
  committed : Machine.History s₀ m.log m.session.db
  /-- An expiry that consumes no lease returns and changes nothing. -/
  idle : ∀ c ∈ m.log, calls c.index = .expireStaleLeases → c.after.leases = c.before.leases → c.after = c.before

end Exclusive

end Switchboard
