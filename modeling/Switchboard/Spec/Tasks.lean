import Switchboard.Lib.Program
import Switchboard.Lib.Table
import Switchboard.Spec.Routing

/-!
# Tasks and their leases

The planning plane: `TaskService` with its policies and repositories. An operation is a
program whose steps are the calls of the repositories; a call that writes takes SQLite's
write slot. Extensions that are only notified are left out.

* `TaskStore`: the tables of tasks, dependencies, leases and agents.
* `Tasks.checkout`, `Tasks.heartbeat`, `Tasks.complete`, `Tasks.abandon`: the operations of
  an agent; each returns its answer with the lease it has validated.
* `Tasks.createTask`, `Tasks.updateTask`, `Tasks.deleteTask`: the operations of a planner.
* `runTasks`: a sequence of operations, each atomic.
-/

namespace Switchboard

open Table Transaction

/-! ## Rows -/

inductive TaskStatus
  | pending | inProgress | completed
  deriving DecidableEq, Repr

/-- `Task`. -/
structure TaskRow where
  id : ℤ
  title : String
  description : String
  priority : ℤ
  status : TaskStatus
  completedNotes : Option String
  deriving DecidableEq, Repr

/-- `Lease`. -/
structure TaskLease where
  id : ℕ
  taskId : ℤ
  agentId : String
  expiresAt : Time
  deriving DecidableEq, Repr

/-- `SystemState`, as far as a checkout reads it. -/
structure SystemState where
  maintenanceMode : Bool
  message : Option String
  deriving DecidableEq, Repr

structure TaskStore where
  tasks : List TaskRow
  /-- `TaskDependency`: a task and one that it depends on. -/
  dependencies : List (ℤ × ℤ)
  leases : List TaskLease
  /-- `autoincrement`: the id of the next lease. -/
  nextLeaseId : ℕ
  agents : List String
  systemState : SystemState
  deriving DecidableEq, Repr

def TaskStore.init : TaskStore := ⟨[], [], [], 0, [], ⟨false, none⟩⟩

/-- `TaskRecord`. -/
structure TaskRecord where
  row : TaskRow
  dependsOn : List ℤ
  deriving DecidableEq, Repr

inductive TaskError
  | selfDependency
  | missingDependencies (ids : List ℤ)
  | taskNotFound
  | runtime (message : String)
  | integrity
  /-- The database driver fails. -/
  | database
  deriving DecidableEq, Repr

/-! ## Repositories -/

namespace TaskRepository

/-- `sorted(set(ids))`. -/
def sortedIds (ids : List ℤ) : List ℤ := (ids.eraseDups).mergeSort fun a b => decide (a ≤ b)

/-- `dependencies_of`. -/
def dependenciesOf (taskId : ℤ) (s : TaskStore) : List ℤ :=
  sortedIds ((s.dependencies.filter fun e => e.1 == taskId).map Prod.snd)

def toRecord (s : TaskStore) (t : TaskRow) : TaskRecord := ⟨t, dependenciesOf t.id s⟩

/-- `session.get(Task, task_id)`. -/
def getRow (taskId : ℤ) (s : TaskStore) : Option TaskRow := s.tasks.find? fun t => t.id == taskId

/-- `get`. -/
def get (taskId : ℤ) (s : TaskStore) : Option TaskRecord := (getRow taskId s).map (toRecord s)

/-- `ORDER BY priority DESC, id`. -/
def candidateBefore (a b : TaskRow) : Bool :=
  decide (b.priority < a.priority) || (decide (a.priority = b.priority) && decide (a.id ≤ b.id))

/-- `list_candidates`. -/
def listCandidates (taskId : Option ℤ) (s : TaskStore) : List TaskRecord :=
  match taskId with
  | some id => (get id s).toList
  | none => (s.tasks.mergeSort candidateBefore).map (toRecord s)

/-- `dependencies_completed`: of the dependencies that exist. -/
def dependenciesCompleted (taskId : ℤ) (s : TaskStore) : Bool :=
  s.tasks.all fun t => !(dependenciesOf taskId s).contains t.id || t.status == .completed

/-- `existing_ids`. -/
def existingIds (ids : List ℤ) (s : TaskStore) : List ℤ := (s.tasks.map TaskRow.id).filter ids.contains

def updateTasks (p : TaskRow → Bool) (f : TaskRow → TaskRow) (s : TaskStore) : TaskStore × Bool :=
  ({ s with tasks := updateWhere p f s.tasks }, affectedOne p s.tasks)

/-- `claim_pending`, up to the read of the claimed row. -/
def claimPending (taskId : ℤ) : TaskStore → TaskStore × Bool :=
  updateTasks (fun t => t.id == taskId && t.status == .pending) fun t => { t with status := .inProgress }

/-- The columns that `save` writes. -/
def savedRow (record : TaskRecord) (t : TaskRow) : TaskRow :=
  { t with
    title := record.row.title, description := record.row.description, status := record.row.status
    completedNotes := record.row.completedNotes }

/-- `save`; the row may be gone. -/
def save (record : TaskRecord) (s : TaskStore) : TaskStore × Bool :=
  ({ s with tasks := updateWhere (fun t => t.id == record.row.id) (savedRow record) s.tasks },
    (getRow record.row.id s).isSome)

/-- `create`, with the id that the database has chosen. -/
def create (newId : ℤ) (title description : String) (dependsOn : List ℤ) (priority : ℤ) (s : TaskStore) :
    TaskStore × Bool :=
  if (getRow newId s).isSome then (s, false)
  else
    ({ s with
        tasks := s.tasks ++ [⟨newId, title, description, priority, .pending, none⟩]
        dependencies := s.dependencies ++ (sortedIds dependsOn).map fun d => (newId, d) }, true)

/-- The arguments of `update`; `none` leaves a column as it is. -/
structure TaskChanges where
  title : Option String
  description : Option String
  status : Option TaskStatus
  dependsOn : Option (List ℤ)
  completedNotes : Option String
  priority : Option ℤ

/-- The columns that `update` writes. -/
def updatedRow (changes : TaskChanges) (t : TaskRow) : TaskRow :=
  { t with
    title := changes.title.getD t.title
    description := changes.description.getD t.description
    status := changes.status.getD t.status
    completedNotes :=
      if changes.completedNotes.isSome ∨ changes.status = some .completed then changes.completedNotes
      else t.completedNotes
    priority := changes.priority.getD t.priority }

/-- `update`; the row may be gone. -/
def update (taskId : ℤ) (changes : TaskChanges) (s : TaskStore) : TaskStore × Bool :=
  if (getRow taskId s).isSome then
    ({ s with
        tasks := updateWhere (fun t => t.id == taskId) (updatedRow changes) s.tasks
        dependencies :=
          match changes.dependsOn with
          | none => s.dependencies
          | some deps => (s.dependencies.filter fun e => e.1 != taskId) ++ (sortedIds deps).map fun d => (taskId, d) },
      true)
  else (s, false)

/-- `delete`: the dependencies in both directions, and the row if there is one. -/
def delete (taskId : ℤ) (s : TaskStore) : TaskStore × Bool :=
  ({ s with
      tasks := deleteWhere (fun t => t.id == taskId) s.tasks
      dependencies := s.dependencies.filter fun e => e.1 != taskId && e.2 != taskId },
    (getRow taskId s).isSome)

end TaskRepository

/-- `SqlAlchemyAgentRepository.ensure`. -/
def AgentRepository.ensure (agentId : String) (s : TaskStore) : TaskStore × Bool :=
  ({ s with agents := if s.agents.contains agentId then s.agents else s.agents ++ [agentId] }, true)

namespace LeaseRepository

/-- `for_task`. -/
def forTask (taskId : ℤ) (s : TaskStore) : Option TaskLease := s.leases.find? fun l => l.taskId == taskId

/-- The clause of `expire_stale`. -/
def expired (now : Time) (l : TaskLease) : Bool := decide (l.expiresAt < now)

/-- The ids that `expire_stale` returns. -/
def expiredIds (now : Time) (s : TaskStore) : List ℤ := (s.leases.filter (expired now)).map TaskLease.taskId

/-- `expire_stale` and the loop over the expired ids that follows it. With an expired lease, the transaction
holds the write slot from the deletion on. -/
def sweep (now : Time) (s : TaskStore) : TaskStore × Bool :=
  ({ s with
      leases := deleteWhere (fun l => (expiredIds now s).contains l.taskId) s.leases
      tasks := updateWhere (fun t => (expiredIds now s).contains t.id && t.status != .pending)
        (fun t => { t with status := .pending, completedNotes := none }) s.tasks }, true)

/-- `save`: the lease of the task is updated, or inserted. -/
def save (taskId : ℤ) (agentId : String) (expiresAt : Time) (s : TaskStore) : TaskStore × Bool :=
  match forTask taskId s with
  | none =>
    ({ s with
        leases := s.leases ++ [⟨s.nextLeaseId, taskId, agentId, expiresAt⟩], nextLeaseId := s.nextLeaseId + 1 }, true)
  | some _ =>
    ({ s with leases := updateWhere (fun l => l.taskId == taskId) (fun l => { l with agentId, expiresAt }) s.leases },
      true)

/-- `delete`. -/
def delete (taskId : ℤ) (s : TaskStore) : TaskStore × Bool :=
  ({ s with leases := deleteWhere (fun l => l.taskId == taskId) s.leases }, true)

end LeaseRepository

/-! ## Policies -/

/-- `TaskAvailabilityPolicy.is_available`. -/
def isAvailable (task : TaskRow) (dependenciesCompleted : Bool) (lease : Option TaskLease) (now : Time) : Bool :=
  task.status == .pending && dependenciesCompleted && !(lease.any fun l => decide (now < l.expiresAt))

namespace LeasePolicy

/-- `can_heartbeat`. -/
def canHeartbeat (lease : Option TaskLease) (agentId : String) (now : Time) : Bool :=
  lease.any fun l => l.agentId == agentId && decide (now < l.expiresAt)

/-- `can_complete`. -/
def canComplete (lease : Option TaskLease) (agentId : String) (now : Time) : Bool :=
  match lease with
  | none => true
  | some l => l.agentId == agentId || decide (l.expiresAt ≤ now)

/-- `can_abandon`. -/
def canAbandon (lease : Option TaskLease) (agentId : String) (now : Time) : Bool :=
  match lease with
  | none => true
  | some l => l.agentId == agentId || decide (l.expiresAt ≤ now)

end LeasePolicy

/-! ## The service -/

/-- `CheckoutResult`. -/
structure Tasks.CheckoutResult where
  task : Option TaskRecord
  lease : Option TaskLease
  reason : Option String
  message : Option String
  deriving DecidableEq, Repr

/-- The answer of an operation. -/
inductive TaskAnswer
  | checkout (result : Tasks.CheckoutResult)
  /-- `HeartbeatResult`, with the lease that was validated. -/
  | heartbeat (ok : Bool) (taskId : ℤ) (validated : Option TaskLease)
  /-- `CompletionResult`, with the lease that was validated. -/
  | completion (ok : Bool) (task : Option TaskRecord) (validated : Option TaskLease)
  /-- The same for `abandon`. -/
  | abandoned (ok : Bool) (taskId : ℤ) (validated : Option TaskLease)
  | record (task : TaskRecord)
  | deleted (deleted : Bool)
  deriving DecidableEq, Repr

/-- An operation, call by call. -/
abbrev TaskTx := Program TaskStore Time TaskError

namespace Tasks

open Program

/-- `TaskRecord.with_status`. -/
def withStatus (record : TaskRecord) (status : TaskStatus) (completedNotes : Option String) : TaskRecord :=
  { record with row := { record.row with status, completedNotes } }

/-- `session.flush()`: a statement is sent only if it changes something, and the write slot is not taken
otherwise. -/
def flush (st : TaskStore → TaskStore × Bool) : TaskTx Bool := do
  let unchanged ← ask fun s => decide (st s = (s, true))
  if unchanged then return true else guarded st

/-- `_tasks.save`. -/
def saveTask (record : TaskRecord) : TaskTx Unit := do
  let saved ← flush (TaskRepository.save record)
  demand saved (.runtime s!"Task {record.row.id} does not exist")

/-- `_dependencies_completed_from_records`, over the dependencies that are left: `none` at the first one
without a status. -/
def dependenciesCompletedFromRecords (statuses : List (ℤ × TaskStatus)) : List ℤ → Option Bool
  | [] => some true
  | d :: deps =>
    match (statuses.find? fun e => e.1 == d).map Prod.snd with
    | none => none
    | some status => if status = .completed then dependenciesCompletedFromRecords statuses deps else some false

/-- `_agents.ensure`. -/
def ensureAgent (agentId : String) : TaskTx Unit := do
  let _ ← flush (AgentRepository.ensure agentId)
  return ()

/-- The sweep of `checkout`. -/
def expireStale (now : Time) : TaskTx Unit := do
  let _ ← flush (LeaseRepository.sweep now)
  return ()

section service

-- `lease_duration_seconds()`
variable (leaseSeconds : ℤ)

/-- `LeasePolicy.deadline`. -/
def deadline (now : Time) : Time := now + seconds leaseSeconds

/-- The claim of an available candidate. -/
def claim (agentId : String) (now : Time) (task : TaskRecord) : TaskTx (Option CheckoutResult) := do
  let claimed ← guarded (TaskRepository.claimPending task.row.id)
  if claimed then
    let saved ← ask (TaskRepository.get task.row.id)
    let _ ← guarded (LeaseRepository.delete task.row.id)
    let _ ← guarded (LeaseRepository.save task.row.id agentId (deadline leaseSeconds now))
    let persisted ← ask (LeaseRepository.forTask task.row.id)
    return some ⟨saved, persisted, none, none⟩
  else return none

/-- The result of `checkout` after its loop. -/
def notAvailable (taskId : Option ℤ) : CheckoutResult :=
  ⟨none, none, some (if taskId.isSome then "task_not_available" else "no_available_tasks"), none⟩

/-- The loop of `checkout` over the candidates that are left. -/
def scan (agentId : String) (now : Time) (taskId : Option ℤ) (statuses : List (ℤ × TaskStatus)) :
    List TaskRecord → TaskTx CheckoutResult
  | [] => return notAvailable taskId
  | task :: rest => do
    let known := if taskId.isSome then none else dependenciesCompletedFromRecords statuses task.dependsOn
    let completed ← match known with
      | some completed => pure completed
      | none => ask (TaskRepository.dependenciesCompleted task.row.id)
    let lease ← ask (LeaseRepository.forTask task.row.id)
    if isAvailable task.row completed lease now then
      let claimed ← claim leaseSeconds agentId now task
      match claimed with
      | some result => return result
      | none => if taskId.isSome then return notAvailable taskId else scan agentId now taskId statuses rest
    else if taskId.isSome then return notAvailable taskId
    else scan agentId now taskId statuses rest

/-- `checkout` out of maintenance, at the time it has read. -/
def checkoutAt (agentId : String) (taskId : Option ℤ) (now : Time) : TaskTx CheckoutResult := do
  ensureAgent agentId
  expireStale now
  let candidates ← ask (TaskRepository.listCandidates taskId)
  scan leaseSeconds agentId now taskId (candidates.map fun c => (c.row.id, c.row.status)) candidates

/-- `checkout`. -/
def checkout (agentId : String) (taskId : Option ℤ) : TaskTx TaskAnswer := do
  let state ← ask TaskStore.systemState
  if state.maintenanceMode then return .checkout ⟨none, none, some "maintenance_mode", state.message⟩
  else
    let now ← now
    let result ← checkoutAt leaseSeconds agentId taskId now
    return .checkout result

/-- `heartbeat` at the time it has read. -/
def heartbeatAt (agentId : String) (taskId : ℤ) (now : Time) : TaskTx TaskAnswer := do
  let lease ← ask (LeaseRepository.forTask taskId)
  if LeasePolicy.canHeartbeat lease agentId now then
    let _ ← flush (LeaseRepository.save taskId agentId (deadline leaseSeconds now))
    return .heartbeat true taskId lease
  else return .heartbeat false taskId lease

/-- `heartbeat`. The refreshed record carries the agent of the lease, which the policy has compared with
the caller. -/
def heartbeat (agentId : String) (taskId : ℤ) : TaskTx TaskAnswer := do
  let now ← now
  heartbeatAt leaseSeconds agentId taskId now

end service

/-- `notes or None`. -/
def normalizedNotes : Option String → Option String
  | some "" => none
  | notes => notes

/-- `complete` at the time it has read. -/
def completeAt (agentId : String) (taskId : ℤ) (notes : Option String) (now : Time) : TaskTx TaskAnswer := do
  let lease ← ask (LeaseRepository.forTask taskId)
  if LeasePolicy.canComplete lease agentId now then
    let task ← ask (TaskRepository.get taskId)
    match task with
    | none => return .completion false none lease
    | some task =>
      saveTask (withStatus task .completed (normalizedNotes notes))
      let saved ← ask (TaskRepository.get taskId)
      let _ ← guarded (LeaseRepository.delete taskId)
      return .completion true saved lease
  else return .completion false none lease

/-- `complete`. -/
def complete (agentId : String) (taskId : ℤ) (notes : Option String) : TaskTx TaskAnswer := do
  let now ← now
  completeAt agentId taskId notes now

/-- `abandon` at the time it has read. -/
def abandonAt (agentId : String) (taskId : ℤ) (now : Time) : TaskTx TaskAnswer := do
  let lease ← ask (LeaseRepository.forTask taskId)
  if LeasePolicy.canAbandon lease agentId now then
    let task ← ask (TaskRepository.get taskId)
    match task with
    | none => return .abandoned false taskId lease
    | some task =>
      saveTask (withStatus task .pending none)
      let _ ← guarded (LeaseRepository.delete taskId)
      return .abandoned true taskId lease
  else return .abandoned false taskId lease

/-- `abandon`. -/
def abandon (agentId : String) (taskId : ℤ) : TaskTx TaskAnswer := do
  let now ← now
  abandonAt agentId taskId now

/-- `_ensure_dependencies_exist`. -/
def ensureDependenciesExist (deps : List ℤ) : TaskTx Unit := do
  let existing ← ask (TaskRepository.existingIds deps)
  let missing := TaskRepository.sortedIds (deps.filter fun d => !existing.contains d)
  demand missing.isEmpty (.missingDependencies missing)

/-- `create_task`. -/
def createTask (newId : ℤ) (title description : String) (dependsOn : List ℤ) (priority : ℤ) : TaskTx TaskAnswer := do
  let deps := TaskRepository.sortedIds dependsOn
  ensureDependenciesExist deps
  let created ← guarded (TaskRepository.create newId title description deps priority)
  demand created .integrity
  let task ← ask (TaskRepository.get newId)
  let task ← demandSome task .database
  return .record task

/-- `_tasks.update`: new dependencies are written in any case. -/
def updateRow (taskId : ℤ) (changes : TaskRepository.TaskChanges) : TaskTx Bool :=
  if changes.dependsOn.isSome then guarded (TaskRepository.update taskId changes)
  else flush (TaskRepository.update taskId changes)

/-- The lease of a task whose new status is pending or completed. -/
def deleteLease (taskId : ℤ) (status : Option TaskStatus) : TaskTx Bool :=
  if status = some .pending ∨ status = some .completed then guarded (LeaseRepository.delete taskId)
  else return true

/-- `update_task`. -/
def updateTask (taskId : ℤ) (changes : TaskRepository.TaskChanges) : TaskTx TaskAnswer := do
  demand (!(changes.dependsOn.any fun deps => deps.contains taskId)) .selfDependency
  let task ← ask (TaskRepository.get taskId)
  demand task.isSome .taskNotFound
  let deps := changes.dependsOn.map TaskRepository.sortedIds
  ensureDependenciesExist (deps.getD [])
  let updated ← updateRow taskId { changes with dependsOn := deps }
  demand updated .taskNotFound
  let _ ← deleteLease taskId changes.status
  let task ← ask (TaskRepository.get taskId)
  let task ← demandSome task .database
  return .record task

/-- `delete_task`. -/
def deleteTask (taskId : ℤ) : TaskTx TaskAnswer := do
  let deleted ← guarded (TaskRepository.delete taskId)
  let _ ← guarded (LeaseRepository.delete taskId)
  return .deleted deleted

end Tasks

/-! ## Sequences of operations -/

inductive TaskOperation
  | checkout (agentId : String) (taskId : Option ℤ)
  | heartbeat (agentId : String) (taskId : ℤ)
  | complete (agentId : String) (taskId : ℤ) (notes : Option String)
  | abandon (agentId : String) (taskId : ℤ)
  | createTask (newId : ℤ) (title description : String) (dependsOn : List ℤ) (priority : ℤ)
  | updateTask (taskId : ℤ) (changes : TaskRepository.TaskChanges)
  | deleteTask (taskId : ℤ)

/-- The steps of an operation. -/
def TaskOperation.program (leaseSeconds : ℤ) : TaskOperation → TaskTx TaskAnswer
  | checkout agentId taskId => Tasks.checkout leaseSeconds agentId taskId
  | heartbeat agentId taskId => Tasks.heartbeat leaseSeconds agentId taskId
  | complete agentId taskId notes => Tasks.complete agentId taskId notes
  | abandon agentId taskId => Tasks.abandon agentId taskId
  | createTask newId title description dependsOn priority =>
    Tasks.createTask newId title description dependsOn priority
  | updateTask taskId changes => Tasks.updateTask taskId changes
  | deleteTask taskId => Tasks.deleteTask taskId

/-- One operation with the time of its clock. -/
structure TaskCall where
  now : Time
  leaseSeconds : ℤ
  operation : TaskOperation

/-- The operation alone, as a transaction. -/
def TaskCall.transaction (c : TaskCall) : Transaction.Tx TaskStore TaskError TaskAnswer :=
  (c.operation.program c.leaseSeconds).run fun _ => c.now

/-- One operation: committed whole, or rolled back. -/
def stepTasks (ss : Session TaskStore) (c : TaskCall) : Session TaskStore := commit c.transaction ss

/-- The session after the operations, from the empty store. -/
def runTasks (calls : List TaskCall) : Session TaskStore := calls.foldl stepTasks ⟨TaskStore.init, []⟩

end Switchboard
