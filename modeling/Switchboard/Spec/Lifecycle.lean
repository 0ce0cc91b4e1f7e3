import Switchboard.Spec.Service

/-!
# Lifecycle effects

The abstract model of the execution plane: what one committed block of statements can
do to its records, with the rows it read and the guards they passed. Every write is a
keyed write (`Table.put`, `Table.remove`) or an append of a row with a generated id.

* `Effect`: the blocks.
* `Coherent`: leases, active runs and active orders move together.
* `Allowed`: a change of a status follows the transition tables, and a terminal record
  is frozen.
* `Block`: an effect of the service together with the states it went through.
* `Steps`: finitely many blocks, with the clock reading of each.
-/

namespace Switchboard

open Table Transaction

/-- The unique constraints of the schema: ids identify rows, and a lease is the only one of its
order and of its run. Orders, runs and leases are in id order. -/
structure Keys (s : Database) : Prop where
  orders : Ordered s.orders
  workers : UniqueKeys s.workers
  profiles : UniqueKeys s.profiles
  runs : Ordered s.runs
  leases : Ordered s.leases
  leaseOrder : (s.leases.map Lease.workOrderId).Nodup
  leaseRun : (s.leases.map Lease.executionRunId).Nodup

/-! ## Leases, runs and orders -/

/-- A lease backs the active run of its order: one worker, one lifecycle status. -/
structure Backed (s : Database) (l : Lease) (r : ExecutionRun) (o : WorkOrder) : Prop where
  run : r ∈ s.runs
  order : o ∈ s.orders
  runId : r.id = l.executionRunId
  orderId : o.id = l.workOrderId
  ofOrder : r.workOrderId = o.id
  worker : r.workerId = l.workerId
  active : r.status.isActive = true
  status : o.status = r.status.toWorkOrder

/-- Leases, active runs and active orders correspond. -/
structure Coherent (s : Database) : Prop where
  lease : ∀ l ∈ s.leases, ∃ r o, Backed s l r o
  run : ∀ r ∈ s.runs, r.status.isActive = true → ∃ l ∈ s.leases, l.executionRunId = r.id
  order : ∀ o ∈ s.orders, o.status.isActive = true → ∃ l ∈ s.leases, l.workOrderId = o.id
  started : ∀ r ∈ s.runs, r.status.isActive = true ∨ r.status.isTerminal = true
  runOrder : ∀ r ∈ s.runs, ∃ o ∈ s.orders, o.id = r.workOrderId

/-! ## Transitions -/

/-- A row of an order before and after a statement. -/
def OrderMoves (o o' : WorkOrder) : Prop :=
  (o'.status = o.status ∨ allowsWorkOrderTransition o.status o'.status = true) ∧
    (o.status.isTerminal = true → o' = o)

/-- A row of a run before and after a statement. -/
def RunMoves (r r' : ExecutionRun) : Prop :=
  (r'.status = r.status ∨ allowsRunTransition r.status r'.status = true) ∧
    (r.status.isTerminal = true → r' = r)

/-- No order and no run is lost, each change of a status is allowed by its transition
table, and a terminal row stays as it is. -/
structure Allowed (s s' : Database) : Prop where
  orders : RowsMove OrderMoves s.orders s'.orders
  runs : RowsMove RunMoves s.runs s'.runs

/-! ## Effects -/

/-- A move of an order that holds no lease. -/
structure UnleasedMove (o o' : WorkOrder) : Prop where
  id : o'.id = o.id
  spec : o'.spec = o.spec
  attempts : o'.attemptCount = o.attemptCount
  route : o'.route = o.route
  unleased : o.status.isActive = false
  target : o'.status.isActive = false
  allowed : allowsWorkOrderTransition o.status o'.status = true

/-- The run once a reserved quota was settled to `q`. -/
def settledRun (q : QuotaReservationState) (r : ExecutionRun) : ExecutionRun :=
  if r.route.quotaState = .reserved then r.withQuotaState q else r

/-- The order once the reserved quota of its run `r` was settled to `q`. -/
def settledOrder (q : QuotaReservationState) (r : ExecutionRun) (o : WorkOrder) : WorkOrder :=
  if r.route.quotaState = .reserved then o.withQuotaState q else o

/-- A run and its order agree that quota is reserved. -/
def ReservationAgrees (r : ExecutionRun) (o : WorkOrder) : Prop :=
  r.route.quotaState = .reserved → o.route.quotaState = some .reserved

/-- What closing a lease does to the profiles: the units of a reserved quota come back. -/
def Refunds (s : Database) (r : ExecutionRun) (workerId : String) (profiles : List RoutingProfile) : Prop :=
  if r.route.quotaState = .reserved ∧ 0 < r.route.reservedQuotaUnits then
    ∃ p ∈ s.profiles, p.workerId = workerId ∧
      p.quotaRemainingUnits ≤ p.quotaCapacityUnits - r.route.reservedQuotaUnits ∧
      profiles = put (p.refunded r.route.reservedQuotaUnits) s.profiles
  else profiles = s.profiles

/-- How a lease ends. -/
inductive Outcome
  | finish (completion : ExecutionCompletion) (reuse : RunReuse)
  | expire

namespace Outcome

def run (now : Time) : Outcome → ExecutionRun → ExecutionRun
  | finish completion reuse => Service.finishedRun completion reuse now
  | expire => ExecutionRun.timedOut now

def order (now : Time) : Outcome → WorkOrder → WorkOrder
  | finish completion _ => WorkOrder.finished completion.status.toWorkOrder now
      ((orText completion.terminalReason none).getD completion.status.value)
  | expire => WorkOrder.requeued now

/-- What was checked before the lease was consumed. -/
def Justified (P : Platform) (s : Database) (snapshot : LeaseSnapshot) : Outcome → Prop
  | finish completion reuse =>
    completion.status.isTerminal = true ∧
      Service.validateCompletionEvidence snapshot completion s = .ok () ∧
      Service.reuseCompletionValues P snapshot completion s = .ok reuse
  | expire => True

end Outcome

/-- The rows that closing a lease reads, and their guards. -/
structure Closing (P : Platform) (s : Database) (outcome : Outcome) (l : Lease) (r : ExecutionRun)
    (o : WorkOrder) (w : Worker) (profiles : List RoutingProfile) : Prop where
  lease : l ∈ s.leases
  run : r ∈ s.runs
  order : o ∈ s.orders
  worker : w ∈ s.workers
  runId : r.id = l.executionRunId
  orderId : o.id = l.workOrderId
  workerId : w.workerId = l.workerId
  runActive : r.status.isActive = true
  orderActive : o.status.isActive = true
  occupied : 0 < w.activeRunCount
  agrees : ReservationAgrees r o
  refunds : Refunds s r l.workerId profiles
  justified : outcome.Justified P s l.snapshot

/-- What a claim does to the profiles: the order's units are taken from the selected one. -/
def Reserves (s : Database) (workerId : String) (o : WorkOrder) (q : Service.QuotaClaim)
    (profiles : List RoutingProfile) : Prop :=
  (q.quotaState = .notRequired ∧ q.reservedQuotaUnits = 0 ∧ profiles = s.profiles) ∨
    ∃ p ∈ s.profiles, p.workerId = workerId ∧
      o.spec.requiredQuotaUnits ≤ p.quotaRemainingUnits ∧ p.quotaRemainingUnits ≤ p.quotaCapacityUnits ∧
      q.reservedQuotaUnits = o.spec.requiredQuotaUnits ∧
      q.quotaState = (if o.spec.requiredQuotaUnits ≠ 0 then .reserved else .notRequired) ∧
      profiles = put (p.reserved p.revision o.spec.requiredQuotaUnits) s.profiles

/-- The rows that a claim reads, and their guards. -/
structure Claiming (s : Database) (w : Worker) (o : WorkOrder) (q : Service.QuotaClaim)
    (profiles : List RoutingProfile) : Prop where
  worker : w ∈ s.workers
  order : o ∈ s.orders
  queued : o.status = .queued
  free : w.activeRunCount < w.maxConcurrency
  attempt : ∀ r ∈ s.runs, r.workOrderId = o.id → r.attemptNumber ≠ o.attemptCount + 1
  unleased : ∀ l ∈ s.leases, l.workOrderId ≠ o.id ∧ l.executionRunId ≠ nextId s.runs
  reserves : Reserves s w.workerId o q profiles
  unprofiled : q.profileRevision = none → profiles = s.profiles

/-- The rows that a heartbeat reads, and their guards. -/
structure Beating (s : Database) (l : Lease) (r : ExecutionRun) (o : WorkOrder) (now : Time) : Prop where
  lease : l ∈ s.leases
  run : r ∈ s.runs
  order : o ∈ s.orders
  runId : r.id = l.executionRunId
  orderId : o.id = l.workOrderId
  live : now ≤ l.expiresAt
  runActive : r.status.isActive = true
  orderActive : o.status.isActive = true
  agrees : ReservationAgrees r o

/-- The rows that a candidate lookup reads, and their guards. -/
structure Resolving (P : Platform) (s : Database) (now : Time) (l : Lease) (r : ExecutionRun) (o : WorkOrder)
    (identity : ReuseIdentity) (selected : Option ReuseCandidate) : Prop where
  lease : l ∈ s.leases
  run : r ∈ s.runs
  order : o ∈ s.orders
  runId : r.id = l.executionRunId
  orderId : o.id = l.workOrderId
  runActive : r.status.isActive = true
  policy : o.spec.reusePolicy ≠ .never
  valid : Service.validateReuseIdentity P o identity = .ok ()
  chosen : selected =
    Service.selectReuseCandidate P o l.workerId identity (P.reuseIdentityHash identity) r.id now s

/-- The database after a claim at `now`. -/
def claimedDatabase (s : Database) (now expiresAt : Time) (w : Worker) (o : WorkOrder) (order : OrderRoute)
    (route : RunRoute) (profiles : List RoutingProfile) : Database :=
  { s with
    workers := put w.slotReserved s.workers
    profiles := profiles
    orders := put (o.claimed now order) s.orders
    runs := s.runs ++ [Repository.activeRun (o.claimed now order) w.workerId now expiresAt route (nextId s.runs)]
    leases := s.leases ++ [⟨nextId s.leases, o.id, nextId s.runs, w.workerId, expiresAt, now⟩] }

/-- The database after a heartbeat at `now`. -/
def beatenDatabase (s : Database) (now expiresAt : Time) (l : Lease) (r : ExecutionRun) (o : WorkOrder) :
    Database :=
  { s with
    leases := put (l.renewed now expiresAt) s.leases
    runs := put ((settledRun .consumed r).started now expiresAt) s.runs
    orders := put ((settledOrder .consumed r o).started now) s.orders }

/-- The database after a lease was closed at `now`. -/
def closedDatabase (s : Database) (now : Time) (outcome : Outcome) (l : Lease) (r : ExecutionRun)
    (o : WorkOrder) (w : Worker) (profiles : List RoutingProfile) : Database :=
  { s with
    leases := remove l.id s.leases
    profiles := profiles
    runs := put (outcome.run now (settledRun .released r)) s.runs
    orders := put (outcome.order now (settledOrder .released r o)) s.orders
    workers := put w.slotReleased s.workers }

/-- No run of the worker holds a reservation. -/
def Idle (s : Database) (workerId : String) : Prop :=
  ∀ r ∈ s.runs, r.workerId = workerId → r.route.quotaState ≠ .reserved

/-- What only some operations do: rewrite and create routing profiles, claim orders, and record a candidate lookup on a
run. -/
structure Scope where
  edits : Bool
  creates : Bool
  claims : Bool
  resolves : ℕ → Bool

namespace Scope

def lifecycle : Scope := ⟨false, false, false, fun _ => false⟩

def editing : Scope := { lifecycle with edits := true }

def creating : Scope := { lifecycle with creates := true }

def claiming : Scope := { lifecycle with claims := true }

def any : Scope := ⟨true, true, true, fun _ => true⟩

end Scope

/-- A new snapshot of a trusted manifest. -/
structure NewManifest (P : Platform) (s : Database) (m : CommandManifest) : Prop where
  id : m.id = nextId s.manifests
  fresh : Repository.getManifest m.metadata.name m.metadata.version s = none
  source : ∃ d ∈ P.manifests, m.metadata = d.metadata ∧ m.digest = P.manifestDigest d

/-- The order carries the id and the name of a stored manifest. -/
def NamesManifest (s : Database) (o : WorkOrder) : Prop :=
  ∃ m ∈ s.manifests, m.id = o.spec.manifestId ∧ m.metadata.name = o.spec.manifestName ∧
    m.metadata.version = o.spec.manifestVersion

/-- What one committed block at time `now` can do. -/
inductive Effect (P : Platform) (scope : Scope) (now : Time) (s : Database) : Database → Prop
  | idle : Effect P scope now s s
  | manifest (m : CommandManifest) (hnew : NewManifest P s m) :
      Effect P scope now s { s with manifests := s.manifests ++ [m] }
  | createOrder (o : WorkOrder) (hid : o.id = nextId s.orders) (hstatus : o.status = .pendingApproval)
      (hattempts : o.attemptCount = 0) (hroute : o.route = {}) (hunits : 0 ≤ o.spec.requiredQuotaUnits)
      (hsha : ∃ sha, o.spec.commitSha = P.lower sha) (hmanifest : NamesManifest s o) :
      Effect P scope now s { s with orders := s.orders ++ [o] }
  | moveOrder (o o' : WorkOrder) (ho : o ∈ s.orders) (hmove : UnleasedMove o o') :
      Effect P scope now s { s with orders := put o' s.orders }
  | insertWorker (w : Worker) (hnew : ∀ x ∈ s.workers, x.workerId ≠ w.workerId) (hcount : w.activeRunCount = 0) :
      Effect P scope now s { s with workers := s.workers ++ [w] }
  | updateWorker (w w' : Worker) (hw : w ∈ s.workers) (hid : w'.workerId = w.workerId)
      (hcount : w'.activeRunCount = w.activeRunCount) :
      Effect P scope now s { s with workers := put w' s.workers }
  | insertProfile (p : RoutingProfile) (hnew : ∀ x ∈ s.profiles, x.workerId ≠ p.workerId)
      (hunits : 0 ≤ p.quotaRemainingUnits ∧ p.quotaRemainingUnits ≤ p.quotaCapacityUnits) (hfirst : p.revision = 1)
      (hcreates : scope.creates = true) :
      Effect P scope now s { s with profiles := s.profiles ++ [p] }
  | rewriteProfile (p p' : RoutingProfile) (hp : p ∈ s.profiles) (hid : p'.workerId = p.workerId)
      (hrevision : p'.revision = p.revision + 1)
      (hunits : 0 ≤ p'.quotaRemainingUnits ∧ p'.quotaRemainingUnits ≤ p'.quotaCapacityUnits)
      (hidle : Idle s p.workerId) (hedits : scope.edits = true) (hlimit : p.revision < maxRoutingRevision) :
      Effect P scope now s { s with profiles := put p' s.profiles }
  | claim (w : Worker) (o : WorkOrder) (q : Service.QuotaClaim) (count : ℕ) (pin : Bool) (expiresAt : Time)
      (profiles : List RoutingProfile) (h : Claiming s w o q profiles) (hclaims : scope.claims = true) :
      Effect P scope now s (claimedDatabase s now expiresAt w o (Service.orderRoute w q count pin now)
        (Service.runRoute o q count pin now) profiles)
  | heartbeat (l : Lease) (r : ExecutionRun) (o : WorkOrder) (expiresAt : Time) (h : Beating s l r o now) :
      Effect P scope now s (beatenDatabase s now expiresAt l r o)
  | close (outcome : Outcome) (l : Lease) (r : ExecutionRun) (o : WorkOrder) (w : Worker)
      (profiles : List RoutingProfile) (h : Closing P s outcome l r o w profiles) :
      Effect P scope now s (closedDatabase s now outcome l r o w profiles)
  | resolve (l : Lease) (r : ExecutionRun) (o : WorkOrder) (identity : ReuseIdentity)
      (selected : Option ReuseCandidate) (h : Resolving P s now l r o identity selected)
      (hresolves : scope.resolves r.id = true) :
      Effect P scope now s
        { s with runs := put (Service.resolvedRun identity (P.reuseIdentityHash identity) selected r) s.runs }

/-- The operations with which an operator rewrites a routing profile. -/
def Operation.edits : Operation → Bool
  | .replaceRoutingProfile .. | .resetRoutingQuota .. => true
  | _ => false

/-- What else than the lifecycle of its records an operation touches. -/
def Operation.scope : Operation → Scope
  | .replaceRoutingProfile .. | .resetRoutingQuota .. => .editing
  | .createRoutingProfile .. => .creating
  | .checkout .. => .claiming
  | .resolveReuseCandidate runId .. => { Scope.lifecycle with resolves := fun id => id == runId }
  | _ => .lifecycle

/-- One block of the service: its effect, and the states it went through. -/
structure Block (P : Platform) (scope : Scope) (now : Time) (ss ss' : Session Database) : Prop where
  effect : Effect P scope now ss.db ss'.db
  trail : Grows Allowed ss ss'

/-- Finitely many blocks, at the given times. -/
inductive Steps (P : Platform) (scope : Scope) : List Time → Session Database → Session Database → Prop
  | nil (ss : Session Database) : Steps P scope [] ss ss
  | cons {t : Time} {ts : List Time} {ss s₁ ss' : Session Database} (h : Block P scope t ss s₁)
      (rest : Steps P scope ts s₁ ss') : Steps P scope (t :: ts) ss ss'

end Switchboard
