import Switchboard.Spec.Capabilities
import Mathlib.Data.String.Basic

/-!
# Eligibility and ranking of workers

`routing.py`: the pure evaluation of one worker for one request, and the deterministic
order in which eligible candidates of a `CHEAPEST_CAPABLE` order are ranked.
-/

namespace Switchboard

def routingSchemaVersion : ℤ := 1

def maxRoutingInteger : ℤ := 2147483647

/-- The repository of workers registered before repositories were declared. -/
def defaultRepository : String := "Nobodyworld/dev-agent-switchboard"

/-- `dt.timedelta(seconds=n)`. -/
def seconds (n : ℤ) : Time := n * 1000000

structure RoutingCandidate where
  worker : Worker
  profile : Option RoutingProfile

structure RoutingEvaluationRequest where
  repositoryFullName : String
  routingPolicy : RoutingPolicy
  preferredExecutor : Option String
  maximumCostUnits : Option ℤ
  requiredQuotaUnits : ℤ
  manifestRequirements : List (String × Json)
  requestedRequirements : List (String × Json)
  networkPolicy : NetworkPolicy

structure RoutingEligibility where
  worker : Worker
  profile : Option RoutingProfile
  candidate : Option RoutingCandidate
  reasons : List String

/-- `_valid_profile`. -/
def validProfile (p : RoutingProfile) : Bool :=
  p.schemaVersion == routingSchemaVersion &&
    decide (0 ≤ p.estimatedCostUnitsPerRun ∧ p.estimatedCostUnitsPerRun ≤ maxRoutingInteger) &&
    decide (0 ≤ p.quotaCapacityUnits ∧ p.quotaCapacityUnits ≤ maxRoutingInteger) &&
    decide (0 ≤ p.quotaRemainingUnits ∧ p.quotaRemainingUnits ≤ p.quotaCapacityUnits) &&
    decide (0 ≤ p.routingPriority ∧ p.routingPriority ≤ maxRoutingInteger) &&
    decide (1 ≤ p.revision ∧ p.revision ≤ maxRoutingInteger)

/-- `_fresh`. -/
def fresh (value : Option Time) (now : Time) (freshnessSeconds : ℤ) : Bool :=
  match value with
  | none => false
  | some v => decide (0 < freshnessSeconds) && decide (v ≥ now - seconds freshnessSeconds)

/-- The repositories a worker serves. -/
def servedRepositories (d : WorkerDeclaration) : List String :=
  if d.repositoryFullNames = [] then [defaultRepository] else d.repositoryFullNames

/-- `evaluate_routing_candidate`. -/
def evaluateRoutingCandidate (P : Platform) (worker : Worker) (profile : Option RoutingProfile)
    (request : RoutingEvaluationRequest) (now : Time) (heartbeatFreshness pollFreshness : ℤ) :
    RoutingEligibility :=
  let repository :=
    if request.repositoryFullName ∉ servedRepositories worker.declaration then ["worker_repository_unavailable"]
    else []
  let pin :=
    match request.preferredExecutor with
    | some preferred => if worker.workerId ≠ preferred then ["preferred_executor_mismatch"] else []
    | none => []
  let profileState :=
    if request.routingPolicy = .cheapestCapable then
      match profile with
      | none => ["routing_profile_missing"]
      | some p =>
        if !validProfile p then ["routing_profile_invalid"]
        else if !p.enabled then ["routing_profile_disabled"]
        else []
    else []
  let available :=
    (if worker.status ≠ .online then ["worker_not_available"] else []) ++
    (if worker.activeRunCount ≥ worker.maxConcurrency then ["worker_concurrency_limit"] else []) ++
    (if !fresh (some worker.lastHeartbeatAt) now heartbeatFreshness then ["worker_heartbeat_stale"] else []) ++
    (if !fresh worker.lastCheckoutPollAt now pollFreshness then ["worker_checkout_poll_stale"] else [])
  let capability :=
    matchWorkerCapabilities P worker.declaration request.manifestRequirements request.requestedRequirements
      request.networkPolicy
  let cost :=
    match profile with
    | some p =>
      if request.routingPolicy = .cheapestCapable ∧ validProfile p = true then
        (match request.maximumCostUnits with
          | some maximum => if p.estimatedCostUnitsPerRun > maximum then ["routing_cost_ceiling_exceeded"] else []
          | none => []) ++
        (if p.quotaRemainingUnits < request.requiredQuotaUnits then ["routing_quota_insufficient"] else [])
      else []
    | none => []
  let reasons := (repository ++ pin ++ profileState ++ available ++ capability ++ cost).eraseDups
  if reasons = [] then ⟨worker, profile, some ⟨worker, profile⟩, []⟩ else ⟨worker, profile, none, reasons⟩

/-- The comparison of `rank_routing_candidates`, for candidates that carry profiles. -/
def compareCandidates (requiredQuotaUnits : ℤ) (a b : Worker × RoutingProfile) : Ordering :=
  if a.2.estimatedCostUnitsPerRun ≠ b.2.estimatedCostUnitsPerRun then
    if a.2.estimatedCostUnitsPerRun < b.2.estimatedCostUnitsPerRun then .lt else .gt
  else if a.2.quotaRemainingUnits - requiredQuotaUnits ≠ b.2.quotaRemainingUnits - requiredQuotaUnits then
    if a.2.quotaRemainingUnits - requiredQuotaUnits > b.2.quotaRemainingUnits - requiredQuotaUnits then .lt
    else .gt
  else if a.1.activeRunCount * b.1.maxConcurrency ≠ b.1.activeRunCount * a.1.maxConcurrency then
    if a.1.activeRunCount * b.1.maxConcurrency < b.1.activeRunCount * a.1.maxConcurrency then .lt else .gt
  else if a.2.routingPriority ≠ b.2.routingPriority then
    if a.2.routingPriority < b.2.routingPriority then .lt else .gt
  else if a.1.workerId = b.1.workerId then .eq
  else if a.1.workerId < b.1.workerId then .lt
  else .gt

/-- The order of `sorted(..., key=cmp_to_key(compare))`; a missing profile raises before
it is compared. -/
def candidateLe (requiredQuotaUnits : ℤ) (a b : RoutingCandidate) : Bool :=
  match a.profile, b.profile with
  | some p, some q => compareCandidates requiredQuotaUnits (a.worker, p) (b.worker, q) != .gt
  | _, _ => true

/-- `rank_routing_candidates`. Sorting two or more candidates compares each of them, so
one without a profile raises. -/
def rankRoutingCandidates (candidates : List RoutingCandidate) (requiredQuotaUnits : ℤ) :
    Except ExecutionError (List RoutingCandidate) :=
  if 2 ≤ candidates.length ∧ (candidates.any fun c => c.profile.isNone) = true then
    .error (.valueError "ranked routing candidates require profiles")
  else .ok (candidates.mergeSort (candidateLe requiredQuotaUnits))

/-- The precedence list of `unavailable_route_reason`. -/
def routeReasonPrecedence : List String :=
  ["worker_repository_unavailable", "routing_profile_missing", "routing_profile_invalid",
    "routing_profile_disabled", "worker_heartbeat_stale", "worker_checkout_poll_stale",
    "worker_not_available", "worker_concurrency_limit", "routing_cost_ceiling_exceeded",
    "routing_quota_insufficient"]

/-- `unavailable_route_reason`. -/
def unavailableRouteReason (mismatchReasons : List String) (explicitPin : Bool) : String :=
  if explicitPin then "preferred_executor_unavailable"
  else (routeReasonPrecedence.find? fun r => decide (r ∈ mismatchReasons)).getD "no_capable_workers"

end Switchboard
