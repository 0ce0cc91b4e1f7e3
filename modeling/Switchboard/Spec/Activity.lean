import Switchboard.Spec.Routing

/-!
# Activity of workers

The activity that two views of the operator report for a worker: the overview and the list of workers compute it from
the worker's row (`operator_projection.py`), the readiness of a repository from the diagnostics of the evaluator
(`execution.py`).
-/

namespace Switchboard

inductive ActivityState
  | active
  | stale
  | capacityConstrained
  | unavailable
  deriving DecidableEq, Repr

/-- `_fresh` of the projection, which knows no window that is switched off. -/
def projectedFresh (value : Option Time) (now : Time) (freshnessSeconds : ℤ) : Bool :=
  match value with
  | none => false
  | some v => decide (v ≥ now - seconds freshnessSeconds)

/-- `_worker_activity_state`. -/
def workerActivityState (status : WorkerStatus) (activeRunCount maxConcurrency : ℤ) (lastHeartbeatAt : Time)
    (lastCheckoutPollAt : Option Time) (now : Time) (heartbeatFreshness pollFreshness : ℤ) : ActivityState :=
  if status = .draining ∨ status = .offline then .unavailable
  else if activeRunCount < 0 ∨ maxConcurrency < 1 ∨ activeRunCount > maxConcurrency ∨ heartbeatFreshness < 0 ∨
      pollFreshness < 0 then .unavailable
  else if !projectedFresh (some lastHeartbeatAt) now heartbeatFreshness ||
      !projectedFresh lastCheckoutPollAt now pollFreshness then .stale
  else if status = .busy ∨ activeRunCount ≥ maxConcurrency then .capacityConstrained
  else .active

/-- The activity that the overview and the list of workers show. -/
def Worker.activityState (w : Worker) (now : Time) (heartbeatFreshness pollFreshness : ℤ) : ActivityState :=
  workerActivityState w.status w.activeRunCount w.maxConcurrency w.lastHeartbeatAt w.lastCheckoutPollAt now
    heartbeatFreshness pollFreshness

/-- `_repository_activity_state`. -/
def repositoryActivityState (evaluation : RoutingEligibility) : ActivityState :=
  let reasons := evaluation.reasons
  if "worker_not_available" ∈ reasons then .unavailable
  else if "worker_heartbeat_stale" ∈ reasons ∨ "worker_checkout_poll_stale" ∈ reasons then .stale
  else if "worker_concurrency_limit" ∈ reasons then .capacityConstrained
  else .active

end Switchboard
