import Switchboard.Spec.OperatorReport

/-!
# What a running lifecycle records

A lifecycle records the phases that it has reached in its report (`_record_phase` of `execution_operator/lifecycle.py`),
and publishes its progress to an observer that cannot disturb it (`progress.py`).

* `recordPhase`: one more phase of a report.
* `ProgressPublisher.emit`: one more observation.
-/

namespace Switchboard

open Transaction

namespace Operator

/-! ## Phases -/

/-- `_PHASE_ORDER.get`. -/
def phaseOrder (phase : String) : Option ℕ :=
  if phase ∈ lifecyclePhases then some (lifecyclePhases.idxOf phase) else none

/-- The position of the last phase, or `-1`. -/
def previousPosition (phases : List String) : ℤ :=
  match phases.getLast? with
  | some last => (phaseOrder last).elim (-1) fun position => position
  | none => -1

/-- `_record_phase` on the phases of a report. -/
def recordPhase (phases : List String) (phase : String) : Except ReportException (List String) :=
  match phaseOrder phase with
  | some position =>
    if (position : ℤ) ≤ previousPosition phases then .error (.failure "lifecycle_transition_invalid")
    else .ok (phases ++ [phase])
  | none => .error (.failure "lifecycle_transition_invalid")

/-! ## Progress -/

/-- `ProgressKind`. -/
inductive ProgressKind
  | preflightStarted
  | preflightPassed
  | runtimeCreated
  | serverStarted
  | serverReady
  | workerStarted
  | workerReady
  | approvalRequested
  | approvalAccepted
  | approvalDenied
  | workOrderCreated
  | workOrderApproved
  | workOrderQueued
  | runObserved
  | evidenceVerificationStarted
  | evidenceVerified
  | shutdownStarted
  | cleanupVerified
  | completed
  | failed
  deriving DecidableEq, Repr

/-- `ProgressPhase`. -/
inductive ProgressPhase
  | fresh
  | reuse
  deriving DecidableEq, Repr

/-- `MAX_PROGRESS_EVENTS`. -/
def maxProgressEvents : ℕ := 64

/-- `_PHASE_KINDS`. -/
def phaseKinds : List ProgressKind :=
  [.approvalRequested, .approvalAccepted, .approvalDenied, .workOrderCreated, .workOrderApproved, .workOrderQueued,
    .runObserved, .evidenceVerificationStarted, .evidenceVerified]

/-- `ProgressEvent`. -/
structure ProgressEvent where
  sequence : ℕ
  event : ProgressKind
  phase : Option ProgressPhase
  runStatus : Option ExecutionRunStatus
  deriving DecidableEq

/-- What `emit` is called with. -/
structure ProgressKey where
  event : ProgressKind
  phase : Option ProgressPhase := none
  runStatus : Option ExecutionRunStatus := none
  deriving DecidableEq

/-- A phase and a run status are given exactly for the kinds of events that have one. -/
def ProgressKey.fits (key : ProgressKey) : Bool :=
  decide (key.event ∈ phaseKinds) == key.phase.isSome && decide (key.event = .runObserved) == key.runStatus.isSome

/-- `ProgressEvent.__post_init__`; the types of the fields are those of the structure. -/
def ProgressEvent.validate (e : ProgressEvent) : Except ReportException Unit :=
  ensure (decide (1 ≤ e.sequence ∧ e.sequence ≤ maxProgressEvents) && ProgressKey.fits ⟨e.event, e.phase, e.runStatus⟩)
    .valueError

/-- `ProgressPublisher`, with what its observer has been called with. -/
structure ProgressPublisher where
  observing : Bool
  seen : List ProgressKey := []
  observed : List ProgressEvent := []

/-- The observation of a key. -/
def ProgressKey.observation (key : ProgressKey) (sequence : ℕ) : ProgressEvent :=
  ⟨sequence, key.event, key.phase, key.runStatus⟩

-- whether the observer raises on its observation of a number
variable (raises : ℕ → Bool)

/-- `emit`. -/
def ProgressPublisher.emit (p : ProgressPublisher) (key : ProgressKey) : Except ReportException ProgressPublisher :=
  if !p.observing || decide (key ∈ p.seen) || decide (maxProgressEvents ≤ p.seen.length) then .ok p
  else do
    let observation := key.observation (p.seen.length + 1)
    observation.validate
    return { observing := !raises observation.sequence, seen := p.seen ++ [key], observed := p.observed ++ [observation] }

/-- A call that raises leaves the publisher as it is. -/
def ProgressPublisher.emitted (p : ProgressPublisher) (key : ProgressKey) : ProgressPublisher :=
  (p.emit raises key).toOption.getD p

/-- The publisher after some calls. -/
def ProgressPublisher.emitAll (p : ProgressPublisher) (keys : List ProgressKey) : ProgressPublisher :=
  keys.foldl (ProgressPublisher.emitted raises) p

end Operator

end Switchboard
