import Switchboard.Spec.Polling
import Switchboard.Spec.Summary

/-!
# The local slot

`poll_once` of a single thread from the admission of the run on: `_begin_run` takes the slot of the worker, the last
statement of the `finally` block gives it back.

* `Host.summaryOf`: the summary of an attempt.
* `finishPoll`: the `finally` block and the completion.
* `pollSlot`: what a poll leaves of the slot, and the completions that it has attempted.
* `Released`: the slot is free again, and the run has been reported unless its ownership was lost.
-/

namespace Switchboard

/-- What an admitted poll meets, with the details of its step results. -/
structure SlotHost extends Host where
  /-- The streams, logs and times of the n-th step result. -/
  describe : ℕ → SummarisedResult
  /-- `monitor.stop()`. -/
  monitorStop : Except PyException Unit
  /-- `client.complete_run()`. -/
  completed : Except RemoteError Unit

/-- How a poll has ended. -/
structure SlotOutcome where
  worker : LocalWorker Unit
  /-- The calls of `complete_run`. -/
  completions : List ExecutionCompletion
  raised : Option PyException

/-- The step results of an attempt, as the summary reads them. -/
def SlotHost.results (host : SlotHost) (results : List StepResult) : List SummarisedResult :=
  results.mapIdx fun n r =>
    { host.describe n with stepId := r.stepId, status := r.status, terminalReason := r.terminalReason }

/-- The summary of an attempt, serialised; without an order there are no steps. -/
def SlotHost.summaryOf (host : SlotHost) (a : Attempt) : Except PyException String :=
  match a.order with
  | none => .ok emptySummary
  | some order => (resultSummary order (host.results a.results)).map fun summary => String.ofList summary.serialize

/-- `monitor.stop()`, if there is a monitor: it is created right after the manifest. -/
def SlotHost.stopMonitor (host : SlotHost) (a : Attempt) : Except PyException Unit :=
  if a.manifest.isSome then host.monitorStop else .ok ()

variable (P : Platform)

/-- The exception of `complete_run` that is not caught. -/
def completionRaised : Except RemoteError Unit → Option PyException
  | .error (.exception e) => some e
  | _ => none

/-- The `finally` block and the completion. -/
def finishPoll (host : SlotHost) (runId : ℕ) (a : Attempt) (w : LocalWorker Unit) : SlotOutcome :=
  match host.stopMonitor a with
  | .error e => ⟨w, [], some e⟩
  | .ok _ =>
    let w := w.unregister
    let w := if a.sourceQuiescent then w else w.setShutdown
    let a := settleSource host.toHost a
    match host.summaryOf a with
    | .error e => ⟨w, [], some e⟩
    | .ok summary =>
      let a := finalizeEvidence P host.toHost runId a
      let w := w.endRun () runId
      if a.skipCompletion then ⟨w, [], none⟩
      else ⟨w, [a.completion summary], completionRaised host.completed⟩

/-- `poll_once` once it has checked out a run. -/
def pollSlot (host : SlotHost) (runId : ℕ) (w : LocalWorker Unit) : SlotOutcome :=
  match w.beginRun () runId with
  | (some reason, w) => ⟨w, [admissionRejection reason], completionRaised host.completed⟩
  | (none, w) => finishPoll P host runId (attempt P host.toHost) w

/-! ## What a poll should leave -/

/-- The ownership of the run is lost: a call has raised `ExecutionOwnershipLostError`, or the token is cancelled for
a reason of the server. -/
inductive LosesOwnership (host : Host) : Prop
  | workOrder {rejected : Bool} (h : host.workOrder = .error (.ownershipLost rejected))
  | manifest {rejected : Bool} (h : host.remoteManifest = .error (.ownershipLost rejected))
  | monitor {rejected : Bool} (h : host.monitor = .error (.ownershipLost rejected))
  | lookup {identity : ReuseIdentity} {identityHash : String} {rejected : Bool}
      (h : host.resolveReuseCandidate identity identityHash = .error (.ownershipLost rejected))
  | atStart {reason : String} (h : host.monitor = .ok (some reason)) (hskips : skipsCompletion reason = true)
  | inLookup {reason : String} (h : host.cancelledAfterLookup = some reason) (hskips : skipsCompletion reason = true)
  | atDeadline {n : ℕ} {step : TrustedStep} {reason text : String}
      (h : host.runStep n step = .deadlineExceeded (some reason) text) (hskips : skipsCompletion reason = true)
  | inStep {n : ℕ} {step : TrustedStep} {reason : String} {e : PyException}
      (h : host.runStep n step = .exception (some reason) e) (hskips : skipsCompletion reason = true)
  | atEnd {reason : String} (h : host.cancelledAtEnd = some reason) (hskips : skipsCompletion reason = true)

/-- The slot is free again, and `complete_run` was called exactly once unless the ownership was lost. -/
def Released (host : SlotHost) (outcome : SlotOutcome) : Prop :=
  outcome.worker.activeRunId = none ∧
    (outcome.completions.length = 1 ∨ outcome.completions = [] ∧ LosesOwnership host.toHost)

/-- The order and its step results have a summary within the limit, uncut or with every stream emptied. -/
def SummaryFits (order : AssignedWorkOrder) (results : List SummarisedResult) : Prop :=
  (uncutSummary order results).serialize.length ≤ resultSummaryLimit ∨
    (emptiedSummary order results).serialize.length ≤ resultSummaryLimit

/-- Nothing raises in the `finally` block. -/
structure SlotHost.Releases (host : SlotHost) : Prop where
  stops : ∀ order manifest, host.workOrder = .ok order → fetchManifest P host.toHost order = .ok manifest →
    host.monitorStop = .ok ()
  fits : ∀ order, host.workOrder = .ok order → SummaryFits order (host.results (attempt P host.toHost).results)

end Switchboard
