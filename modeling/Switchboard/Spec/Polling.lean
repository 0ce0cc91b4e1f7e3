import Switchboard.Lib.Threads
import Switchboard.Spec.Worker

/-!
# Concurrent polls

`LocalWorker` as its threads share it: the shutdown flag, the active run, the executed
runs and the token of the active run. A thread accesses them in atomic steps: a section
under `_state_lock`, one operation of the flag or of a token. Between two of them it works
on the variables of its attempt, as in `pollOnce` of a single thread; what the host and
the control plane answer is fixed for each poll, and arbitrary.

The log is not part of the worker: it keeps what the calls have done, oldest first.

* `Polling.pollOnce`, `Polling.requestShutdown`: the two calls, step by step.
* `runPolls`: any interleaving of any number of them, and of ticks of the monitors.
* `LocalAdmission`: what holds in all of them.
-/

namespace Switchboard

open Threads Try Transaction

/-! ## What the threads share -/

/-- `CancellationToken`: the reason of the first cancellation. -/
structure CancellationToken where
  reason : Option String := none
  deriving DecidableEq, Repr

def CancellationToken.cancel (reason : String) (token : CancellationToken) : CancellationToken :=
  { reason := token.reason.or (some reason) }

/-- What an attempt leaves on the host. -/
inductive LocalEffect
  | evidenceStore
  | worktree
  | process (stepId : String)
  deriving DecidableEq, Repr

/-- What call `i` has done. -/
inductive PollEvent (ι : Type)
  | checkedOut (i : ι) (runId : ℕ)
  | admitted (i : ι) (runId : ℕ)
  | created (i : ι) (runId : ℕ) (effect : LocalEffect)
  /-- A check of the token or of the shutdown flag by an admitted run. -/
  | checked (i : ι)
  | ended (i : ι) (runId : ℕ)
  | reported (i : ι) (runId : ℕ) (completion : ExecutionCompletion)
  /-- The locked section of `request_shutdown`. -/
  | signalled (i : ι)
  /-- `request_shutdown` has returned. -/
  | returned (i : ι)

/-- The variables of `LocalWorker`; the token of a poll is named after the poll. -/
structure LocalWorker (ι : Type) where
  shutdown : Bool := false
  activeRunId : Option ℕ := none
  executedRunIds : List ℕ := []
  activeToken : Option ι := none
  tokens : ι → Option CancellationToken := fun _ => none
  log : List (PollEvent ι) := []

namespace LocalWorker

variable {ι : Type}

def record (e : PollEvent ι) (w : LocalWorker ι) : LocalWorker ι := { w with log := w.log ++ [e] }

def setShutdown (w : LocalWorker ι) : LocalWorker ι := { w with shutdown := true }

/-- Cancel the token of poll `i`, if there is one. -/
def cancel [DecidableEq ι] (i : ι) (reason : String) (w : LocalWorker ι) : LocalWorker ι :=
  { w with tokens := Function.update w.tokens i ((w.tokens i).map (CancellationToken.cancel reason)) }

/-- The reason of the token of poll `i`, if it is cancelled. -/
def reason (i : ι) (w : LocalWorker ι) : Option String := (w.tokens i).bind CancellationToken.reason

/-- The locked section of `request_shutdown`. -/
def signal [DecidableEq ι] (i : ι) (w : LocalWorker ι) : LocalWorker ι :=
  (match w.activeToken with
    | some j => w.cancel j "worker_shutdown"
    | none => w).record (.signalled i)

/-- `_begin_run`. -/
def beginRun (i : ι) (runId : ℕ) (w : LocalWorker ι) : Option String × LocalWorker ι :=
  if w.shutdown then (some "worker_shutdown_before_start", w)
  else if w.activeRunId.isSome then (some "local_concurrency_rejected_after_checkout", w)
  else if runId ∈ w.executedRunIds then (some "local_duplicate_execution_rejected_after_checkout", w)
  else
    (none, { w with
      executedRunIds := runId :: w.executedRunIds, activeRunId := some runId, log := w.log ++ [.admitted i runId] })

/-- `_end_run`. -/
def endRun (i : ι) (runId : ℕ) (w : LocalWorker ι) : LocalWorker ι :=
  { w with
    activeRunId := if w.activeRunId = some runId then none else w.activeRunId, log := w.log ++ [.ended i runId] }

/-- A new token, registered as the active one. -/
def register [DecidableEq ι] (i : ι) (w : LocalWorker ι) : LocalWorker ι :=
  { w with tokens := Function.update w.tokens i (some {}), activeToken := some i }

def unregister (w : LocalWorker ι) : LocalWorker ι := { w with activeToken := none }

end LocalWorker

/-! ## Calls -/

/-- What one poll meets, with what only matters among several threads. -/
structure PollHost extends Host where
  /-- `client.checkout()`. -/
  checkout : Except RemoteError (Option ℕ)
  /-- The first tick of the monitor found the credential rejected. -/
  tickRejected : Bool
  /-- The exception of `summary` is raised by `_serialize_summary`, after `_end_run`. -/
  serializeRaises : Bool
  /-- `client.complete_run()`. -/
  completed : Except RemoteError Unit

namespace Polling

variable {ι : Type}

open LocalWorker

/-- The statements of an attempt: its own variables, and accesses to the worker. -/
def PollM (ι α : Type) : Type := Attempt → Thread (LocalWorker ι) (Except WorkerError α × Attempt)

namespace PollM

variable {ι α β : Type}

def bind (x : PollM ι α) (f : α → PollM ι β) : PollM ι β := fun a => do
  let (r, a) ← x a
  match r with
  | .ok v => f v a
  | .error e => return (.error e, a)

instance : Monad (PollM ι) where
  pure v := fun a => pure (.ok v, a)
  bind := bind

end PollM

/-- Statements on the variables of the attempt. -/
def own {α : Type} (x : AttemptM α) : PollM ι α := fun a => pure (x a)

/-- Accesses to the worker. -/
def shared {α : Type} (x : Thread (LocalWorker ι) α) : PollM ι α := fun a => do
  let v ← x
  return (.ok v, a)

/-- `request_shutdown`. -/
def requestShutdown [DecidableEq ι] (i : ι) : Thread (LocalWorker ι) Unit := do
  .update setShutdown
  .update (signal i)
  .update (record (.returned i))

/-- `token.cancelled`, with the reason. -/
def checkToken (i : ι) : Thread (LocalWorker ι) (Option String) :=
  .access fun w => (w.reason i, w.record (.checked i))

/-- `self._shutdown.is_set()` in an admitted run. -/
def checkShutdown (i : ι) : Thread (LocalWorker ι) Bool :=
  .access fun w => (w.shutdown, w.record (.checked i))

/-- `monitor.start()`: the first tick. -/
def startMonitor [DecidableEq ι] (i : ι) (host : PollHost) : PollM ι Unit :=
  match host.monitor with
  | .error e => own (call RemoteError.raised (.error e))
  | .ok none => return ()
  | .ok (some reason) => do
    shared (.update (cancel i reason))
    shared (.when host.tickRejected (requestShutdown i))

/-! ### Reuse -/

/-- The lookup of a source; losing the lease cancels the token. -/
def lookUp [DecidableEq ι] (i : ι) (host : PollHost) (identity : ReuseIdentity) (identityHash : String) :
    PollM ι (Option ReuseLookup) :=
  match host.resolveReuseCandidate identity identityHash with
  | .ok lookup => do
    own (assign fun a => { a with lookup := some lookup, reuseReason := lookup.reason })
    return some lookup
  | .error (.ownershipLost credentialRejected) => do
    shared (.update (cancel i "ownership_lost"))
    shared (.when credentialRejected (requestShutdown i))
    return none
  | .error (.exception e) =>
    if e.ioOrValue then do
      own (assign fun a => { a with reuseReason := "reuse_lookup_unavailable" })
      return none
    else own (call .exception (.error e))

variable (P : Platform)

/-- What an order with a reuse policy does before its steps. -/
def reuseOrExecute [DecidableEq ι] (i : ι) (host : PollHost) (order : AssignedWorkOrder)
    (manifest : TrustedManifest) (environment : String) : PollM ι Bool :=
  if order.spec.reusePolicy = .never then return true
  else do
    let locks ← own (hashLocksForReuse host.toHost manifest)
    let identity ← own (call .exception (buildReuseIdentity P host.toHost .first order manifest environment locks))
    own (assign fun a =>
      { a with reuseIdentity := some identity, reuseIdentityHash := some (P.reuseIdentityHash identity) })
    let lookup ← lookUp i host identity (P.reuseIdentityHash identity)
    let cancelled ← shared (checkToken i)
    own (decideReuse host.toHost order.spec.reusePolicy lookup cancelled)

/-! ### Steps -/

/-- `run_step`: a cancelled token stops it before the launch. -/
def runStep (i : ι) (runId : ℕ) (host : PollHost) (n : ℕ) (step : TrustedStep) :
    Thread (LocalWorker ι) StepOutcome := do
  let cancelled ← checkToken i
  match cancelled with
  | some reason => return .deadlineExceeded none ("execution cancelled before launch:" ++ reason)
  | none =>
    match host.runStep n step with
    | .deadlineExceeded cancelled text => return .deadlineExceeded cancelled text
    | outcome => do
      .update (record (.created i runId (.process step.id)))
      return outcome

/-- The handlers of an exception read the token. -/
def review (i : ι) : StepOutcome → Thread (LocalWorker ι) StepOutcome
  | .deadlineExceeded _ text => do
    let cancelled ← checkToken i
    return .deadlineExceeded cancelled text
  | .exception _ e => do
    let cancelled ← checkToken i
    return .exception cancelled e
  | outcome => return outcome

/-- The loop goes on to the next step. -/
def goesOn (hasContract : Bool) (step : TrustedStep) : StepOutcome → Bool
  | .result r => (r.reviewed hasContract).status == .succeeded || !step.required
  | _ => false

/-- The loop over the trusted steps; `runSteps` on one step is one turn of it. -/
def runSteps [DecidableEq ι] (i : ι) (runId : ℕ) (host : PollHost) (hasContract : Bool) :
    ℕ → List TrustedStep → PollM ι Unit
  | _, [] => return ()
  | n, step :: rest => do
    let shuttingDown ← shared (checkShutdown i)
    shared (.when shuttingDown (.update (cancel i "worker_shutdown")))
    let outcome ← shared (runStep i runId host n step)
    let outcome ← shared (review i outcome)
    own (assign (Switchboard.runSteps { host.toHost with runStep := fun _ _ => outcome } hasContract n [step]))
    if goesOn hasContract step outcome then runSteps i runId host hasContract (n + 1) rest else return ()

/-! ### The attempt -/

/-- The steps, unless the lookup has decided against them. -/
def runFresh [DecidableEq ι] (i : ι) (runId : ℕ) (host : PollHost) (manifest : TrustedManifest) :
    Bool → PollM ι Unit
  | true => do
    own (assign (Attempt.decide .fresh))
    runSteps i runId host manifest.resultContract.isSome 0 manifest.executionSteps
  | false => return ()

/-- The part of the `try` block that works on the checkout. -/
def workOnCheckout [DecidableEq ι] (i : ι) (runId : ℕ) (host : PollHost) (order : AssignedWorkOrder)
    (manifest : TrustedManifest) (environment : String) : PollM ι Unit := do
  own (call .exception (host.integrity .afterCheckout))
  own (assign fun a => { a.finish .succeeded none with cleanup := "pending" })
  let executeFresh ← reuseOrExecute P i host order manifest environment
  runFresh i runId host manifest executeFresh
  let cancelled ← shared (checkToken i)
  match cancelled with
  | some reason => own (assign (Attempt.cancelled reason))
  | none => return ()

/-- The part of the `try` block that runs unless the run was cancelled before. -/
def execute [DecidableEq ι] (i : ι) (runId : ℕ) (host : PollHost) (order : AssignedWorkOrder)
    (manifest : TrustedManifest) : PollM ι Unit := do
  own (assign fun a => { a with startedAt := host.clock 1 })
  let environment ← own (call .exception host.environment)
  own (assign fun a => { a with environment := some environment })
  shared (.update (record (.created i runId .evidenceStore)))
  let store ← own (call .exception host.store)
  own (assign fun a => { a with store := some store })
  shared (.update (record (.created i runId .worktree)))
  own (call WorktreeError.raised host.worktree)
  own (assign fun a => { a with worktree := true })
  workOnCheckout P i runId host order manifest environment

/-- The `try` block of `poll_once`. -/
def attemptBody [DecidableEq ι] (i : ι) (runId : ℕ) (host : PollHost) : PollM ι Unit := do
  let order ← own (call RemoteError.raised host.workOrder)
  own (assign fun a => { a with order := some order })
  let manifest ← own (call RemoteError.raised (fetchManifest P host.toHost order))
  own (assign fun a => { a with manifest := some manifest })
  shared (.update (register i))
  startMonitor i host
  let cancelled ← shared (checkToken i)
  match cancelled with
  | some reason => own (assign (Attempt.cancelled reason))
  | none => do
    let shuttingDown ← shared (checkShutdown i)
    if shuttingDown then do
      shared (.update (cancel i "worker_shutdown"))
      let reason ← shared (.observe (reason i))
      own (assign (Attempt.finish .cancelled reason))
    else execute P i runId host order manifest

/-- The attempt after its `try` block and its handlers. -/
def attempt [DecidableEq ι] (i : ι) (runId : ℕ) (host : PollHost) : Thread (LocalWorker ι) Attempt := do
  let (r, a) ← attemptBody P i runId host { startedAt := host.clock 0 }
  match r with
  | .ok _ => return a
  | .error (.ownershipLost true) => do
    requestShutdown i
    return handleError (.ownershipLost true) a
  | .error e => return handleError e a

/-- The `finally` block and the completion. A poll that raises in between reports nothing. -/
def finishRun [DecidableEq ι] (i : ι) (runId : ℕ) (host : PollHost) (a : Attempt) : Thread (LocalWorker ι) Unit := do
  .update unregister
  .when (!a.sourceQuiescent) (.update setShutdown)
  let a := settleSource host.toHost a
  match a.order.elim (.ok emptySummary) fun order => host.summary order a.results with
  | .error _ => .when host.serializeRaises (.update (endRun i runId))
  | .ok summary => do
    let a := finalizeEvidence P host.toHost runId a
    .update (endRun i runId)
    if a.skipCompletion then return ()
    else do
      .update (record (.reported i runId (a.completion summary)))
      match host.completed with
      | .error (.ownershipLost true) => requestShutdown i
      | _ => return ()

/-- `poll_once`. -/
def pollOnce [DecidableEq ι] (i : ι) (host : PollHost) : Thread (LocalWorker ι) Unit := do
  let shuttingDown ← .observe LocalWorker.shutdown
  if shuttingDown then return ()
  else
    match host.checkout with
    | .error (.ownershipLost true) => requestShutdown i
    | .error _ | .ok none => return ()
    | .ok (some runId) => do
      .update (record (.checkedOut i runId))
      let rejection ← .access (beginRun i runId)
      match rejection with
      | some reason => .update (record (.reported i runId (admissionRejection reason)))
      | none => do
        let a ← attempt P i runId host
        finishRun P i runId host a

end Polling

/-- A call on the worker. -/
inductive WorkerCall (ι : Type)
  | pollOnce (host : PollHost)
  | requestShutdown
  /-- A tick of the monitor of a poll that cancels its token. -/
  | monitorTick (poll : ι) (reason : String) (credentialRejected : Bool)

def WorkerCall.thread {ι : Type} [DecidableEq ι] (P : Platform) (i : ι) : WorkerCall ι → Thread (LocalWorker ι) Unit
  | pollOnce host => Polling.pollOnce P i host
  | requestShutdown => Polling.requestShutdown i
  | monitorTick poll reason credentialRejected => do
    .update (LocalWorker.cancel poll reason)
    .when credentialRejected (Polling.requestShutdown i)

/-- The calls on a new worker after the accesses of `schedule`. -/
def runPolls {ι : Type} [DecidableEq ι] (P : Platform) (calls : ι → WorkerCall ι) (schedule : List ι) :
    Pool ι (LocalWorker ι) Unit :=
  Pool.run ⟨{}, fun i => (calls i).thread P i⟩ schedule

/-! ## Admission and shutdown -/

section

variable {ι : Type}

/-- Run `r` is locally active: poll `i` has begun it and not ended it. -/
def Active (log : List (PollEvent ι)) (i : ι) (r : ℕ) : Prop := .admitted i r ∈ log ∧ .ended i r ∉ log

/-- The admitted runs, oldest first. -/
def admittedRuns (log : List (PollEvent ι)) : List ℕ :=
  log.filterMap fun
    | .admitted _ r => some r
    | _ => none

/-- The completions that poll `i` has sent. -/
def reports [DecidableEq ι] (i : ι) (log : List (PollEvent ι)) : List (ℕ × ExecutionCompletion) :=
  log.filterMap fun
    | .reported j r completion => if j = i then some (r, completion) else none
    | _ => none

/-- `x` stands before `y` in the log. -/
def Before (x y : PollEvent ι) (log : List (PollEvent ι)) : Prop := ∃ pre post, log = pre ++ x :: post ∧ y ∈ post

/-- Local admission and shutdown. -/
structure LocalAdmission [DecidableEq ι] (m : Pool ι (LocalWorker ι) Unit) : Prop where
  /-- At most one run is active, and it is the one that the worker says. -/
  oneActive : ∀ i j r r', Active m.state.log i r → Active m.state.log j r' → i = j ∧ r = r'
  activeRun : ∀ r, m.state.activeRunId = some r ↔ ∃ i, Active m.state.log i r
  /-- No run is executed twice, and nothing is created for a run without admission. -/
  executedOnce : (admittedRuns m.state.log).Nodup
  effects : ∀ i r effect, .created i r effect ∈ m.state.log → .admitted i r ∈ m.state.log
  /-- A poll reports at most once; a run that is not admitted as cancelled, and once its poll has ended it is
  reported. -/
  reportedOnce : ∀ i, (reports i m.state.log).length ≤ 1
  rejected : ∀ i r, .checkedOut i r ∈ m.state.log → .admitted i r ∉ m.state.log →
    (∀ r' effect, .created i r' effect ∉ m.state.log) ∧
    (∀ report ∈ reports i m.state.log, ∃ reason, report = (r, admissionRejection reason)) ∧
    ((m.threads i).result.isSome = true → reports i m.state.log ≠ [])
  /-- A shutdown that returned before a cancellation check of a run keeps the run from success. -/
  shutdown : ∀ k i r completion, Before (.returned k) (.checked i) m.state.log →
    .reported i r completion ∈ m.state.log → completion.status ≠ .succeeded

end

end Switchboard
