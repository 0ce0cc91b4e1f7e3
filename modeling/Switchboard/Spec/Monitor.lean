import Switchboard.Spec.Polling

/-!
# The run monitor

`_RunMonitor` renews the liveness of the worker and the lease of its run while a step is
executed, and cancels the token of the run when there is nothing left to renew. It calls
the control plane through `_request_json`, whose failures are of several classes.

* `requestJson`: one request, with the class of its failure.
* `tick`: one turn of the monitor.
* `Monitor.step`: the monitor from `start` to the end of its thread.
* `MonitorSurvives`: what a run of the monitor is meant to do.
-/

namespace Switchboard

/-! ## Requests -/

/-- What `response.json()` and `json.loads` make of a body. -/
inductive ResponseBody
  | json (value : Json)
  /-- `JSONDecodeError`, or text that cannot be decoded. -/
  | notJson
  /-- An integer with more digits than the interpreter converts: a plain `ValueError`. -/
  | longInteger
  /-- Nested deeper than the interpreter recurses: `RecursionError`. -/
  | tooNested

structure HttpResponse where
  statusCode : ℕ
  contentLength : ℕ
  body : ResponseBody

/-- What the session makes of a request. -/
inductive SessionAnswer
  /-- A `RequestException`, which is an `OSError`. -/
  | transportError
  /-- A `RequestException` that is a `ValueError` as well, such as `InvalidURL`. -/
  | invalidRequest
  | response (r : HttpResponse)

/-- The exceptions of `_request_json`. -/
inductive RequestException
  | transport
  | invalidRequest
  /-- `requests.JSONDecodeError`. -/
  | jsonDecode
  | valueError
  | recursion
  | http (statusCode : ℕ)
  | ownershipLost (statusCode : ℕ)
  | credentialRejected (statusCode : ℕ)
  deriving DecidableEq, Repr

def RequestException.isOSError : RequestException → Bool
  | transport | invalidRequest | jsonDecode => true
  | _ => false

def RequestException.isValueError : RequestException → Bool
  | invalidRequest | jsonDecode | valueError => true
  | _ => false

def credentialStatuses : List ℕ := [401, 403]

/-- `_OWNERSHIP_LOST_STATUSES`. -/
def ownershipLostStatuses : List ℕ := [404, 409]

def httpErrorStatus : ℕ := 400

def unprocessableEntity : ℕ := 422

def maxErrorBodyBytes : ℕ := 64 * 1024

/-- `_execution_http_error`, or what decoding the details of a validation error raises. -/
def executionHttpError (r : HttpResponse) : RequestException :=
  if r.statusCode = unprocessableEntity ∧ r.contentLength ≤ maxErrorBodyBytes then
    match r.body with
    | .longInteger => .valueError
    | .tooNested => .recursion
    | .json _ | .notJson => .http r.statusCode
  else .http r.statusCode

/-- `response.json()`. -/
def ResponseBody.decode : ResponseBody → Except RequestException Json
  | json value => .ok value
  | notJson => .error .jsonDecode
  | longInteger => .error .valueError
  | tooNested => .error .recursion

/-- `_request_json` of a worker's client, with `_credential_rejected` before and after it. -/
def requestJson (ownershipSensitive credentialRejected : Bool) (answer : SessionAnswer) :
    Except RequestException Json × Bool :=
  if credentialRejected then (.error (.credentialRejected 401), true)
  else
    match answer with
    | .transportError => (.error .transport, false)
    | .invalidRequest => (.error .invalidRequest, false)
    | .response r =>
      if r.statusCode ∈ credentialStatuses then (.error (.credentialRejected r.statusCode), true)
      else if ownershipSensitive ∧ r.statusCode ∈ ownershipLostStatuses then
        (.error (.ownershipLost r.statusCode), false)
      else if httpErrorStatus ≤ r.statusCode then (.error (executionHttpError r), false)
      else (r.body.decode, false)

/-! ## Ticks -/

/-- `ExecutionRun` of the worker: a run as a heartbeat returns it. -/
structure HeartbeatRun where
  id : ℤ
  status : String

/-- `_SERVER_TERMINAL_STATUSES`. -/
def serverTerminalStatuses : List String := ["succeeded", "failed", "timed_out", "cancelled"]

/-- `_RUN_STATUSES`. -/
def runStatuses : List String := ["assigned", "running"] ++ serverTerminalStatuses

def maxSafeInteger : ℤ := 2 ^ 63 - 1

/-- `ExecutionRun.from_payload`. -/
def HeartbeatRun.fromPayload : Json → Except RequestException HeartbeatRun
  | .obj payload =>
    match lookup payload "status" with
    | some (.str status) =>
      if status.isEmpty ∨ 256 < status.length then .error .valueError
      else if status ∉ runStatuses then .error .valueError
      else
        match lookup payload "id" with
        | some (.int id) => if 1 ≤ id ∧ id ≤ maxSafeInteger then .ok ⟨id, status⟩ else .error .valueError
        | _ => .error .valueError
    | _ => .error .valueError
  | _ => .error .valueError

/-- What the monitor shares with its worker: the token of the run, `_credential_rejected` of the client
and `_shutdown`. -/
structure MonitorVars where
  token : CancellationToken := {}
  credentialRejected : Bool := false
  shutdown : Bool := false

namespace MonitorVars

def cancel (reason : String) (v : MonitorVars) : MonitorVars := { v with token := v.token.cancel reason }

/-- `request_shutdown`; the token of the run is the active one. -/
def requestShutdown (v : MonitorVars) : MonitorVars := { v.cancel "worker_shutdown" with shutdown := true }

end MonitorVars

/-- What a tick meets: the time, and the answers to its two requests. -/
structure Beat where
  now : Time
  worker : SessionAnswer
  run : SessionAnswer

structure TickOutcome where
  vars : MonitorVars
  /-- The run heartbeat was attempted. -/
  runAttempted : Bool
  /-- What the tick raises. -/
  raised : Option RequestException

/-- The second half of `_RunMonitor.tick`. -/
def heartbeatRun (runId : ℕ) (answer : SessionAnswer) (v : MonitorVars) : TickOutcome :=
  let (result, credentialRejected) := requestJson true v.credentialRejected answer
  let v := { v with credentialRejected := credentialRejected }
  match result.bind HeartbeatRun.fromPayload with
  | .error (.credentialRejected _) => ⟨(v.cancel "ownership_lost").requestShutdown, true, none⟩
  | .error (.ownershipLost _) => ⟨v.cancel "ownership_lost", true, none⟩
  | .error e =>
    if e.isValueError then ⟨v.cancel "invalid_run_heartbeat", true, none⟩
    else if e.isOSError then ⟨v, true, none⟩
    else ⟨v, true, some e⟩
  | .ok run =>
    if run.id ≠ runId then ⟨v.cancel "invalid_run_heartbeat", true, none⟩
    else if run.status ∈ serverTerminalStatuses then ⟨v.cancel ("server_terminal:" ++ run.status), true, none⟩
    else ⟨v, true, none⟩

/-- `_RunMonitor.tick`. -/
def tick (runId : ℕ) (deadline : Time) (b : Beat) (v : MonitorVars) : TickOutcome :=
  if deadline ≤ b.now then ⟨v.cancel "overall_timeout", false, none⟩
  else
    let (result, credentialRejected) := requestJson false v.credentialRejected b.worker
    let v := { v with credentialRejected := credentialRejected }
    match result with
    | .error (.credentialRejected _) => ⟨(v.cancel "ownership_lost").requestShutdown, false, none⟩
    | .error e => if e.isOSError then heartbeatRun runId b.run v else ⟨v, false, some e⟩
    | .ok _ => heartbeatRun runId b.run v

/-! ## The thread -/

inductive MonitorPhase
  /-- Before the tick of `start`. -/
  | created
  | running
  | ended
  /-- A tick has raised. -/
  | died (e : RequestException)
  deriving DecidableEq, Repr

structure Monitor where
  vars : MonitorVars := {}
  stopped : Bool := false
  phase : MonitorPhase := .created

inductive MonitorEvent
  /-- The next tick is due. -/
  | beat (b : Beat)
  /-- Someone else cancels the token. -/
  | cancelled (reason : String)
  /-- `_stop` is set. -/
  | stop

namespace Monitor

/-- The monitor still ticks when a tick is due. -/
def ticking (m : Monitor) : Bool := m.phase == .created || m.phase == .running

/-- How `start` and the loop of `_run` go on after a tick. -/
def after (o : TickOutcome) (stopped : Bool) : MonitorPhase :=
  match o.raised with
  | some e => .died e
  | none => if o.vars.token.reason.isSome || stopped then .ended else .running

def step (runId : ℕ) (deadline : Time) (m : Monitor) : MonitorEvent → Monitor
  | .cancelled reason => { m with vars := m.vars.cancel reason }
  | .stop => { m with stopped := true, phase := if m.phase = .running then .ended else m.phase }
  | .beat b =>
    if m.ticking then
      let o := tick runId deadline b m.vars
      { m with vars := o.vars, phase := after o m.stopped }
    else m

end Monitor

/-- The monitor of a run after some events. -/
def monitorAfter (runId : ℕ) (deadline : Time) (events : List MonitorEvent) : Monitor :=
  events.foldl (Monitor.step runId deadline) {}

/-! ## What the monitor is meant to do -/

/-- The reasons for which a tick cancels the token. -/
def MonitorReason (reason : String) : Prop :=
  reason = "overall_timeout" ∨ reason = "ownership_lost" ∨ reason = "invalid_run_heartbeat" ∨
    ∃ status ∈ serverTerminalStatuses, reason = "server_terminal:" ++ status

/-- The worker heartbeat of the tick found the credential rejected. -/
def WorkerRejected (v : MonitorVars) (b : Beat) : Prop :=
  v.credentialRejected = true ∨ ∃ r, b.worker = .response r ∧ r.statusCode ∈ credentialStatuses

structure MonitorSurvives (runId : ℕ) (deadline : Time) (events : List MonitorEvent) : Prop where
  /-- No tick raises. -/
  quiet : ∀ pre b, pre ++ [.beat b] <+: events → (monitorAfter runId deadline pre).ticking = true →
    (tick runId deadline b (monitorAfter runId deadline pre).vars).raised = none
  /-- A tick before the deadline attempts the run heartbeat, also after a failed worker heartbeat. -/
  attempts : ∀ pre b, pre ++ [.beat b] <+: events → (monitorAfter runId deadline pre).ticking = true →
    b.now < deadline → ¬ WorkerRejected (monitorAfter runId deadline pre).vars b →
    (tick runId deadline b (monitorAfter runId deadline pre).vars).runAttempted = true
  /-- The monitor goes on until it is stopped or the token is cancelled, by a tick or by someone else. -/
  goesOn : ∀ pre, pre <+: events → (monitorAfter runId deadline pre).ticking = false →
    (monitorAfter runId deadline pre).stopped = true ∨
      ∃ reason, (monitorAfter runId deadline pre).vars.token.reason = some reason ∧
        (MonitorReason reason ∨ .cancelled reason ∈ pre)

/-! ## What the ticks cannot take -/

/-- A worker heartbeat so answered raises something that is neither an `OSError` nor a rejected credential. -/
def SessionAnswer.escapesWorkerHeartbeat : SessionAnswer → Bool
  | .response r =>
    if r.statusCode ∈ credentialStatuses then false
    else if httpErrorStatus ≤ r.statusCode then true
    else
      match r.body with
      | .longInteger | .tooNested => true
      | .json _ | .notJson => false
  | _ => false

/-- A run heartbeat so answered raises something that is none of `OSError`, `ValueError` and lost ownership. -/
def SessionAnswer.escapesRunHeartbeat : SessionAnswer → Bool
  | .response r =>
    if r.statusCode ∈ credentialStatuses ++ ownershipLostStatuses then false
    else
      match r.body with
      | .tooNested => true
      | .longInteger =>
        decide (httpErrorStatus ≤ r.statusCode) &&
          !(r.statusCode == unprocessableEntity && decide (r.contentLength ≤ maxErrorBodyBytes))
      | .json _ | .notJson => decide (httpErrorStatus ≤ r.statusCode)
  | _ => false

/-- The answers of a tick are among those that it handles: past the deadline and with a rejected credential
it asks nothing, and a rejected credential ends it before the run heartbeat. -/
def Tolerable (deadline : Time) (v : MonitorVars) (b : Beat) : Prop :=
  deadline ≤ b.now ∨ v.credentialRejected = true ∨
    b.worker.escapesWorkerHeartbeat = false ∧ (WorkerRejected v b ∨ b.run.escapesRunHeartbeat = false)

end Switchboard
