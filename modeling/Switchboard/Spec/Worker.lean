import Mathlib.Data.Rat.Defs
import Mathlib.Algebra.Order.Ring.Unbundled.Rat
import Switchboard.Lib.Try
import Switchboard.Spec.Service

/-!
# The worker

`LocalWorker.poll_once`: one checkout, one attempt, at most one completion. What the
host, the control plane and the monitor thread do in the meantime is the `Host`: the
outcome of each call, the exceptions it raises, the tokens that were cancelled. Outside a
step nothing raises `ContainmentCleanupError`, only the client raises
`ExecutionOwnershipLostError`, and only `create_worktree` raises
`LocalCommitUnavailableError`.

* `attemptBody`: the `try` block.
* `finalize`: the `finally` block.
* `pollOnce`: the completion that is sent, if any.
* `ServerAnswers`: the control plane of the host is the service.
* `Unacceptable`: the attempts whose completion the service refuses.
-/

namespace Switchboard

open Transaction

/-! ## Exceptions -/

/-- An exception without a handler of its own. -/
structure PyException where
  typeName : String
  /-- An `OSError` or a `ValueError`. -/
  ioOrValue : Bool
  deriving DecidableEq, Repr

def valueError : PyException := ⟨"ValueError", true⟩

/-- What a call of the control plane raises. -/
inductive RemoteError
  | ownershipLost (credentialRejected : Bool)
  | exception (e : PyException)
  deriving DecidableEq, Repr

/-- What `create_worktree` raises. -/
inductive WorktreeError
  | localCommitUnavailable
  | exception (e : PyException)
  deriving DecidableEq, Repr

/-- What reaches the handlers of the attempt. -/
inductive WorkerError
  | containmentCleanup
  | ownershipLost (credentialRejected : Bool)
  | localCommitUnavailable
  | exception (e : PyException)
  deriving DecidableEq, Repr

def RemoteError.raised : RemoteError → WorkerError
  | ownershipLost credentialRejected => .ownershipLost credentialRejected
  | exception e => .exception e

def WorktreeError.raised : WorktreeError → WorkerError
  | localCommitUnavailable => .localCommitUnavailable
  | exception e => .exception e

/-! ## What the worker is given -/

/-- `AssignedWorkOrder`. -/
structure AssignedWorkOrder where
  id : ℕ
  spec : WorkOrderSpec

/-- `SafeManifest`. -/
structure SafeManifest where
  metadata : ManifestMetadata
  digest : String

/-- `ReuseLookup`, without the decision that repeats whether there is a candidate. -/
structure ReuseLookup where
  reason : String
  candidate : Option ReuseCandidate
  deriving DecidableEq, Repr

/-- `StepResult`, as far as the attempt reads it. -/
structure StepResult where
  stepId : String
  status : TerminalStatus
  terminalReason : Option String
  /-- The declared parser could not read the output. -/
  parserFailed : Bool
  deriving DecidableEq, Repr

/-- What `run_step` did; with the reason of the token if that was cancelled by then. -/
inductive StepOutcome
  | result (r : StepResult)
  | deadlineExceeded (cancelled : Option String) (text : String)
  | containmentCleanup
  | exception (cancelled : Option String) (e : PyException)

/-- `EvidenceStore`. -/
structure EvidenceStore where
  retentionExpiresAt : Time
  deriving DecidableEq, Repr

/-- The first and the second time the attempt does something. -/
inductive Pass
  | first | second
  deriving DecidableEq, Repr

/-- Where `verify_checkout_integrity` is called outside a step. -/
inductive IntegritySite
  | afterCheckout
  | beforeLocks (pass : Pass)
  | afterLocks (pass : Pass)
  | atEnd
  | beforeCapture (step : String) (artifact : TrustedArtifact)
  | afterCapture
  deriving DecidableEq, Repr

/-- `WorkerConfig`, as far as a manifest is checked against it. -/
structure WorkerConfig where
  workerId : String
  networkPolicyCapability : NetworkPolicy
  executionTimeoutSeconds : ℚ
  maximumStepTimeoutSeconds : ℚ
  outputSummaryLimit : ℕ

/-- What one poll meets: the answers of the control plane, what the local calls return or raise, and
when the token of the run was cancelled. -/
structure Host where
  config : WorkerConfig
  /-- Why `_begin_run` refuses the run. -/
  admission : Option String
  workOrder : Except RemoteError AssignedWorkOrder
  remoteManifest : Except RemoteError SafeManifest
  /-- `_validate_capabilities` against the discovered registration. -/
  satisfies : List (String × Json) → Bool
  /-- `monitor.start()`, and the reason of the token if it was cancelled. -/
  monitor : Except RemoteError (Option String)
  shutdownAtStart : Bool
  /-- Readings of the UTC clock. -/
  clock : ℕ → Time
  /-- The fingerprint of `_environment_identity`. -/
  environment : Except PyException String
  store : Except PyException EvidenceStore
  worktree : Except WorktreeError Unit
  integrity : IntegritySite → Except PyException Unit
  /-- `hash_declared_file` on a dependency lock. -/
  lockDigest : Pass → String → Except PyException String
  /-- The contract of `EvidenceReuseIdentity`. -/
  acceptsIdentity : Pass → ReuseIdentity → Except PyException Unit
  resolveReuseCandidate : ReuseIdentity → String → Except RemoteError ReuseLookup
  /-- The reason of the token after the lookup, if the monitor has cancelled it. -/
  cancelledAfterLookup : Option String
  /-- `verify_reuse_candidate`: whether it was verified, and why (not). -/
  verifyReuseCandidate : ReuseCandidate → Except PyException (Bool × String)
  runStep : ℕ → TrustedStep → StepOutcome
  /-- The same after the steps. -/
  cancelledAtEnd : Option String
  captureArtifact : TrustedArtifact → Except PyException Unit
  /-- The checks of `finalize_artifacts` on its declarations. -/
  acceptsArtifacts : List (String × TrustedArtifact) → Except PyException Unit
  /-- Size and digest of a retained artifact. -/
  measureArtifact : TrustedArtifact → Except PyException (ℕ × String)
  cleanup : Except PyException Unit
  /-- The serialised summary of the steps. -/
  summary : AssignedWorkOrder → List StepResult → Except PyException String
  /-- The contract of `EvidenceReuseProvenance`. -/
  acceptsProvenance : ReuseProvenance → Except PyException Unit
  /-- `finalize_evidence`: the fingerprint of a document that keeps its contract. -/
  fingerprint : ExecutionEvidence → Except PyException String
  writeResult : ExecutionEvidence → Except PyException Unit

/-! ## Manifests -/

variable (P : Platform)

/-- `_validate_manifest`. -/
def validateManifest (host : Host) (manifest : Option TrustedManifest) (remote : SafeManifest)
    (order : AssignedWorkOrder) : Except PyException TrustedManifest := do
  match manifest with
  | none => .error valueError
  | some m =>
    ensure (!m.executionSteps.isEmpty) valueError
    ensure (m.metadata.name == order.spec.manifestName && m.metadata.version == order.spec.manifestVersion &&
      P.manifestDigest m == order.spec.manifestDigest && remote.metadata == m.metadata &&
      remote.digest == P.manifestDigest m) valueError
    ensure (m.metadata.repositoryWritePolicy == .readOnly) valueError
    ensure (order.spec.manifestParameters.all fun p => decide (p.1 ∈ m.allowedParameters)) valueError
    ensure (order.spec.networkPolicy == host.config.networkPolicyCapability) valueError
    ensure (m.metadata.networkPolicy == host.config.networkPolicyCapability) valueError
    ensure (decide ((order.spec.timeoutSeconds : ℚ) ≤ host.config.executionTimeoutSeconds ∧
      (m.metadata.timeoutSeconds : ℚ) ≤ host.config.executionTimeoutSeconds)) valueError
    ensure (m.executionSteps.all fun s =>
      decide ((s.timeoutSeconds : ℚ) ≤ host.config.maximumStepTimeoutSeconds) &&
        decide (s.outputSummaryLimit ≤ host.config.outputSummaryLimit)) valueError
    ensure (host.satisfies m.metadata.requiredCapabilities) valueError
    ensure (host.satisfies order.spec.requiredCapabilities) valueError
    return m

/-- The manifest of the order: fetched, and checked against the local registry. -/
def fetchManifest (host : Host) (order : AssignedWorkOrder) : Except RemoteError TrustedManifest := do
  let remote ← host.remoteManifest
  match validateManifest P host (P.getTrustedManifest order.spec.manifestName order.spec.manifestVersion) remote
      order with
  | .ok m => return m
  | .error e => .error (.exception e)

/-! ## Variables of an attempt -/

/-- The local variables of `poll_once`, with the values they start with. -/
structure Attempt where
  worktree : Bool := false
  store : Option EvidenceStore := none
  manifest : Option TrustedManifest := none
  results : List StepResult := []
  attemptedSteps : List TrustedStep := []
  artifacts : List ArtifactRecord := []
  dependencyLocks : List DependencyLockHash := []
  dependencyLockStatus : String := "not_declared"
  artifactStatus : String := "not_started"
  sourceQuiescent : Bool := true
  sourceIntegrityVerified : Bool := true
  terminal : TerminalStatus := .failed
  reason : Option String := some "worker_initialization_failed"
  cleanup : String := "not_started"
  skipCompletion : Bool := false
  order : Option AssignedWorkOrder := none
  evidence : Option ExecutionEvidence := none
  environment : Option String := none
  reuseIdentity : Option ReuseIdentity := none
  reuseIdentityHash : Option String := none
  reuseDecision : ProvenanceDecision := .fresh
  reuseReason : String := "reuse_policy_never"
  lookup : Option ReuseLookup := none
  startedAt : Time

namespace Attempt

def finish (terminal : TerminalStatus) (reason : Option String) (a : Attempt) : Attempt :=
  { a with terminal := terminal, reason := reason }

/-- `if terminal == "succeeded": terminal, reason = "failed", ...`. -/
def failUnlessFailed (reason : String) (a : Attempt) : Attempt :=
  if a.terminal = .succeeded then a.finish .failed (some reason) else a

def decide (decision : ProvenanceDecision) (a : Attempt) : Attempt := { a with reuseDecision := decision }

end Attempt

/-- Whether `_cancellation_outcome` drops the completion. -/
def skipsCompletion (reason : String) : Bool :=
  reason != "overall_timeout" &&
    (reason == "ownership_lost" || "server_terminal:".toList.isPrefixOf reason.toList)

/-- The assignment of `_cancellation_outcome`. -/
def Attempt.cancelled (reason : String) (a : Attempt) : Attempt :=
  { a.finish (if reason = "overall_timeout" then .timedOut else .cancelled) (some reason) with
    skipCompletion := skipsCompletion reason }

/-! ## Steps -/

/-- The result of a step, failed when its declared result could not be parsed. -/
def StepResult.reviewed (hasContract : Bool) (r : StepResult) : StepResult :=
  if hasContract && r.parserFailed then
    { r with status := .failed, terminalReason := some "result_contract_parser_failed" }
  else r

def TerminalStatus.value : TerminalStatus → String
  | .succeeded => "succeeded"
  | .failed => "failed"
  | .timedOut => "timed_out"
  | .cancelled => "cancelled"

/-- The loop over the trusted steps. -/
def runSteps (host : Host) (hasContract : Bool) : ℕ → List TrustedStep → Attempt → Attempt
  | _, [], a => a
  | n, step :: rest, a =>
    let a := { a with attemptedSteps := a.attemptedSteps ++ [step] }
    match host.runStep n step with
    | .deadlineExceeded (some reason) _ => a.cancelled reason
    | .deadlineExceeded none text => a.finish .timedOut (some text)
    | .containmentCleanup =>
      { a with sourceQuiescent := false }.finish .failed (some "descendant_cleanup_failed")
    | .exception (some reason) _ => { a with sourceQuiescent := false }.cancelled reason
    | .exception none e => { a with sourceQuiescent := false }.finish .failed (some s!"worker_error:{e.typeName}")
    | .result r =>
      let r := r.reviewed hasContract
      let a :=
        { a with
          sourceQuiescent := a.sourceQuiescent && r.terminalReason != some "descendant_cleanup_failed"
          results := a.results ++ [r] }
      if r.status ≠ .succeeded ∧ step.required = true then
        a.finish r.status
          (orText r.terminalReason (some ("required_step_" ++ r.status.value ++ ":" ++ step.id)))
      else runSteps host hasContract (n + 1) rest a

/-! ## Reuse -/

/-- `_hash_dependency_locks`. -/
def hashDependencyLocks (host : Host) (pass : Pass) (manifest : TrustedManifest) :
    Except PyException (List DependencyLockHash) :=
  (Service.sortedTexts manifest.dependencyLockPaths).mapM fun path => do
    let digest ← host.lockDigest pass path
    return ⟨path, digest⟩

/-- `sorted(dependency_locks, key=lambda item: item.relative_path)`. -/
def sortedLocks (locks : List DependencyLockHash) : List DependencyLockHash :=
  locks.mergeSort fun a b => decide (a.relativePath ≤ b.relativePath)

/-- The document of `_build_reuse_identity`. -/
def reuseIdentity (order : AssignedWorkOrder) (manifest : TrustedManifest) (environment : String)
    (locks : List DependencyLockHash) : ReuseIdentity :=
  { repositoryFullName := order.spec.repositoryFullName
    testedSha := P.lower order.spec.commitSha
    manifestName := manifest.metadata.name
    manifestVersion := manifest.metadata.version
    manifestDigest := P.manifestDigest manifest
    workerEnvironmentFingerprint := environment
    dependencyLockHashes := sortedLocks locks
    executionPolicyHash := order.spec.executionPolicyHash
    resultContractHash := P.resultContractHash manifest }

/-- `_build_reuse_identity`. -/
def buildReuseIdentity (host : Host) (pass : Pass) (order : AssignedWorkOrder) (manifest : TrustedManifest)
    (environment : String) (locks : List DependencyLockHash) : Except PyException ReuseIdentity := do
  let identity := reuseIdentity P order manifest environment locks
  host.acceptsIdentity pass identity
  return identity

open Try

abbrev AttemptM := Try Attempt WorkerError

/-- The dependency locks of an order that may reuse, hashed before the lookup. -/
def hashLocksForReuse (host : Host) (manifest : TrustedManifest) : AttemptM (List DependencyLockHash) := do
  if manifest.dependencyLockPaths = [] then return []
  else
    call .exception (host.integrity (.beforeLocks .first))
    let locks ← call .exception (hashDependencyLocks host .first manifest)
    assign fun a => { a with dependencyLocks := locks }
    call .exception (host.integrity (.afterLocks .first))
    assign fun a => { a with dependencyLockStatus := "succeeded" }
    return locks

/-- The lookup of a source, and the token after it: losing the lease cancels it. -/
def lookUp (host : Host) (identity : ReuseIdentity) (identityHash : String) :
    AttemptM (Option ReuseLookup × Option String) := do
  match host.resolveReuseCandidate identity identityHash with
  | .ok lookup =>
    assign fun a => { a with lookup := some lookup, reuseReason := lookup.reason }
    return (some lookup, host.cancelledAfterLookup)
  | .error (.ownershipLost _) => return (none, host.cancelledAfterLookup.or (some "ownership_lost"))
  | .error (.exception e) =>
    if e.ioOrValue then
      assign fun a => { a with reuseReason := "reuse_lookup_unavailable" }
      return (none, host.cancelledAfterLookup)
    else call .exception (.error e)

/-- The decision after the lookup: whether to execute the steps. -/
def decideReuse (host : Host) (policy : ReusePolicy) (lookup : Option ReuseLookup) (cancelled : Option String) :
    AttemptM Bool := do
  match cancelled, lookup.bind ReuseLookup.candidate with
  | some reason, _ =>
    assign (Attempt.cancelled reason)
    return false
  | none, some candidate =>
    let (verified, reason) ← call .exception (host.verifyReuseCandidate candidate)
    assign fun a => { a with reuseReason := reason }
    if verified then
      assign fun a => (a.decide .reused).finish .succeeded none
      return false
    else if policy = .requireExact then
      assign fun a => (a.decide .unavailable).finish .failed (some reason)
      return false
    else return true
  | none, none =>
    if policy = .requireExact then
      assign fun a => (a.decide .unavailable).finish .failed (some a.reuseReason)
      return false
    else return true

/-- What an order with a reuse policy does before its steps; also the token after the lookup. -/
def reuseOrExecute (host : Host) (order : AssignedWorkOrder) (manifest : TrustedManifest) (environment : String) :
    AttemptM (Bool × Option String) := do
  if order.spec.reusePolicy = .never then return (true, none)
  else
    let locks ← hashLocksForReuse host manifest
    let identity ← call .exception (buildReuseIdentity P host .first order manifest environment locks)
    assign fun a =>
      { a with reuseIdentity := some identity, reuseIdentityHash := some (P.reuseIdentityHash identity) }
    let (lookup, cancelled) ← lookUp host identity (P.reuseIdentityHash identity)
    let executeFresh ← decideReuse host order.spec.reusePolicy lookup cancelled
    return (executeFresh, cancelled)

/-! ## The attempt -/

/-- The part of the `try` block that works on the checkout. A cancelled token stays cancelled. -/
def workOnCheckout (host : Host) (order : AssignedWorkOrder) (manifest : TrustedManifest) (environment : String) :
    AttemptM Unit := do
  call .exception (host.integrity .afterCheckout)
  assign fun a => { a.finish .succeeded none with cleanup := "pending" }
  let (executeFresh, cancelled) ← reuseOrExecute P host order manifest environment
  if executeFresh then
    assign fun a => runSteps host manifest.resultContract.isSome 0 manifest.executionSteps (a.decide .fresh)
  match cancelled.or host.cancelledAtEnd with
  | some reason => assign (Attempt.cancelled reason)
  | none => return ()

/-- The part of the `try` block that runs unless the run was cancelled before. -/
def execute (host : Host) (order : AssignedWorkOrder) (manifest : TrustedManifest) : AttemptM Unit := do
  assign fun a => { a with startedAt := host.clock 1 }
  let environment ← call .exception host.environment
  assign fun a => { a with environment := some environment }
  let store ← call .exception host.store
  assign fun a => { a with store := some store }
  call WorktreeError.raised host.worktree
  assign fun a => { a with worktree := true }
  workOnCheckout P host order manifest environment

/-- The `try` block of `poll_once`. -/
def attemptBody (host : Host) : AttemptM Unit := do
  let order ← call RemoteError.raised host.workOrder
  assign fun a => { a with order := some order }
  let manifest ← call RemoteError.raised (fetchManifest P host order)
  assign fun a => { a with manifest := some manifest }
  let cancelled ← call RemoteError.raised host.monitor
  match cancelled with
  | some reason => assign (Attempt.cancelled reason)
  | none =>
    if host.shutdownAtStart then assign (Attempt.finish .cancelled (some "worker_shutdown"))
    else execute P host order manifest

/-- The handlers of `poll_once`. -/
def handleError (e : WorkerError) (a : Attempt) : Attempt :=
  match e with
  | .containmentCleanup => { a with sourceQuiescent := false }.finish .failed (some "descendant_cleanup_failed")
  | .ownershipLost _ => { a.finish .cancelled (some "ownership_lost") with skipCompletion := true }
  | .localCommitUnavailable => a.finish .failed (some "requested_sha_not_available_locally")
  | .exception e =>
    let a := a.finish .failed (some s!"worker_error:{e.typeName}")
    if a.order.any fun o => o.spec.reusePolicy == .requireExact then
      { a.decide .unavailable with reuseReason := "reuse_precondition_failed" }
    else a

/-- The attempt after its `try` block and its handlers. -/
def attempt (host : Host) : Attempt :=
  match attemptBody P host { startedAt := host.clock 0 } with
  | (.ok _, a) => a
  | (.error e, a) => handleError e a

/-! ## The `finally` block -/

/-- The last check of the checkout. -/
def verifySource (host : Host) (a : Attempt) : Attempt :=
  if a.sourceQuiescent then
    match host.integrity .atEnd with
    | .ok _ => a
    | .error _ => { a.failUnlessFailed "checkout_integrity_failed" with sourceIntegrityVerified := false }
  else { a with sourceIntegrityVerified := false }

/-- The dependency locks of an attempt that has not hashed them. -/
def hashLocksLate (host : Host) (manifest : TrustedManifest) (a : Attempt) : Attempt :=
  let hashed : Try Attempt PyException Unit := do
    call id (host.integrity (.beforeLocks .second))
    let locks ← call id (hashDependencyLocks host .second manifest)
    assign fun a => { a with dependencyLocks := locks }
    call id (host.integrity (.afterLocks .second))
    assign fun a => { a with dependencyLockStatus := "succeeded" }
  match hashed a with
  | (.ok _, a) => a
  | (.error e, a) =>
    { a with dependencyLockStatus := "failed:" ++ e.typeName }.failUnlessFailed "dependency_lock_hash_failed"

/-- The statuses and the locks of a verified or an abandoned source. -/
def settleLocks (host : Host) (manifest : TrustedManifest) (a : Attempt) : Attempt :=
  if a.sourceQuiescent = false ∨ a.sourceIntegrityVerified = false then
    let skipped :=
      if a.sourceQuiescent then "skipped:checkout_integrity_failed" else "skipped:source_quiescence_failed"
    { a with
      dependencyLockStatus := if manifest.dependencyLockPaths = [] then a.dependencyLockStatus else skipped
      artifactStatus := if a.store.isSome then skipped else a.artifactStatus }
  else if manifest.dependencyLockPaths ≠ [] ∧ a.dependencyLockStatus ≠ "succeeded" then
    hashLocksLate host manifest a
  else a

/-- `finalize_artifacts` on measured artifacts. -/
def artifactRecord (store : EvidenceStore) (step : String) (artifact : TrustedArtifact) (size : ℕ)
    (digest : String) : ArtifactRecord :=
  { kind := artifact.kind, relativePath := artifact.relativePath, sizeBytes := size, sha256 := digest
    mediaType := artifact.mediaType, retentionExpiresAt := store.retentionExpiresAt
    redacted := artifact.redacted, producedByStep := some step }

/-- The capture of the declared artifacts. -/
def captureArtifacts (host : Host) (store : EvidenceStore) (steps : List TrustedStep) :
    Except PyException (List ArtifactRecord) := do
  let declarations := steps.flatMap fun s => s.artifacts.map fun artifact => (s.id, artifact)
  declarations.forM fun (step, artifact) => do
    host.integrity (.beforeCapture step artifact)
    host.captureArtifact artifact
  host.integrity .afterCapture
  host.acceptsArtifacts declarations
  declarations.mapM fun (step, artifact) => do
    let (size, digest) ← host.measureArtifact artifact
    return artifactRecord store step artifact size digest

def settleArtifacts (host : Host) (a : Attempt) : Attempt :=
  match a.store with
  | none => a
  | some store =>
    if a.sourceQuiescent ∧ a.sourceIntegrityVerified then
      match captureArtifacts host store a.attemptedSteps with
      | .ok artifacts => { a with artifacts := artifacts, artifactStatus := "succeeded" }
      | .error e =>
        { a with artifactStatus := "failed:" ++ e.typeName }.failUnlessFailed "artifact_finalization_failed"
    else a

/-- The removal of the worktree. -/
def settleCleanup (host : Host) (a : Attempt) : Attempt :=
  if a.sourceQuiescent = false then { a with cleanup := "skipped:source_quiescence_failed" }
  else if a.sourceIntegrityVerified = false then { a with cleanup := "skipped:checkout_integrity_failed" }
  else
    match host.cleanup with
    | .ok _ => { a with cleanup := "succeeded" }
    | .error e => { a with cleanup := "failed:" ++ e.typeName }.failUnlessFailed "cleanup_failed"

/-- What the `finally` block does with the source. -/
def settleSource (host : Host) (a : Attempt) : Attempt :=
  if a.worktree then
    match a.manifest with
    | some manifest => settleCleanup host (settleArtifacts host (settleLocks host manifest (verifySource host a)))
    | none => settleCleanup host a
  else a

/-- The provenance of the attempt. -/
def reuseProvenance (identityHash : String) (a : Attempt) : ReuseProvenance :=
  let source := if a.reuseDecision = .reused then a.lookup.bind ReuseLookup.candidate else none
  { decision := a.reuseDecision, reason := a.reuseReason, reuseIdentityHash := identityHash
    sourceRunId := source.map ReuseCandidate.sourceRunId
    sourceEvidenceFingerprint := source.map ReuseCandidate.expectedSourceEvidenceFingerprint }

/-- `_build_evidence`. -/
def buildEvidence (host : Host) (runId : ℕ) (order : AssignedWorkOrder) (manifest : TrustedManifest)
    (environment : String) (provenance : ReuseProvenance) (finishedAt : Time) (a : Attempt) :
    Except PyException ExecutionEvidence := do
  let draft : ExecutionEvidence :=
    { workOrderId := order.id, runId := runId, repositoryFullName := order.spec.repositoryFullName
      testedSha := P.lower order.spec.commitSha, manifestName := manifest.metadata.name
      manifestVersion := manifest.metadata.version, manifestDigest := P.manifestDigest manifest
      workerId := host.config.workerId, environmentFingerprint := environment
      dependencyLockHashes := a.dependencyLocks, startedAt := a.startedAt, finishedAt := finishedAt
      terminalStatus := a.terminal, terminalReason := a.reason, artifacts := a.artifacts
      reuseProvenance := some provenance, fingerprint := "" }
  let fingerprint ← host.fingerprint draft
  return { draft with fingerprint := fingerprint }

/-- Evidence after a first failure: built once more if its inputs were there. -/
def rebuildEvidence (host : Host) (runId : ℕ) (order : AssignedWorkOrder) (manifest : TrustedManifest)
    (environment : Option String) (provenance : Option ReuseProvenance) (a : Attempt) : Attempt :=
  let a := a.failUnlessFailed "local_result_record_failed"
  let built : Except PyException ExecutionEvidence :=
    match environment, provenance with
    | some environment, some provenance =>
      buildEvidence P host runId order manifest environment provenance (host.clock 3) a
    | _, _ => .error ⟨"RuntimeError", false⟩
  match built with
  | .ok evidence => { a with evidence := some evidence }
  | .error _ =>
    { a.finish .failed (some "evidence_finalization_failed") with
      evidence := none
      cleanup := String.ofList ((a.cleanup ++ ";evidence_failed").toList.take 64) }

/-- The identity of the attempt, built now if it was not before. -/
def settleIdentity (host : Host) (order : AssignedWorkOrder) (manifest : TrustedManifest) (environment : String)
    (a : Attempt) : Except PyException (Attempt × String) :=
  match a.reuseIdentity, a.reuseIdentityHash with
  | some _, some identityHash => .ok (a, identityHash)
  | some _, none => .error ⟨"AssertionError", false⟩
  | none, _ => do
    let identity ← buildReuseIdentity P host .second order manifest environment a.dependencyLocks
    let identityHash := P.reuseIdentityHash identity
    return ({ a with reuseIdentity := some identity, reuseIdentityHash := some identityHash }, identityHash)

/-- The evidence of an attempt with its identity. -/
def provideEvidence (host : Host) (runId : ℕ) (order : AssignedWorkOrder) (manifest : TrustedManifest)
    (environment identityHash : String) (a : Attempt) : Attempt :=
  let provenance := reuseProvenance identityHash a
  match host.acceptsProvenance provenance with
  | .error _ => rebuildEvidence P host runId order manifest (some environment) none a
  | .ok _ =>
    match buildEvidence P host runId order manifest environment provenance (host.clock 2) a with
    | .error _ => rebuildEvidence P host runId order manifest (some environment) (some provenance) a
    | .ok evidence =>
      match host.writeResult evidence with
      | .ok _ => { a with evidence := some evidence }
      | .error _ => rebuildEvidence P host runId order manifest (some environment) (some provenance) a

/-- The evidence of an attempt whose source was verified. -/
def settleEvidence (host : Host) (runId : ℕ) (order : AssignedWorkOrder) (manifest : TrustedManifest) (a : Attempt) :
    Attempt :=
  match a.environment.elim host.environment .ok with
  | .error _ => rebuildEvidence P host runId order manifest none none a
  | .ok environment =>
    let a := { a with environment := some environment }
    match settleIdentity P host order manifest environment a with
    | .error _ => rebuildEvidence P host runId order manifest (some environment) none a
    | .ok (a, identityHash) => provideEvidence P host runId order manifest environment identityHash a

/-- The evidence part of the `finally` block. -/
def finalizeEvidence (host : Host) (runId : ℕ) (a : Attempt) : Attempt :=
  match a.store, a.order, a.manifest with
  | some _, some order, some manifest =>
    if a.worktree ∧ a.sourceQuiescent ∧ a.sourceIntegrityVerified then settleEvidence P host runId order manifest a
    else a
  | _, _, _ => a

/-! ## Completions -/

/-- The serialised `{"steps": []}`. -/
def emptySummary : String := "\x7b\"steps\":[]\x7d"

/-- The payload of `complete_run` for the attempt. -/
def Attempt.completion (summary : String) (a : Attempt) : ExecutionCompletion :=
  { status := a.terminal.toRun
    resultSummary := some summary
    terminalReason := a.reason
    cleanupStatus := some a.cleanup
    artifactMetadata := if a.evidence.isSome then a.artifacts else []
    evidenceMetadata := a.evidence
    reuseDecision := some a.reuseDecision.toDecision
    reuseReason := some a.reuseReason
    reuseIdentity := a.reuseIdentity
    reuseIdentityHash := a.reuseIdentityHash
    evidenceRetentionExpiresAt :=
      if a.evidence.isSome then a.store.map fun s => ⟨s.retentionExpiresAt, some 0⟩ else none }

/-- The completion of `_complete_admission_rejection`. -/
def admissionRejection (reason : String) : ExecutionCompletion :=
  { status := .cancelled, terminalReason := some reason, cleanupStatus := some "not_started"
    resultSummary := some emptySummary }

/-- How a poll that checked out a run ends. -/
inductive PollResult
  | sent (completion : ExecutionCompletion)
  | skipped
  | raised (e : PyException)

/-- `poll_once`, once it has checked out the run. -/
def pollOnce (host : Host) (runId : ℕ) : PollResult :=
  match host.admission with
  | some reason => .sent (admissionRejection reason)
  | none =>
    let a := settleSource host (attempt P host)
    match a.order.elim (.ok emptySummary) fun order => host.summary order a.results with
    | .error e => .raised e
    | .ok summary =>
      let a := finalizeEvidence P host runId a
      if a.skipCompletion then .skipped else .sent (a.completion summary)

/-! ## The service at the other end -/

/-- The answers that the host got about the leased run are those of the service, after the calls of
`history`; the run was looked up only once. -/
structure ServerAnswers (history : List Call) (l : Lease) (order : WorkOrder) (host : Host) : Prop where
  worker : host.config.workerId = l.workerId
  order : ∀ o, host.workOrder = .ok o → o.id = order.id ∧ o.spec = order.spec
  lookup : ∀ identity identityHash lookup candidate,
    host.resolveReuseCandidate identity identityHash = .ok lookup → lookup.candidate = some candidate →
    ∃ before env after result ss,
      history =
        before ++ ⟨env, .resolveReuseCandidate l.executionRunId l.workerId identity identityHash⟩ :: after ∧
      Service.resolveReuseCandidate P env l.executionRunId l.workerId identity identityHash (runCalls P before) =
        .ok (result, ss) ∧
      result.candidate = some candidate ∧
      ∀ c ∈ after, ∀ workerId identity identityHash,
        c.operation ≠ .resolveReuseCandidate l.executionRunId workerId identity identityHash

/-- The checks of `_finish_active_lease` before it writes: `_validate_completion_evidence`,
`_reuse_completion_values` and with it `_validate_reuse_identity`. -/
def Service.completionChecks (snapshot : LeaseSnapshot) (completion : ExecutionCompletion) (s : Database) :
    Except ExecutionError RunReuse := do
  Service.validateCompletionEvidence snapshot completion s
  Service.reuseCompletionValues P snapshot completion s

/-! ## Attempts that end without a decision or without locks -/

/-- The attempt has its checkout. -/
structure CheckedOut (host : Host) (order : AssignedWorkOrder) (manifest : TrustedManifest) (environment : String)
    (store : EvidenceStore) : Prop where
  assigned : host.workOrder = .ok order
  fetched : fetchManifest P host order = .ok manifest
  monitored : host.monitor = .ok none
  running : host.shutdownAtStart = false
  identified : host.environment = .ok environment
  stored : host.store = .ok store
  checkedOut : host.worktree = .ok ()

/-- One pass over the dependency locks reads all of them. -/
def HashesLocks (host : Host) (pass : Pass) (manifest : TrustedManifest) : Prop :=
  host.integrity (.beforeLocks pass) = .ok () ∧ ∃ locks, hashDependencyLocks host pass manifest = .ok locks

/-- The locks that an order which may reuse has hashed before its lookup. -/
def HashedForReuse (host : Host) (manifest : TrustedManifest) (locks : List DependencyLockHash) : Prop :=
  manifest.dependencyLockPaths = [] ∧ locks = [] ∨
    manifest.dependencyLockPaths ≠ [] ∧ host.integrity (.beforeLocks .first) = .ok () ∧
      hashDependencyLocks host .first manifest = .ok locks ∧ host.integrity (.afterLocks .first) = .ok ()

/-- The token is cancelled while the attempt looks for a source. -/
def CancelledInLookup (host : Host) (order : AssignedWorkOrder) (manifest : TrustedManifest) (environment : String) :
    Prop :=
  host.integrity .afterCheckout = .ok () ∧
    ∃ locks identity, HashedForReuse host manifest locks ∧
      buildReuseIdentity P host .first order manifest environment locks = .ok identity ∧
      (∀ e, host.resolveReuseCandidate identity (P.reuseIdentityHash identity) = .error (.exception e) →
        e.ioOrValue = true) ∧
      host.cancelledAfterLookup.isSome = true

/-- The attempt ends before it decided about reuse, and the handler that decides for it is not reached: the
order cannot be fetched, the run is cancelled or the worker shut down before the start, the commit is not
available locally, or the run is cancelled during the lookup. -/
def EndsUndecided (host : Host) : Prop :=
  (∃ e, host.workOrder = .error (.exception e)) ∨
    ∃ order manifest, host.workOrder = .ok order ∧ fetchManifest P host order = .ok manifest ∧
      ((∃ reason, host.monitor = .ok (some reason)) ∨
        host.monitor = .ok none ∧
          (host.shutdownAtStart = true ∨
            ∃ environment store, host.environment = .ok environment ∧ host.store = .ok store ∧
              (host.worktree = .error .localCommitUnavailable ∨
                host.worktree = .ok () ∧ CancelledInLookup P host order manifest environment)))

/-- Whether the steps leave no process behind. -/
def quiesces (host : Host) (hasContract : Bool) : ℕ → List TrustedStep → Bool
  | _, [] => true
  | n, step :: rest =>
    match host.runStep n step with
    | .deadlineExceeded _ _ => true
    | .containmentCleanup | .exception _ _ => false
    | .result r =>
      (r.reviewed hasContract).terminalReason != some "descendant_cleanup_failed" &&
        (((r.reviewed hasContract).status != .succeeded && step.required) || quiesces host hasContract (n + 1) rest)

/-- The manifest declares dependency locks, none of the passes could read them, and the attempt still
reports an identity: the source was left quiescent and intact. -/
def LocksMissing (host : Host) : Prop :=
  ∃ order manifest environment store, CheckedOut P host order manifest environment store ∧
    manifest.dependencyLockPaths ≠ [] ∧
    ¬ (order.spec.reusePolicy ≠ .never ∧ host.integrity .afterCheckout = .ok () ∧ HashesLocks host .first manifest) ∧
    ¬ HashesLocks host .second manifest ∧
    (order.spec.reusePolicy = .never → host.integrity .afterCheckout = .ok () →
      quiesces host manifest.resultContract.isSome 0 manifest.executionSteps = true) ∧
    host.integrity .atEnd = .ok () ∧
    host.acceptsIdentity .second (reuseIdentity P order manifest environment []) = .ok ()

/-- The service refuses the completion of the attempt. -/
def Unacceptable (host : Host) (policy : ReusePolicy) : Prop :=
  host.admission = none ∧ (policy = .requireExact ∧ EndsUndecided P host ∨ LocksMissing P host)

end Switchboard
