import Switchboard.Spec.Worker

/-!
# Declared artifacts

`EvidenceStore.capture_declared_artifact` and `EvidenceStore.finalize_artifacts` over the
files that they find. A capture copies a file that is missing from the run directory out
of the checkout, so a file captured before is found again and a second capture of its
path does nothing.

* `captureDeclaredArtifact`, `measureArtifacts`: the two functions.
* `Host.withFiles`: a host whose evidence store works on these files.
* `WithinLimits`: every declared artifact is captured within the limits.
* `Undisturbed`: an attempt that executes its steps and in which nothing but steps and
  artifacts can fail.
-/

namespace Switchboard

open Transaction

/-! ## The evidence store -/

/-- `EvidenceLimits`. -/
structure EvidenceLimits where
  maximumArtifactCount : ℕ
  maximumArtifactBytes : ℕ
  maximumTotalBytes : ℕ
  deriving DecidableEq, Repr

/-- What is found at a path: nothing, a contained regular file that may or may not change while it is read,
or anything else. -/
inductive FileState
  | missing
  | irregular
  | regular (size : ℕ) (sha256 : String) (stable : Bool)
  deriving DecidableEq, Repr

def FileState.size : FileState → ℕ
  | regular size _ _ => size
  | _ => 0

/-- The files of one run, by relative path. -/
structure ArtifactFiles where
  /-- `verify_ownership`. -/
  ownership : Except PyException Unit
  runDirectory : String → FileState
  checkout : String → FileState

/-- The file in the run directory once it was captured. -/
def ArtifactFiles.retained (files : ArtifactFiles) (path : String) : FileState :=
  match files.runDirectory path with
  | .missing => files.checkout path
  | found => found

def runtimeError : PyException := ⟨"RuntimeError", false⟩

/-- `capture_declared_artifact`. -/
def captureDeclaredArtifact (limits : EvidenceLimits) (files : ArtifactFiles) (artifact : TrustedArtifact) :
    Except PyException Unit := do
  files.ownership
  match files.runDirectory artifact.relativePath with
  | .regular _ _ _ => return ()
  | .irregular => .error valueError
  | .missing =>
    match files.checkout artifact.relativePath with
    | .missing | .irregular => .error valueError
    | .regular size _ stable =>
      ensure (decide (size ≤ limits.maximumArtifactBytes)) valueError
      ensure stable runtimeError

/-- The loop of `finalize_artifacts`, with the bytes counted so far: size and digest of each artifact. -/
def measureArtifacts (limits : EvidenceLimits) (files : ArtifactFiles) :
    ℕ → List (String × TrustedArtifact) → Except PyException (List (ℕ × String))
  | _, [] => .ok []
  | total, (_, artifact) :: rest =>
    match files.retained artifact.relativePath with
    | .missing => .error ⟨"FileNotFoundError", true⟩
    | .irregular => .error valueError
    | .regular size sha256 stable => do
      ensure (decide (size ≤ limits.maximumArtifactBytes)) valueError
      ensure (decide (total + size ≤ limits.maximumTotalBytes)) valueError
      ensure stable runtimeError
      let measured ← measureArtifacts limits files (total + size) rest
      return (size, sha256) :: measured

/-- The checks of `finalize_artifacts`. -/
def finalizeChecks (limits : EvidenceLimits) (files : ArtifactFiles) (declarations : List (String × TrustedArtifact)) :
    Except PyException Unit := do
  files.ownership
  ensure (decide (declarations.length ≤ limits.maximumArtifactCount)) valueError
  ensure (decide (declarations.map fun d => d.2.relativePath).Nodup) valueError
  let _ ← measureArtifacts limits files 0 declarations
  return ()

/-- The host with an evidence store over these files. -/
def Host.withFiles (host : Host) (limits : EvidenceLimits) (files : ArtifactFiles) : Host :=
  { host with
    captureArtifact := captureDeclaredArtifact limits files
    acceptsArtifacts := finalizeChecks limits files
    measureArtifact := fun artifact =>
      match files.retained artifact.relativePath with
      | .regular size sha256 _ => .ok (size, sha256)
      | _ => .error valueError }

/-! ## Outcomes -/

/-- The artifacts declared by these steps, each with its step. -/
def declarations (steps : List TrustedStep) : List (String × TrustedArtifact) :=
  steps.flatMap fun s => s.artifacts.map fun artifact => (s.id, artifact)

/-- Every declared artifact is captured within the limits. -/
structure WithinLimits (limits : EvidenceLimits) (files : ArtifactFiles)
    (declared : List (String × TrustedArtifact)) : Prop where
  count : declared.length ≤ limits.maximumArtifactCount
  distinct : (declared.map fun d => d.2.relativePath).Nodup
  captured : ∀ d ∈ declared, ∃ size sha256,
    files.retained d.2.relativePath = .regular size sha256 true ∧ size ≤ limits.maximumArtifactBytes
  total : (declared.map fun d => (files.retained d.2.relativePath).size).sum ≤ limits.maximumTotalBytes

variable (P : Platform)

/-- The lookup of an identity offers no source, or none that can be verified. -/
def NoSource (host : Host) (identity : ReuseIdentity) : Prop :=
  match host.resolveReuseCandidate identity (P.reuseIdentityHash identity) with
  | .ok lookup => ∀ candidate, lookup.candidate = some candidate →
      ∃ reason, host.verifyReuseCandidate candidate = .ok (false, reason)
  | .error (.exception e) => e.ioOrValue = true
  | .error (.ownershipLost _) => False

/-- The attempt goes on to its steps: the order may not reuse, or it need not and there is no source. The
dependency locks are read, before the lookup or at the end. -/
def ExecutesFresh (host : Host) (order : AssignedWorkOrder) (manifest : TrustedManifest) (environment : String) :
    Prop :=
  order.spec.reusePolicy = .never ∧
      (manifest.dependencyLockPaths ≠ [] → ∃ locks, hashDependencyLocks host .second manifest = .ok locks) ∨
    order.spec.reusePolicy = .allowExact ∧ ∃ locks identity, HashedForReuse host manifest locks ∧
      buildReuseIdentity P host .first order manifest environment locks = .ok identity ∧ NoSource P host identity

/-- An attempt that executes its steps, without a cancellation, an overall timeout or a failure of the
containment, of the integrity of the checkout, of the dependency locks, of the cleanup or of the records. -/
structure Undisturbed (host : Host) (order : AssignedWorkOrder) (manifest : TrustedManifest) (environment : String)
    (store : EvidenceStore) : Prop extends CheckedOut P host order manifest environment store where
  admitted : host.admission = none
  intact : ∀ site, host.integrity site = .ok ()
  uncancelled : host.cancelledAfterLookup = none ∧ host.cancelledAtEnd = none
  fresh : ExecutesFresh P host order manifest environment
  returns : ∀ n step, manifest.executionSteps[n]? = some step → ∃ r, host.runStep n step = .result r ∧
    (r.reviewed manifest.resultContract.isSome).terminalReason ≠ some "descendant_cleanup_failed"
  cleaned : host.cleanup = .ok ()
  summarised : ∀ results, ∃ text, host.summary order results = .ok text
  identifies : ∀ identity, host.acceptsIdentity .second identity = .ok ()
  attests : ∀ provenance, host.acceptsProvenance provenance = .ok ()
  fingerprinted : ∀ evidence, ∃ fingerprint, host.fingerprint evidence = .ok fingerprint
  recorded : ∀ evidence, host.writeResult evidence = .ok ()

/-- Every required step succeeds; of the others nothing is said. -/
def RequiredStepsSucceed (host : Host) (manifest : TrustedManifest) : Prop :=
  ∀ n step r, manifest.executionSteps[n]? = some step → step.required = true → host.runStep n step = .result r →
    (r.reviewed manifest.resultContract.isSome).status = .succeeded

end Switchboard
