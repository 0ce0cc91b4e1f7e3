import Switchboard.Lib.IsoTime
import Switchboard.Spec.Artifacts
import Switchboard.Spec.FileStore
import Switchboard.Spec.Parsers
import Switchboard.Spec.RelativePath

/-!
# Retained evidence

The evidence root of a worker as a tree of files and directories that nobody else writes to: one directory for each run,
with its ownership marker, its result record and its artifacts (`execution_worker/evidence.py`).

* `verifyOwnership`, `verifyReuseCandidate`: the verification of a source of reuse.
* `pruneCandidate`, `pruneExpiredEvidence`: the removal of what has expired.
-/

namespace Switchboard

open Transaction
open JsonText (Value)

/-! ## The evidence root -/

/-- What is at a path. Of the entries with one name the first counts. -/
inductive Node
  | file (data : Bytes)
  | directory (entries : List (String × Node))

/-- What the evidence root holds. -/
structure EvidenceRoot where
  children : List (String × Node)
  distinct : (children.map Prod.fst).Nodup

/-- The exceptions of the two functions. -/
inductive EvidenceError
  | fileNotFound
  | notADirectory
  | valueError
  | unicodeDecodeError
  | jsonDecodeError
  | typeError
  | runtimeError
  | recursionError
  deriving DecidableEq, Repr

def EvidenceError.typeName : EvidenceError → String
  | .fileNotFound => "FileNotFoundError"
  | .notADirectory => "NotADirectoryError"
  | .valueError => "ValueError"
  | .unicodeDecodeError => "UnicodeDecodeError"
  | .jsonDecodeError => "JSONDecodeError"
  | .typeError => "TypeError"
  | .runtimeError => "RuntimeError"
  | .recursionError => "RecursionError"

/-- `os.lstat` of a path below a node. -/
def Node.lstat : Node → List String → Except EvidenceError Node
  | node, [] => .ok node
  | .file _, _ :: _ => .error .notADirectory
  | .directory entries, name :: path =>
    match entries.find? fun entry => entry.1 == name with
    | none => .error .fileNotFound
    | some (_, node) => node.lstat path

/-- `_assert_regular_contained`, and the bytes of the file. -/
def Node.regularFile (node : Node) (path : List String) : Except EvidenceError Bytes := do
  match ← node.lstat path with
  | .file data => return data
  | .directory _ => .error .valueError

/-- `os.lstat` of a path below the evidence root, which need not exist. -/
def EvidenceRoot.lstat (root : Option EvidenceRoot) (path : List String) : Except EvidenceError Node :=
  match root with
  | none => .error .fileNotFound
  | some root => (Node.directory root.children).lstat path

/-- `f"run-{run_id}"`. -/
def runName (runId : ℤ) : String := "run-" ++ toString runId

/-! ## Values of JSON -/

def evidenceJsonError : JsonText.Error → EvidenceError
  | .decode => .jsonDecodeError
  | .value => .valueError
  | .recursion => .recursionError

mutual

/-- Python's `==` of decoded values: numbers are equal by value, and mappings whatever the order of their items. -/
def sameValue : Value Binary64 → Value Binary64 → Bool
  | .null, .null => true
  | .bool a, b => equalsNumber (if a then 1 else 0) b
  | .int a, b => equalsNumber a b
  | .float (.finite a), b => equalsNumber a b
  | .float (.infinity a), .float (.infinity b) => a == b
  | .str a, .str b => a == b
  | .arr as, .arr bs => sameValues as bs
  | .obj as, .obj bs => as.length == bs.length && sameFields as bs
  | _, _ => false

def sameValues : List (Value Binary64) → List (Value Binary64) → Bool
  | [], [] => true
  | a :: as, b :: bs => sameValue a b && sameValues as bs
  | _, _ => false

/-- Every item of the first mapping is one of the second. -/
def sameFields : List (String × Value Binary64) → List (String × Value Binary64) → Bool
  | [], _ => true
  | (name, a) :: as, bs =>
    (match getField bs name with
      | none => false
      | some b => sameValue a b) && sameFields as bs

end

variable (I : Interpreter)

/-- `json.loads` of the bytes of a file. -/
def loadsBytes (data : Bytes) : Except EvidenceError (Value Binary64) :=
  match Utf8.strict data with
  | none => .error .unicodeDecodeError
  | some text => (JsonText.loads (jsonDecoder I) text).mapError evidenceJsonError

/-! ## Ownership markers -/

/-- `_MAX_MARKER_BYTES`. -/
def maximumMarkerBytes : ℕ := 4096

/-- `json.loads(_read_bounded_regular_text(directory / _MARKER_NAME))`. -/
def readMarker (directory : Node) : Except EvidenceError (Value Binary64) := do
  let data ← directory.regularFile ["ownership.json"]
  ensure (decide (data.length ≤ maximumMarkerBytes)) .valueError
  loadsBytes I data

/-- `isoformat().replace("+00:00", "Z")` of an instant in UTC; there is none outside of the years of `datetime`. -/
def isoUtc (t : Time) : Option String :=
  (IsoTime.fieldsOf t).map fun d =>
    String.ofList (PyText.replace "+00:00".toList "Z".toList (IsoTime.isoformat d ++ "+00:00".toList))

def markerFields : List String := ["created_at", "retention_expires_at", "run_id", "schema_version", "worker_id"]

/-- `expected_marker`. -/
def expectedMarker (workerId : String) (candidate : ReuseCandidate) : Option (Value Binary64) := do
  let created ← isoUtc candidate.sourceCreatedAt
  let expires ← isoUtc candidate.retentionExpiresAt
  return .obj
    [("created_at", .str created), ("retention_expires_at", .str expires), ("run_id", .int candidate.sourceRunId),
      ("schema_version", .int 1), ("worker_id", .str workerId)]

/-- `verify_ownership` of the directory of a candidate's source. -/
def verifyOwnership (directory : Except EvidenceError Node) (workerId : String) (candidate : ReuseCandidate) :
    Except EvidenceError Unit :=
  match directory.bind (readMarker I) with
  | .error .fileNotFound => .error .fileNotFound
  -- no `ValueError`, and a `RuntimeError` already
  | .error .recursionError => .error .recursionError
  | .error _ => .error .runtimeError
  | .ok marker => ensure ((expectedMarker workerId candidate).any (sameValue marker)) .runtimeError

/-! ## Verification -/

/-- `ReuseVerificationResult`. -/
structure ReuseVerificationResult where
  verified : Bool
  reason : String
  deriving DecidableEq, Repr

/-- `model_validate` of the two models of a result record. -/
structure EvidenceModels where
  evidence : Value Binary64 → Except EvidenceError ExecutionEvidence
  identity : Value Binary64 → Except EvidenceError ReuseIdentity

variable (P : Platform) (models : EvidenceModels) (sha256 : Bytes → String)

/-- `_read_stable_json`. -/
def readStableJson (directory : Node) (path : List String) (maximumBytes : ℕ) :
    Except EvidenceError (Value Binary64) := do
  let data ← directory.regularFile path
  ensure (decide (data.length ≤ maximumBytes)) .valueError
  loadsBytes I data

def resultReason : EvidenceError → String
  | .fileNotFound => "source_evidence_missing"
  | .runtimeError | .recursionError => "source_result_unstable"
  | _ => "source_result_invalid"

def resultFields : List String := ["evidence", "result_summary", "reuse_identity", "reuse_identity_hash"]

/-- The stored result is that of the candidate. -/
def resultMatches (workerId : String) (candidate : ReuseCandidate) (evidence : ExecutionEvidence)
    (identity : ReuseIdentity) (identityHash : Value Binary64) : Bool :=
  decide (identity = candidate.reuseIdentity) &&
    isText identityHash candidate.reuseIdentityHash &&
    isText identityHash (P.reuseIdentityHash identity) &&
    decide (evidence.runId = candidate.sourceRunId) &&
    decide (evidence.workerId = workerId) &&
    decide (evidence.terminalStatus = .succeeded) &&
    decide (evidence.fingerprint = candidate.expectedSourceEvidenceFingerprint) &&
    decide (evidence.repositoryFullName = identity.repositoryFullName) &&
    decide (evidence.testedSha = identity.testedSha) &&
    decide (evidence.manifestName = identity.manifestName) &&
    decide (evidence.manifestVersion = identity.manifestVersion) &&
    decide (evidence.manifestDigest = identity.manifestDigest) &&
    decide (evidence.environmentFingerprint = identity.workerEnvironmentFingerprint) &&
    decide (evidence.dependencyLockHashes = identity.dependencyLockHashes) &&
    decide (evidence.artifacts = candidate.artifacts) &&
    evidence.reuseProvenance.any fun provenance =>
      decide (provenance.decision = .fresh) && isText identityHash provenance.reuseIdentityHash

/-- The part of the verification that reads the result record. -/
def checkResult (directory : Node) (workerId : String) (candidate : ReuseCandidate) (limits : EvidenceLimits) :
    Except String Unit := do
  match ← (readStableJson I directory ["result.json"] limits.maximumArtifactBytes).mapError resultReason with
  | .obj fields =>
    ensure (hasKeys fields resultFields) "source_result_invalid"
    let evidence ← (models.evidence ((getField fields "evidence").getD .null)).mapError resultReason
    let identity ← (models.identity ((getField fields "reuse_identity").getD .null)).mapError resultReason
    ensure (resultMatches P workerId candidate evidence identity ((getField fields "reuse_identity_hash").getD .null))
      "source_result_identity_mismatch"
  | _ => .error "source_result_invalid"

def artifactReason : EvidenceError → String
  | .fileNotFound => "source_evidence_pruned"
  | _ => "source_artifact_unsafe"

/-- The bytes of an artifact, if `_safe_path` accepts its path. -/
def readArtifact (directory : Node) (relativePath : String) : Except EvidenceError Bytes := do
  let path ← (safePath P [] relativePath).mapError fun _ => EvidenceError.valueError
  directory.regularFile (path.map String.ofList)

/-- The loop over the listed artifacts, with the bytes counted so far. -/
def checkArtifacts (directory : Node) (candidate : ReuseCandidate) (limits : EvidenceLimits) :
    ℕ → List ArtifactRecord → Except String Unit
  | _, [] => return ()
  | total, record :: records => do
    ensure (decide (record.retentionExpiresAt = candidate.retentionExpiresAt)) "source_retention_mismatch"
    let data ← (readArtifact P directory record.relativePath).mapError artifactReason
    ensure (decide (data.length = record.sizeBytes)) "source_artifact_size_mismatch"
    ensure (decide (data.length ≤ limits.maximumArtifactBytes)) "source_artifact_oversized"
    ensure (decide (total + data.length ≤ limits.maximumTotalBytes)) "source_artifacts_oversized"
    ensure (decide (sha256 data = record.sha256)) "source_artifact_hash_mismatch"
    checkArtifacts directory candidate limits (total + data.length) records

def markerReason : EvidenceError → String
  | .fileNotFound => "source_evidence_missing"
  | _ => "source_marker_invalid"

/-- The checks of `verify_reuse_candidate`: the reason of the first one that fails. -/
def checkCandidate (root : Option EvidenceRoot) (workerId : String) (candidate : ReuseCandidate) (now : DateTime)
    (limits : EvidenceLimits) : Except String Unit := do
  ensure now.isAware "reuse_verification_time_invalid"
  ensure (decide (candidate.expectedSourceWorkerId = workerId)) "source_worker_mismatch"
  ensure (decide (now.utcNaive < candidate.retentionExpiresAt)) "source_evidence_expired"
  ensure (decide (candidate.artifacts.length ≤ limits.maximumArtifactCount)) "source_artifact_count_oversized"
  let directory := EvidenceRoot.lstat root [runName candidate.sourceRunId]
  (verifyOwnership I directory workerId candidate).mapError markerReason
  let directory ← directory.mapError resultReason
  checkResult I P models directory workerId candidate limits
  checkArtifacts P sha256 directory candidate limits 0 candidate.artifacts
  (verifyOwnership I (.ok directory) workerId candidate).mapError artifactReason

/-- `verify_reuse_candidate`. -/
def verifyReuseCandidate (root : Option EvidenceRoot) (workerId : String) (candidate : ReuseCandidate) (now : DateTime)
    (limits : EvidenceLimits) : ReuseVerificationResult :=
  match checkCandidate I P models sha256 root workerId candidate now limits with
  | .error reason => ⟨false, reason⟩
  | .ok _ => ⟨true, "exact_evidence_verified"⟩

/-! ## Pruning -/

/-- `PruneResult`. -/
structure PruneResult where
  removedRunIds : List ℤ
  failures : List String
  deriving DecidableEq, Repr

-- `str` of a value that is not a text
variable (textOf : Value Binary64 → String)

/-- `str(value)`. -/
def strOf : Value Binary64 → String
  | .str s => s
  | v => textOf v

/-- The run that a marker of the worker names, in a directory with its name. -/
def ownedRun (workerId name : String) (fields : List (String × Value Binary64)) : Option ℤ :=
  match getField fields "schema_version", getField fields "worker_id", getField fields "run_id" with
  | some version, some worker, some (.int runId) =>
    if sameValue version (.int 1) ∧ isText worker workerId ∧ 1 ≤ runId ∧ name = runName runId then some runId else none
  | _, _, _ => none

/-- The instant of a `datetime` that is aware. -/
def awareInstant (d : IsoTime.Fields × Option ℤ) : Option Time := d.2.map fun offset => d.1.instant - offset

/-- `fromisoformat` of the retention of a marker. -/
def retentionOf (fields : List (String × Value Binary64)) : Option (IsoTime.Fields × Option ℤ) :=
  IsoTime.fromIsoformat
    (PyText.replace "Z".toList "+00:00".toList
      (strOf textOf ((getField fields "retention_expires_at").getD .null)).toList)

/-- One direct child of the evidence root: the run that is removed, if any. -/
def pruneCandidate (workerId : String) (now : Time) (child : String × Node) : Except EvidenceError (Option ℤ) := do
  match child.2 with
  | .file _ => .error .runtimeError
  | .directory _ =>
    match ← readMarker I child.2 with
    | .obj fields =>
      ensure (hasKeys fields markerFields) .runtimeError
      match ownedRun workerId child.1 fields with
      | none => .error .runtimeError
      | some runId =>
        match retentionOf textOf fields with
        | none => .error .valueError
        | some expires => return if (awareInstant expires).any fun t => decide (t ≤ now) then some runId else none
    | _ => .error .runtimeError

/-- `shutil.rmtree`. -/
def EvidenceRoot.remove (root : EvidenceRoot) (name : String) : EvidenceRoot :=
  { children := root.children.filter fun child => child.1 != name
    distinct := root.distinct.sublist (List.filter_sublist.map _) }

/-- The loop of `prune_expired_evidence`. -/
def pruneLoop (workerId : String) (now : Time) : List (String × Node) → PruneResult → EvidenceRoot →
    PruneResult × EvidenceRoot
  | [], result, root => (result, root)
  | child :: children, result, root =>
    match pruneCandidate I textOf workerId now child with
    | .ok (some runId) =>
      pruneLoop workerId now children { result with removedRunIds := result.removedRunIds ++ [runId] }
        (root.remove child.1)
    | .ok none => pruneLoop workerId now children result root
    | .error e =>
      pruneLoop workerId now children
        { result with failures := result.failures ++ [s!"{child.1}:{e.typeName}"] } root

/-- `prune_expired_evidence`, with the evidence root that it leaves. -/
def pruneExpiredEvidence (root : Option EvidenceRoot) (workerId : String) (now : DateTime) :
    Except EvidenceError (PruneResult × Option EvidenceRoot) := do
  ensure now.isAware .valueError
  match root with
  | none => return (⟨[], []⟩, none)
  | some root =>
    let result := pruneLoop I textOf workerId now.utcNaive
      (root.children.mergeSort fun a b => decide (a.1 ≤ b.1)) ⟨[], []⟩ root
    return (result.1, some result.2)

end Switchboard
