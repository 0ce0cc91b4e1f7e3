import Switchboard.Spec.Enums

/-!
# Evidence and reuse contracts

The compact evidence documents of `evidence.py` as far as the service, the worker and
the statements about them read them, and the commands of `entities.py`. A value of
these types stands for a document that passed its schema; timestamps in them are the
UTC instants that `_aware_utc` normalises to.

`DateTime` is a Python datetime: wall-clock fields and an optional UTC offset. A
`DateTime` database column keeps the wall clock only.
-/

namespace Switchboard

/-- An instant, or a UTC-naive database timestamp, in microseconds. -/
abbrev Time := ℤ

/-- A Python `datetime`: wall clock and, when aware, its UTC offset. -/
structure DateTime where
  wall : Time
  utcoffset : Option ℤ
  deriving DecidableEq, Repr

namespace DateTime

def isAware (d : DateTime) : Bool := d.utcoffset.isSome

/-- `_utc_naive`, and the instant of `astimezone(UTC)`: naive values stay as they are. -/
def utcNaive (d : DateTime) : Time := d.wall - d.utcoffset.getD 0

/-- What a `DateTime` column stores: the offset is dropped. -/
def stored (d : DateTime) : Time := d.wall

end DateTime

structure ArtifactRecord where
  kind : String
  relativePath : String
  sizeBytes : ℕ
  sha256 : String
  mediaType : String
  retentionExpiresAt : Time
  redacted : Bool
  producedByStep : Option String
  deriving DecidableEq, Repr

structure DependencyLockHash where
  relativePath : String
  sha256 : String
  deriving DecidableEq, Repr

/-- `EvidenceReuseIdentity`. -/
structure ReuseIdentity where
  repositoryFullName : String
  testedSha : String
  manifestName : String
  manifestVersion : String
  manifestDigest : String
  workerEnvironmentFingerprint : String
  dependencyLockHashes : List DependencyLockHash
  executionPolicyHash : String
  resultContractHash : String
  deriving DecidableEq, Repr

/-- `EvidenceReuseProvenance`. -/
structure ReuseProvenance where
  decision : ProvenanceDecision
  reason : String
  reuseIdentityHash : String
  sourceRunId : Option ℕ
  sourceEvidenceFingerprint : Option String
  deriving DecidableEq, Repr

/-- `ReuseCandidate`: the server-derived source that a worker may verify locally. -/
structure ReuseCandidate where
  sourceRunId : ℕ
  expectedSourceWorkerId : String
  expectedSourceEvidenceFingerprint : String
  reuseIdentity : ReuseIdentity
  reuseIdentityHash : String
  sourceCreatedAt : Time
  retentionExpiresAt : Time
  artifacts : List ArtifactRecord
  deriving DecidableEq, Repr

/-- `ExecutionEvidence`. -/
structure ExecutionEvidence where
  workOrderId : ℕ
  runId : ℕ
  repositoryFullName : String
  testedSha : String
  manifestName : String
  manifestVersion : String
  manifestDigest : String
  workerId : String
  environmentFingerprint : String
  dependencyLockHashes : List DependencyLockHash
  startedAt : Time
  finishedAt : Time
  terminalStatus : TerminalStatus
  terminalReason : Option String
  artifacts : List ArtifactRecord
  reuseProvenance : Option ReuseProvenance
  fingerprint : String
  deriving DecidableEq, Repr

/-- `ExecutionCompletion`: the terminal report of the lease owner. -/
structure ExecutionCompletion where
  status : ExecutionRunStatus
  resultSummary : Option String := none
  terminalReason : Option String := none
  cleanupStatus : Option String := none
  artifactMetadata : List ArtifactRecord := []
  evidenceMetadata : Option ExecutionEvidence := none
  reuseDecision : Option ReuseDecision := none
  reuseReason : Option String := none
  reuseIdentity : Option ReuseIdentity := none
  reuseIdentityHash : Option String := none
  evidenceRetentionExpiresAt : Option DateTime := none

end Switchboard
