import Switchboard.Spec.Routing

/-!
# GitHub validation requests

The rows of `github_validation_requests` and the statements of the adapter's
`repository.py`. Each of the three claim operations is one guarded statement and its
commit.

* `acquirePublicationClaim`, `renewPublicationClaim`, `finalizePublicationClaim`.
* `runClaims`: any sequence of them, with what each reported.
* `ClaimsFenced`: what holds along all of them.
-/

namespace Switchboard

open Table

/-! ## Records -/

structure GitHubActorIdentity where
  actorId : ℕ
  nodeId : String
  deriving DecidableEq, Repr

inductive PublicationState
  | notPublished
  | publishedCurrent
  | publishedStale
  | retryableFailure
  | failed
  deriving DecidableEq, Repr

inductive PublicationDecision
  | notEvaluated
  | current
  | stale
  deriving DecidableEq, Repr

/-- What a request was resolved to. No statement updates these columns. -/
structure RequestIdentity where
  idempotencyKey : String
  githubApiUrl : String
  githubHost : String
  repositoryFullName : String
  repositoryId : ℕ
  repositoryNodeId : String
  githubActorId : Option ℕ
  githubActorNodeId : Option String
  pullRequestNumber : ℕ
  pullRequestId : ℕ
  pullRequestNodeId : String
  pullRequestState : String
  pullRequestDraft : Bool
  pullRequestMerged : Bool
  baseRef : String
  baseSha : String
  headRef : String
  headSha : String
  headRepositoryFullName : String
  headRepositoryId : ℕ
  manifestName : String
  manifestVersion : String
  manifestDigest : String
  operatorId : String
  workOrderId : ℕ
  deriving DecidableEq, Repr

structure GitHubValidationRequest where
  id : ℕ
  identity : RequestIdentity
  terminalRunId : Option ℕ := none
  managedCommentId : Option ℕ := none
  publicationState : PublicationState := .notPublished
  publicationDecision : PublicationDecision := .notEvaluated
  publicationHeadSha : Option String := none
  lastTransportReason : Option String
  publicationReason : Option String := none
  publicationClaimToken : Option String := none
  publicationClaimedAt : Option Time := none
  publicationClaimExpiresAt : Option Time := none
  lastResolvedAt : Time
  lastPublicationAttemptAt : Option Time := none
  publishedAt : Option Time := none
  deriving DecidableEq, Repr

instance : Keyed GitHubValidationRequest ℕ := ⟨GitHubValidationRequest.id⟩

/-- The columns that a result of a publication sets; `none` leaves a column as it is. -/
structure PublicationValues where
  terminalRunId : Option ℕ := none
  managedCommentId : Option ℕ := none
  lastResolvedAt : Option Time := none
  lastTransportReason : Option String := none
  publicationHeadSha : Option (Option String) := none
  publicationDecision : Option PublicationDecision := none
  publicationState : Option PublicationState := none
  publicationReason : Option String := none
  publishedAt : Option Time := none
  deriving DecidableEq, Repr

namespace GitHubValidationRequest

/-- The row with the values of a result. -/
def published (v : PublicationValues) (r : GitHubValidationRequest) : GitHubValidationRequest :=
  { r with
    terminalRunId := v.terminalRunId.or r.terminalRunId
    managedCommentId := v.managedCommentId.or r.managedCommentId
    lastResolvedAt := v.lastResolvedAt.getD r.lastResolvedAt
    lastTransportReason := v.lastTransportReason.or r.lastTransportReason
    publicationHeadSha := v.publicationHeadSha.getD r.publicationHeadSha
    publicationDecision := v.publicationDecision.getD r.publicationDecision
    publicationState := v.publicationState.getD r.publicationState
    publicationReason := v.publicationReason.or r.publicationReason
    publishedAt := v.publishedAt.or r.publishedAt }

def claimed (token : String) (claimedAt expiresAt : Time) (r : GitHubValidationRequest) : GitHubValidationRequest :=
  { r with
    publicationClaimToken := some token
    publicationClaimedAt := some claimedAt
    publicationClaimExpiresAt := some expiresAt
    lastPublicationAttemptAt := some claimedAt
    publicationReason := some "github_publication_in_progress" }

def released (r : GitHubValidationRequest) : GitHubValidationRequest :=
  { r with publicationClaimToken := none, publicationClaimedAt := none, publicationClaimExpiresAt := none }

def renewed (expiresAt : Time) (r : GitHubValidationRequest) : GitHubValidationRequest :=
  { r with publicationClaimExpiresAt := some expiresAt }

end GitHubValidationRequest

/-! ## Statements -/

/-- The table, and the statements on it. -/
abbrev GitHubRequests := List GitHubValidationRequest

/-- A claim statement and its commit: whether it affected the row, and the table. -/
abbrev PublicationStatement := GitHubRequests → Bool × GitHubRequests

/-- Nobody holds a claim that is still live at `now`. A comparison with `NULL` is not true. -/
def claimable (now : Time) (r : GitHubValidationRequest) : Bool :=
  r.publicationClaimToken.isNone || r.publicationClaimExpiresAt.any fun expiresAt => decide (expiresAt ≤ now)

def acquirePublicationClaim (requestId : ℕ) (token : String) (claimedAt expiresAt : Time) : PublicationStatement := fun t =>
  let clause := fun r : GitHubValidationRequest => r.id == requestId && claimable claimedAt r
  if affectedOne clause t then (true, updateWhere clause (GitHubValidationRequest.claimed token claimedAt expiresAt) t)
  else (false, t)

def finalizePublicationClaim (requestId : ℕ) (token : String) (values : PublicationValues) : PublicationStatement := fun t =>
  let clause := fun r : GitHubValidationRequest => r.id == requestId && r.publicationClaimToken == some token
  if affectedOne clause t then (true, updateWhere clause (fun r => (r.published values).released) t)
  else (false, t)

def renewPublicationClaim (requestId : ℕ) (token : String) (renewedAt expiresAt : Time) : PublicationStatement := fun t =>
  let clause := fun r : GitHubValidationRequest =>
    r.id == requestId && r.publicationClaimToken == some token &&
      r.publicationClaimExpiresAt.any fun expiresAt => decide (renewedAt < expiresAt)
  (affectedOne clause t, updateWhere clause (GitHubValidationRequest.renewed expiresAt) t)

/-! ## Sequences of claim operations -/

/-- `PUBLICATION_CLAIM_TTL`: five minutes. -/
def publicationClaimTtl : Time := seconds 300

/-- What a publisher with its token does to the claim of a request, as `publish` and
`_renew_claim_for_write` call it. -/
inductive ClaimCall
  | acquire (requestId : ℕ) (token : String) (now : Time)
  | renew (requestId : ℕ) (token : String) (now : Time)
  | finalize (requestId : ℕ) (token : String) (values : PublicationValues)
  deriving DecidableEq

namespace ClaimCall

def run : ClaimCall → PublicationStatement
  | acquire requestId token now => acquirePublicationClaim requestId token now (now + publicationClaimTtl)
  | renew requestId token now => renewPublicationClaim requestId token now (now + publicationClaimTtl)
  | finalize requestId token values => finalizePublicationClaim requestId token values

/-- The reading of the clock that the call was made with. -/
def now? : ClaimCall → Option Time
  | acquire _ _ now | renew _ _ now => some now
  | finalize _ _ _ => none

/-- The token, if the call acquires one. -/
def acquires? : ClaimCall → Option String
  | acquire _ token _ => some token
  | renew _ _ _ | finalize _ _ _ => none

end ClaimCall

/-- The calls so far with what they reported, oldest first. -/
abbrev ClaimLog := List (ClaimCall × Bool)

/-- The table and the log after the calls. -/
def runClaims (t : GitHubRequests) (calls : List ClaimCall) : GitHubRequests × ClaimLog :=
  calls.foldl (fun s c => ((c.run s.1).2, s.2 ++ [(c, (c.run s.1).1)])) (t, [])

/-- The readings of the clock do not go backwards. -/
def ClaimsInOrder (calls : List ClaimCall) : Prop := (calls.filterMap ClaimCall.now?).Pairwise (· ≤ ·)

/-- Every publisher acquires with a token of its own. -/
def TokensDistinct (calls : List ClaimCall) : Prop := (calls.filterMap ClaimCall.acquires?).Nodup

/-- The requests as they are created: ids are unique and nobody holds a claim. -/
structure Unclaimed (t : GitHubRequests) : Prop where
  ids : UniqueKeys t
  tokens : ∀ r ∈ t, r.publicationClaimToken = none

section log

variable (requestId : ℕ) (token : String) (log : ClaimLog)

/-- The token was stored on the request. -/
def ClaimAcquired : Prop := ∃ now, (ClaimCall.acquire requestId token now, true) ∈ log

/-- A result was stored with the token. -/
def ClaimFinalized : Prop := ∃ values, (ClaimCall.finalize requestId token values, true) ∈ log

/-- Another token took the place of this one. -/
def ClaimSuperseded : Prop :=
  ∃ before after now, log = before ++ (.acquire requestId token now, true) :: after ∧
    ∃ other, other ≠ token ∧ ClaimAcquired requestId other after

/-- The token got the deadline. -/
def ClaimGranted (expiresAt : Time) : Prop :=
  ∃ now, expiresAt = now + publicationClaimTtl ∧
    ((ClaimCall.acquire requestId token now, true) ∈ log ∨ (ClaimCall.renew requestId token now, true) ∈ log)

end log

/-- **Publication claims are fenced** along the calls. -/
structure ClaimsFenced (t : GitHubRequests) (calls : List ClaimCall) : Prop where
  /-- A renewal or a result of a superseded or finalized token changes nothing. -/
  stale : ∀ before c after requestId token, calls = before ++ c :: after →
    (∃ now, c = .renew requestId token now) ∨ (∃ values, c = .finalize requestId token values) →
    ClaimSuperseded requestId token (runClaims t before).2 ∨ ClaimFinalized requestId token (runClaims t before).2 →
    c.run (runClaims t before).1 = (false, (runClaims t before).1)
  /-- At most one result of a token is stored. -/
  once : ∀ token, ((runClaims t calls).2.countP fun e =>
    match e with
    | (.finalize _ k _, true) => k == token
    | _ => false) ≤ 1
  /-- While a token has time left, no other is stored unless a result was stored with it. -/
  exclusive : ∀ before now after requestId token other expiresAt,
    calls = before ++ .acquire requestId other now :: after → other ≠ token →
    ClaimGranted requestId token (runClaims t before).2 expiresAt → now < expiresAt →
    ((ClaimCall.acquire requestId other now).run (runClaims t before).1).1 = true →
    ClaimFinalized requestId token (runClaims t before).2

end Switchboard
