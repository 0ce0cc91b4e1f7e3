import Switchboard.Spec.Adapter

/-!
# Publication

`publish` of the GitHub adapter: claim the request, recheck the head, create or update the managed comment, store the
result under the claim.

* `upsertManagedComment`: the comment of the request is updated if it is found, and created if it is known not to exist.
* `publishClaimed`, `publish`: the publication, and what is stored when it fails.
-/

namespace Switchboard

namespace Adapter

open Threads Raising

variable (D : GitHubDeployment)

/-- What the calls of GitHub that one publication makes return and do. -/
structure PublishHost where
  /-- `secrets.token_hex(32)`. -/
  token : String
  user : Answer
  repository : Answer
  pullRequest : Answer
  /-- The author of a comment that the credential creates. -/
  author : GitHubActorIdentity
  persisted : Option AdapterException
  recovery : ListingFate
  verification : Option AdapterException
  creation : WriteFate
  secondRecovery : ListingFate
  update : WriteFate

/-- A statement on the requests, and its commit. -/
def claimStatement (st : PublicationStatement) : Publisher Bool :=
  access fun s => ((st s.requests).1, { s with requests := (st s.requests).2 })

variable (host : PublishHost) (request : GitHubValidationRequest)

/-- `_renew_claim_for_write`. It returns the deadline that the claim got, for the write behind it. -/
def renewClaimForWrite : Publisher Time := do
  let now ← observe AdapterState.clock
  let renewed ← claimStatement (renewPublicationClaim request.id host.token now (now + publicationClaimTtl))
  demand renewed (transportError "github_publication_claim_lost")
  return now + publicationClaimTtl

/-- `_unique_owned_recovery_candidate`. -/
def uniqueOwnedRecoveryCandidate (fate : ListingFate) (actor : GitHubActorIdentity) (marker : String) :
    Publisher (Option GitHubComment) := do
  let listing ← listComments D fate request.identity.repositoryFullName request.identity.pullRequestNumber
  let candidates := listing.comments.filter fun c => isOwnedManagedComment D c actor request marker none
  demand (decide (candidates.length ≤ 1)) (transportError "github_comment_recovery_ambiguous")
  demand listing.complete (transportError "github_comment_recovery_unverifiable")
  return candidates.head?

/-- `_update_verified_comment`. -/
def updateVerifiedComment (actor : GitHubActorIdentity) (comment : GitHubComment) (marker body : String) :
    Publisher GitHubComment := do
  let verified ← getComment D host.verification request.identity.repositoryFullName comment.commentId
  demand (isOwnedManagedComment D verified actor request marker (some comment.commentId))
    (transportError "github_publication_failed")
  let deadline ← renewClaimForWrite host request
  let updated ← updateComment host.update deadline comment.commentId body
  demand (isOwnedManagedComment D updated actor request marker (some comment.commentId))
    (transportError "github_publication_failed")
  return updated

/-- The comment whose id is stored on the request, if it is still there and owned. -/
def persistedComment (actor : GitHubActorIdentity) (marker : String) : Publisher (Option GitHubComment) :=
  match request.managedCommentId with
  | none => return none
  | some commentId => do
    let persisted ← caught (getComment D host.persisted request.identity.repositoryFullName commentId)
    match persisted with
    | .ok comment =>
      return if isOwnedManagedComment D comment actor request marker (some commentId) then some comment else none
    | .error (.adapter kind reason) =>
      if kind.isTransport && reason == "github_comment_not_found" then return none else raise (.adapter kind reason)
    | .error e => raise e

/-- The part of `_upsert_managed_comment` that creates a comment. -/
def createManagedComment (actor : GitHubActorIdentity) (marker body : String) : Publisher GitHubComment := do
  let deadline ← renewClaimForWrite host request
  let created ← caught (createComment host.creation host.author deadline request.identity.repositoryFullName
    request.identity.pullRequestNumber body)
  match created with
  | .ok comment => do
    demand (isOwnedManagedComment D comment actor request marker none) (transportError "github_publication_failed")
    return comment
  | .error (.adapter .ambiguousWrite reason) => do
    let recovered ← uniqueOwnedRecoveryCandidate D request host.secondRecovery actor marker
    match recovered with
    | some comment => updateVerifiedComment D host request actor comment marker body
    | none => raise (.adapter .ambiguousWrite reason)
  | .error e => raise e

/-- `_upsert_managed_comment`. -/
def upsertManagedComment (actor : GitHubActorIdentity) (body : String) : Publisher GitHubComment := do
  let marker ← ofExcept ((managedCommentMarker request.identity.idempotencyKey).mapError fun _ => .valueError)
  demand (sameActorIdentity request actor) (transportError "github_actor_mismatch")
  let persisted ← persistedComment D host request actor marker
  match persisted with
  | some comment => updateVerifiedComment D host request actor comment marker body
  | none => do
    let recovered ← uniqueOwnedRecoveryCandidate D request host.recovery actor marker
    match recovered with
    | some comment => updateVerifiedComment D host request actor comment marker body
    | none => createManagedComment D host request actor marker body

/-- `_finalize_claim`. -/
def finalizeClaim (values : PublicationValues) : Publisher GitHubRequestStatus := do
  let finalized ← claimStatement (finalizePublicationClaim request.id host.token values)
  let current ← getRequest request.id
  statusOf D current
    (if !finalized && current.publicationClaimToken.isSome then some "github_publication_in_progress" else none)

/-- `_terminal_evidence`: of the newest run that has ended with readable evidence. -/
def terminalEvidence : List ExecutionRun → Publisher (ExecutionRun × EvidenceDocument)
  | [] => raise (.adapter .terminalEvidenceRequired "github_terminal_evidence_required")
  | run :: older =>
    if run.status.isTerminal then do
      let evidence ← observe (runEvidence D run.id)
      match evidence with
      | some evidence => return (run, { evidence with parsedResults := D.parsedResults run.id })
      | none => terminalEvidence older
    else terminalEvidence older

/-- The reasons of `resolve_pull_request` for which the head is gone. -/
def headGone : List String := ["github_pr_not_found", "github_repository_not_found", "github_head_unavailable"]

/-- The body for the resolved head, and the comment that carries it. -/
def renderAndUpsert (actor : GitHubActorIdentity) (evidence : EvidenceDocument) (resolved : ResolvedPullRequest) :
    Publisher GitHubComment := do
  let body ← ofExcept ((publishedComment request evidence resolved.headSha).mapError fun _ => .valueError)
  upsertManagedComment D host request actor body

def decisionOf : String → PublicationDecision
  | "current" => .current
  | _ => .stale

/-- `_publish_claimed` once the pull request is resolved. -/
def publishResolved (run : ExecutionRun) (evidence : EvidenceDocument) (actor : GitHubActorIdentity)
    (resolved : ResolvedPullRequest) : Publisher GitHubRequestStatus := do
  let now ← observe AdapterState.clock
  let seen : PublicationValues :=
    { terminalRunId := some run.id, lastResolvedAt := some now, lastTransportReason := some "github_pr_resolved"
      publicationHeadSha := some resolved.headSha }
  if sameStableIdentity request resolved then do
    let decision := decisionOf (headDecision request.identity.headSha resolved.headSha).1
    let outcome ← caught (renderAndUpsert D host request actor evidence resolved)
    match outcome with
    | .ok comment => do
      let publishedAt ← observe AdapterState.clock
      finalizeClaim D host request
        { seen with
          managedCommentId := some comment.commentId
          publicationDecision := some decision
          publicationState := some (if decision = .current then .publishedCurrent else .publishedStale)
          publicationReason := some
            (if decision = .current then "github_publication_succeeded" else "github_publication_stale")
          publishedAt := some publishedAt }
    | .error (.adapter _ reason) =>
      finalizeClaim D host request
        { seen with
          publicationDecision := some decision
          publicationState := some .retryableFailure
          publicationReason := some reason }
    | .error .valueError =>
      finalizeClaim D host request
        { seen with
          publicationDecision := some decision
          publicationState := some .failed
          publicationReason := some "github_publication_failed" }
    | .error e => raise e
  else
    finalizeClaim D host request
      { seen with
        publicationState := some .failed
        publicationDecision := some .stale
        publicationReason := some "github_pr_identity_changed" }

/-- `_publish_claimed` once the evidence is found. -/
def publishEvidence (run : ExecutionRun) (evidence : EvidenceDocument) : Publisher GitHubRequestStatus :=
  let failedFor (reason : String) (state : PublicationState) : PublicationValues :=
    { terminalRunId := some run.id, lastTransportReason := some reason, publicationReason := some reason
      publicationState := some state }
  match resolveAuthenticatedActor host.user with
  | .error (.adapter _ reason) =>
    finalizeClaim D host request (failedFor
      (if reason = "github_rate_limited" then reason else "github_actor_resolution_failed") .retryableFailure)
  | .error e => raise e
  | .ok actor =>
    match actorIdentityFailureReason request actor with
    | some reason => finalizeClaim D host request (failedFor reason .failed)
    | none =>
      match resolvePullRequest host.repository host.pullRequest request.identity.repositoryFullName
        request.identity.pullRequestNumber false with
      | .error (.adapter _ reason) =>
        finalizeClaim D host request
          { failedFor reason .retryableFailure with
            publicationDecision := if headGone.contains reason then some .stale else none }
      | .error e => raise e
      | .ok resolved => publishResolved D host request run evidence actor resolved

/-- `_publish_claimed`. -/
def publishClaimed : Publisher GitHubRequestStatus := do
  let runs ← observe (listRuns request.identity.workOrderId)
  let (run, evidence) ← terminalEvidence D runs.reverse
  publishEvidence D host request run evidence

/-- What is stored when `_publish_claimed` raises. -/
def failureValues : AdapterException → PublicationValues
  | .adapter _ reason => { publicationReason := some reason, publicationState := some .retryableFailure }
  | _ => { publicationReason := some "github_publication_failed", publicationState := some .retryableFailure }

omit request in
/-- `publish`. -/
def publish (requestId : ℕ) : Publisher GitHubRequestStatus := do
  let request ← getRequest requestId
  let claimedAt ← observe AdapterState.clock
  let acquired ← claimStatement
    (acquirePublicationClaim request.id host.token claimedAt (claimedAt + publicationClaimTtl))
  let request ← getRequest request.id
  if acquired then do
    let outcome ← caught (publishClaimed D host request)
    match outcome with
    | .ok status => return status
    | .error e => do
      let _ ← claimStatement (finalizePublicationClaim request.id host.token (failureValues e))
      raise e
  else statusOf D request (some "github_publication_in_progress")

end Adapter

end Switchboard
