import Switchboard.Lib.Raising
import Switchboard.Spec.Rendering
import Switchboard.Spec.Service
import Switchboard.Spec.Transport

/-!
# The GitHub adapter

`service.py` of the adapter: a validation request binds the exact head of a pull request to one work order, and
publication keeps one comment on the pull request that shows what became of it. Publishers of any number of processes
share the database and the pull request; each statement and each call of GitHub is one access.

* `AdapterState`: the database, the comments and the time.
* `resolveAuthenticatedActor`, `resolvePullRequest`: what is made of the answers of GitHub.
* `getComment`, `listComments`, `createComment`, `updateComment`: the calls on comments.
* `statusOf`: the status that every call returns.

What GitHub does with a call is decided by the host of the thread. A write takes effect, if at all, before the claim
renewed just before it expires and before the call returns.
-/

namespace Switchboard

open PyText Table Threads Transaction

/-! ## Exceptions -/

/-- `GitHubAdapterError` and its subclasses. -/
inductive AdapterErrorKind
  | requestNotFound
  | repositoryNotAllowed
  | manifest
  | transport
  | rateLimited
  | ambiguousWrite
  | terminalEvidenceRequired
  deriving DecidableEq, Repr

/-- An instance of `GitHubTransportError`. -/
def AdapterErrorKind.isTransport : AdapterErrorKind → Bool
  | transport | rateLimited | ambiguousWrite => true
  | _ => false

/-- What a call of the adapter may raise. -/
inductive AdapterException
  | adapter (kind : AdapterErrorKind) (reason : String)
  | valueError
  | execution (e : ExecutionError)
  | other
  deriving DecidableEq, Repr

def DecodeException.raised : DecodeException → AdapterException
  | transport reason => .adapter .transport reason
  | valueError => .valueError
  | typeError | recursionError => .other

def transportError (reason : String) : AdapterException := .adapter .transport reason

/-! ## State -/

/-- `GitHubSettings` as far as the adapter reads them. -/
structure GitHubSettings where
  apiUrl : String
  host : String
  operatorId : String

/-- What the adapter takes from its deployment. -/
structure GitHubDeployment where
  settings : GitHubSettings
  /-- `hashlib.sha256(data).hexdigest()`. -/
  sha256 : ByteArray → String
  /-- `str.casefold`. -/
  casefold : String → String
  /-- The parsed results of the stored evidence of a run, which its compact record leaves out. -/
  parsedResults : ℕ → List (Option ParsedResult)
  /-- The stored evidence of the run is refused by its schema. -/
  malformed : ℕ → Bool

/-- The database, the comments of the repositories, and the time. -/
structure AdapterState where
  plane : Session Database
  requests : GitHubRequests
  comments : List GitHubComment
  clock : Time

def AdapterState.init (clock : Time) : AdapterState := ⟨⟨Database.init, []⟩, [], [], clock⟩

abbrev Publisher := Raising AdapterState AdapterException

namespace Adapter

open Raising

variable (P : Platform) (D : GitHubDeployment)

/-! ## GitHub -/

/-- What a fixed `GET` returns: a payload, or the exception of the transport. -/
abbrev Answer := Except AdapterException GitHubJson

def decoded {α : Type} (answer : Answer) (decode : GitHubJson → DecodeM α) : Except AdapterException α :=
  answer >>= fun payload => (decode payload).mapError DecodeException.raised

/-- `resolve_authenticated_actor`. -/
def resolveAuthenticatedActor (user : Answer) : Except AdapterException GitHubActorIdentity :=
  match decoded user decodeActor with
  | .error (.adapter kind reason) =>
    if kind.isTransport && kind != .rateLimited then .error (transportError "github_actor_resolution_failed")
    else .error (.adapter kind reason)
  | result => result

/-- `resolve_pull_request`. -/
def resolvePullRequest (repositoryAnswer pullAnswer : Answer) (repositoryFullName : String) (pullRequestNumber : ℤ)
    (requireHead : Bool) : Except AdapterException ResolvedPullRequest := do
  let _ ← (repositoryRoute repositoryFullName).mapError DecodeException.raised
  ensure (decide (1 ≤ pullRequestNumber ∧ pullRequestNumber ≤ maxSafePullRequestNumber))
    (transportError "github_transport_failed")
  let repository ← decoded repositoryAnswer decodeRepository
  decoded pullAnswer fun payload => decodePullRequest payload repository pullRequestNumber requireHead

/-- What becomes of a listing of comments. -/
inductive ListingFate
  | failed (e : AdapterException)
  /-- Not all pages were read. -/
  | incomplete (comments : List GitHubComment)
  | complete

/-- What becomes of a write: whether GitHub applies it, and what the caller sees instead of a response. -/
structure WriteFate where
  reaches : Bool
  failure : Option AdapterException

/-- `GitHubCommentListing`. -/
structure CommentListing where
  comments : List GitHubComment
  complete : Bool

/-- The comment is on the pull request. -/
def onPullRequest (repositoryFullName : String) (pullRequestNumber : ℤ) (c : GitHubComment) : Bool :=
  D.casefold c.repositoryFullName == D.casefold repositoryFullName && c.pullRequestNumber == pullRequestNumber

/-- `get_comment`. -/
def getComment (failure : Option AdapterException) (repositoryFullName : String) (commentId : ℕ) :
    Publisher GitHubComment := do
  demand (decide (1 ≤ commentId ∧ (commentId : ℤ) ≤ maxSafeGithubId)) (transportError "github_transport_failed")
  let _ ← ofExcept ((repositoryRoute repositoryFullName).mapError DecodeException.raised)
  let comment ← observe fun s : AdapterState => s.comments.find? fun c =>
    c.commentId == commentId && D.casefold c.repositoryFullName == D.casefold repositoryFullName
  match failure with
  | some e => raise e
  | none => ofOption comment (transportError "github_comment_not_found")

/-- `list_comments`. -/
def listComments (fate : ListingFate) (repositoryFullName : String) (pullRequestNumber : ℤ) :
    Publisher CommentListing := do
  let _ ← ofExcept ((commentCollectionRoute repositoryFullName pullRequestNumber).mapError DecodeException.raised)
  let comments ← observe fun s : AdapterState =>
    s.comments.filter (onPullRequest D repositoryFullName pullRequestNumber)
  match fate with
  | .failed e => raise e
  | .incomplete newest => return ⟨newest, false⟩
  | .complete => return ⟨comments, true⟩

/-- `_validate_managed_body`. -/
def validManagedBody (body : String) : Bool :=
  body != "" && decide (body.utf8ByteSize ≤ maxRenderedCommentBytes) && !body.toList.contains '\x00'

def freshCommentId (comments : List GitHubComment) : ℕ := (comments.map GitHubComment.commentId).foldr max 0 + 1

/-- `create_comment`, by a caller whose claim lasts until `deadline`. -/
def createComment (fate : WriteFate) (author : GitHubActorIdentity) (deadline : Time) (repositoryFullName : String)
    (pullRequestNumber : ℤ) (body : String) : Publisher GitHubComment := do
  demand (validManagedBody body) (transportError "github_publication_failed")
  let _ ← ofExcept ((commentCollectionRoute repositoryFullName pullRequestNumber).mapError DecodeException.raised)
  attempt fun s =>
    if fate.reaches && decide (s.clock < deadline) then
      let comment : GitHubComment := ⟨freshCommentId s.comments, body, author, repositoryFullName, pullRequestNumber⟩
      (match fate.failure with
        | some e => .error e
        | none => .ok comment, { s with comments := s.comments ++ [comment] })
    else (.error (fate.failure.getD (transportError "github_transport_failed")), s)

def withBody (commentId : ℕ) (body : String) (c : GitHubComment) : GitHubComment :=
  if c.commentId == commentId then { c with body := body } else c

/-- `update_comment`, by a caller whose claim lasts until `deadline`. -/
def updateComment (fate : WriteFate) (deadline : Time) (commentId : ℕ) (body : String) : Publisher GitHubComment := do
  demand (validManagedBody body) (transportError "github_publication_failed")
  demand (decide (1 ≤ commentId ∧ (commentId : ℤ) ≤ maxSafeGithubId)) (transportError "github_transport_failed")
  attempt fun s =>
    if fate.reaches && decide (s.clock < deadline) then
      (match fate.failure, s.comments.find? fun c => c.commentId == commentId with
        | some e, _ => .error e
        | none, none => .error (transportError "github_transport_failed")
        | none, some c => .ok (withBody commentId body c),
        { s with comments := s.comments.map (withBody commentId body) })
    else (.error (fate.failure.getD (transportError "github_transport_failed")), s)

/-! ## Status -/

/-- `GitHubRequestStatus`: the row of the request, and what its order and its run add to it. -/
structure GitHubRequestStatus where
  request : GitHubValidationRequest
  workOrderStatus : WorkOrderStatus
  reusePolicy : ReusePolicy
  routingPolicy : RoutingPolicy
  maximumCostUnits : Option ℤ
  requiredQuotaUnits : ℤ
  preferredExecutor : Option String
  terminalRunId : Option ℕ
  terminalRunStatus : Option ExecutionRunStatus
  evidenceFingerprint : Option String
  publicationReason : Option String

/-- `_get_request`. -/
def getRequest (requestId : ℕ) : Publisher GitHubValidationRequest := do
  let request ← observe fun s : AdapterState => s.requests.find? fun r => r.id == requestId
  ofOption request (.adapter .requestNotFound "github_request_not_found")

/-- `get_run_evidence`; `none` stands for the two exceptions that its callers here handle. -/
def runEvidence (runId : ℕ) (s : AdapterState) : Option ExecutionEvidence :=
  if D.malformed runId then none else (Repository.getRun runId s.plane.db).bind ExecutionRun.evidenceMetadata

/-- `list_runs` of an order. -/
def listRuns (workOrderId : ℕ) (s : AdapterState) : List ExecutionRun :=
  s.plane.db.runs.filter fun r => r.workOrderId == workOrderId

/-- `_status`. -/
def statusOf (request : GitHubValidationRequest) (publicationReasonOverride : Option String) :
    Publisher GitHubRequestStatus := do
  let order ← observe fun s : AdapterState => Repository.getWorkOrder request.identity.workOrderId s.plane.db
  let order ← ofOption order (.execution (.executionNotFound "work_order_not_found"))
  let runs ← observe (listRuns request.identity.workOrderId)
  let run := (runs.find? fun r => some r.id == request.terminalRunId).or runs.getLast?
  let evidence ← observe fun s => run.bind fun r => runEvidence D r.id s
  return {
    request := request
    workOrderStatus := order.status
    reusePolicy := order.spec.reusePolicy
    routingPolicy := order.spec.routingPolicy
    maximumCostUnits := order.spec.maximumCostUnits
    requiredQuotaUnits := order.spec.requiredQuotaUnits
    preferredExecutor := order.spec.preferredExecutor
    terminalRunId := run.map ExecutionRun.id
    terminalRunStatus := run.map ExecutionRun.status
    evidenceFingerprint := evidence.map ExecutionEvidence.fingerprint
    publicationReason := publicationReasonOverride.or request.publicationReason }

/-! ## Ownership -/

/-- `has_exact_marker`. -/
def hasExactMarker (body marker : String) : Bool :=
  decide (body.utf8ByteSize ≤ maxRenderedCommentBytes) && (splitlines body.toList).take 1 == [marker.toList]

/-- `_same_stable_identity`. -/
def sameStableIdentity (request : GitHubValidationRequest) (resolved : ResolvedPullRequest) : Bool :=
  request.identity.repositoryId == resolved.repositoryId &&
    request.identity.repositoryNodeId == resolved.repositoryNodeId &&
    request.identity.pullRequestId == resolved.pullRequestId &&
    request.identity.pullRequestNodeId == resolved.pullRequestNodeId &&
    (request.identity.pullRequestNumber : ℤ) == resolved.pullRequestNumber

/-- `_same_actor_identity`. -/
def sameActorIdentity (request : GitHubValidationRequest) (actor : GitHubActorIdentity) : Bool :=
  request.identity.githubActorId == some actor.actorId && request.identity.githubActorNodeId == some actor.nodeId

/-- `_actor_identity_failure_reason`. -/
def actorIdentityFailureReason (request : GitHubValidationRequest) (actor : GitHubActorIdentity) : Option String :=
  if request.identity.githubActorId.isNone || request.identity.githubActorNodeId.isNone then
    some "github_actor_identity_missing"
  else if sameActorIdentity request actor then none
  else some "github_actor_mismatch"

/-- `_is_owned_managed_comment`. -/
def isOwnedManagedComment (comment : GitHubComment) (actor : GitHubActorIdentity) (request : GitHubValidationRequest)
    (marker : String) (expectedCommentId : Option ℕ) : Bool :=
  comment.author == actor &&
    onPullRequest D request.identity.repositoryFullName request.identity.pullRequestNumber comment &&
    hasExactMarker comment.body marker && expectedCommentId.all fun id => comment.commentId == id

/-- The comment is managed for the request: by its actor, on its pull request, behind its marker. -/
def isManaged (i : RequestIdentity) (c : GitHubComment) : Bool :=
  i.githubActorId == some c.author.actorId && i.githubActorNodeId == some c.author.nodeId &&
    onPullRequest D i.repositoryFullName i.pullRequestNumber c && hasExactMarker c.body (commentMarker i.idempotencyKey)

def managedComments (i : RequestIdentity) (comments : List GitHubComment) : List GitHubComment :=
  comments.filter (isManaged D i)

/-- The first line of the comment is a marker. -/
def marked (c : GitHubComment) : Bool :=
  (splitlines c.body.toList).head?.any fun line => "<!-- switchboard-validation:".toList.isPrefixOf line

end Adapter

end Switchboard
