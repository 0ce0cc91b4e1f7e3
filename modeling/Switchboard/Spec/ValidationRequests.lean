import Switchboard.Spec.Identity
import Switchboard.Spec.Publication

/-!
# Validation requests

`request_validation` of the GitHub adapter, and the adapter as a system.

* `RequestScope.idempotencyKey`: the key of what a request is resolved to.
* `requestValidation`: return the request of the key, or insert it together with its order.
* `AdapterCall.thread`, `runAdapter`: any number of requests, publications, execution operations and edits by others,
  interleaved.
-/

namespace Switchboard

open Table Threads Transaction

namespace Adapter

open Raising

variable (P : Platform) (D : GitHubDeployment)

/-- The arguments of `request_validation`. -/
structure ValidationArguments where
  repositoryFullName : String
  pullRequestNumber : ℤ
  manifestName : String
  manifestVersion : String
  reusePolicy : ReusePolicy := .never
  routingPolicy : RoutingPolicy := .firstAvailable
  maximumCostUnits : Option ℤ := none
  requiredQuotaUnits : ℤ := 0
  preferredExecutor : Option String := none

/-- What the calls of GitHub that one request makes return. -/
structure ResolutionHost where
  user : Answer
  repository : Answer
  pullRequest : Answer

/-- What a request is resolved to: the payload of its key. -/
structure RequestScope where
  apiUrl : String
  actor : GitHubActorIdentity
  manifestDigest : String
  manifestName : String
  manifestVersion : String
  pullRequestId : ℕ
  pullRequestNodeId : String
  repositoryId : ℕ
  repositoryNodeId : String
  testedHeadSha : String
  maximumCostUnits : Option ℤ
  preferredExecutor : Option String
  requiredQuotaUnits : ℤ
  reusePolicy : ReusePolicy
  routingPolicy : RoutingPolicy
  deriving DecidableEq

namespace RequestScope

/-- The fields of both keys. -/
def fields (scope : RequestScope) : List (String × Json) :=
  [("github_api_url", .str scope.apiUrl), ("github_actor_id", .int scope.actor.actorId),
    ("github_actor_node_id", .str scope.actor.nodeId), ("manifest_digest", .str scope.manifestDigest),
    ("manifest_name", .str scope.manifestName), ("manifest_version", .str scope.manifestVersion),
    ("pull_request_id", .int scope.pullRequestId), ("pull_request_node_id", .str scope.pullRequestNodeId),
    ("repository_id", .int scope.repositoryId), ("repository_node_id", .str scope.repositoryNodeId),
    ("schema_version", .int 1), ("tested_head_sha", .str scope.testedHeadSha)]

def executionPolicy (scope : RequestScope) : Json :=
  .obj
    [("maximum_cost_units", scope.maximumCostUnits.elim .null .int),
      ("preferred_executor", scope.preferredExecutor.elim .null .str),
      ("required_quota_units", .int scope.requiredQuotaUnits), ("reuse_policy", .str scope.reusePolicy.value),
      ("routing_policy", .str scope.routingPolicy.value), ("schema_version", .int 1)]

/-- The text that is hashed to the key. -/
def payload (scope : RequestScope) : List Char :=
  canonicalAscii (.obj (scope.fields ++ [("execution_policy", scope.executionPolicy)]))

def legacyPayload (scope : RequestScope) : List Char := canonicalAscii (.obj scope.fields)

/-- `_idempotency_key`. -/
def idempotencyKey (scope : RequestScope) : String := hashText D.sha256 scope.payload

/-- `_legacy_idempotency_key`. -/
def legacyIdempotencyKey (scope : RequestScope) : String := hashText D.sha256 scope.legacyPayload

/-- `_uses_legacy_default_policy`. -/
def usesLegacyDefaultPolicy (scope : RequestScope) : Bool :=
  scope.reusePolicy == .never && scope.routingPolicy == .firstAvailable && scope.maximumCostUnits.isNone &&
    scope.requiredQuotaUnits == 0 && scope.preferredExecutor.isNone

end RequestScope

/-- A request before it is stored: its scope, and what else was resolved. -/
structure ResolvedRequest where
  scope : RequestScope
  manifest : TrustedManifest
  resolved : ResolvedPullRequest
  headSha : String
  headRepositoryFullName : String
  headRepositoryId : ℕ

/-- `request_validation` up to its key. -/
def resolveRequest (args : ValidationArguments) (remote : ResolutionHost) :
    Except AdapterException ResolvedRequest := do
  ensure (P.trustsRepository args.repositoryFullName)
    (.adapter .repositoryNotAllowed "github_repository_not_allowed")
  match P.getTrustedManifest args.manifestName args.manifestVersion with
  | none => .error (.adapter .manifest "trusted_manifest_not_found")
  | some manifest => do
    ensure (P.repositoryAllowsManifest args.repositoryFullName args.manifestName args.manifestVersion)
      (.adapter .manifest "repository_manifest_not_allowed")
    let actor ← resolveAuthenticatedActor remote.user
    let resolved ← resolvePullRequest remote.repository remote.pullRequest args.repositoryFullName
      args.pullRequestNumber true
    match resolved.headSha, resolved.headRepositoryFullName, resolved.headRepositoryId with
    | some headSha, some headRepositoryFullName, some headRepositoryId => do
      ensure (D.casefold resolved.repositoryFullName == D.casefold args.repositoryFullName)
        (transportError "github_transport_failed")
      return {
        scope :=
          { apiUrl := D.settings.apiUrl, actor := actor, manifestDigest := P.manifestDigest manifest
            manifestName := manifest.metadata.name, manifestVersion := manifest.metadata.version
            pullRequestId := resolved.pullRequestId, pullRequestNodeId := resolved.pullRequestNodeId
            repositoryId := resolved.repositoryId, repositoryNodeId := resolved.repositoryNodeId
            testedHeadSha := headSha, maximumCostUnits := args.maximumCostUnits
            preferredExecutor := args.preferredExecutor, requiredQuotaUnits := args.requiredQuotaUnits
            reusePolicy := args.reusePolicy, routingPolicy := args.routingPolicy }
        manifest := manifest, resolved := resolved, headSha := headSha
        headRepositoryFullName := headRepositoryFullName, headRepositoryId := headRepositoryId }
    | _, _, _ => .error (transportError "github_transport_failed")

/-- `str(item["kind"])` of a declaration, whose kind is a text. -/
def declaredKind : Json → Except AdapterException String
  | .obj fields =>
    match lookup fields "kind" with
    | some (.str kind) => .ok kind
    | _ => .error .other
  | _ => .error .other

/-- The `WorkOrderDraft` of a request. -/
def workOrderDraft (args : ValidationArguments) (r : ResolvedRequest) : Except AdapterException WorkOrderDraft := do
  let kinds ← r.manifest.metadata.artifactDeclarations.mapM declaredKind
  return {
    schemaVersion := 1
    repositoryFullName := args.repositoryFullName
    commitSha := r.headSha
    manifestName := r.manifest.metadata.name
    manifestVersion := r.manifest.metadata.version
    manifestParameters := []
    requiredCapabilities := r.manifest.metadata.requiredCapabilities
    permittedPaths := []
    forbiddenScopeNotes :=
      "GitHub resolved identity only; canonical repository remains read-only and the exact commit must exist locally."
    expectedArtifactKinds := kinds.eraseDups
    approvalPolicy := .explicit
    timeoutSeconds := r.manifest.metadata.timeoutSeconds
    resourceMetadata := []
    networkPolicy := r.manifest.metadata.networkPolicy
    repositoryWriteAllowed := false
    preferredExecutor := args.preferredExecutor
    costCeiling := some ⟨"0.0", by decide⟩
    reusePolicy := args.reusePolicy
    routingPolicy := args.routingPolicy
    maximumCostUnits := args.maximumCostUnits
    requiredQuotaUnits := args.requiredQuotaUnits }

/-- The row that is inserted for the order. -/
def requestRow (args : ValidationArguments) (r : ResolvedRequest) (workOrderId : ℕ) (now : Time) (id : ℕ) :
    GitHubValidationRequest :=
  { id := id
    identity :=
      { idempotencyKey := r.scope.idempotencyKey D
        githubApiUrl := D.settings.apiUrl
        githubHost := D.settings.host
        repositoryFullName := args.repositoryFullName
        repositoryId := r.resolved.repositoryId
        repositoryNodeId := r.resolved.repositoryNodeId
        githubActorId := some r.scope.actor.actorId
        githubActorNodeId := some r.scope.actor.nodeId
        pullRequestNumber := r.resolved.pullRequestNumber.toNat
        pullRequestId := r.resolved.pullRequestId
        pullRequestNodeId := r.resolved.pullRequestNodeId
        pullRequestState := r.resolved.state
        pullRequestDraft := r.resolved.draft
        pullRequestMerged := r.resolved.merged
        baseRef := r.resolved.baseRef
        baseSha := r.resolved.baseSha
        headRef := r.resolved.headRef
        headSha := r.headSha
        headRepositoryFullName := r.headRepositoryFullName
        headRepositoryId := r.headRepositoryId
        manifestName := r.manifest.metadata.name
        manifestVersion := r.manifest.metadata.version
        manifestDigest := P.manifestDigest r.manifest
        operatorId := D.settings.operatorId
        workOrderId := workOrderId }
    lastTransportReason := some "github_pr_resolved"
    lastResolvedAt := now }

def lengthBetween (low high : ℕ) (text : String) : Bool := decide (low ≤ text.length ∧ text.length ≤ high)

/-- The check constraints of the table on a row that is inserted. -/
def rowChecks (i : RequestIdentity) : Bool :=
  lengthBetween 64 64 i.idempotencyKey && lengthBetween 40 40 i.headSha && lengthBetween 40 40 i.baseSha &&
    lengthBetween 64 64 i.manifestDigest && decide (1 ≤ i.pullRequestNumber) &&
    decide (1 ≤ i.repositoryId ∧ 1 ≤ i.pullRequestId ∧ 1 ≤ i.headRepositoryId) &&
    lengthBetween 1 512 i.githubApiUrl && lengthBetween 1 255 i.githubHost &&
    lengthBetween 3 255 i.repositoryFullName && lengthBetween 3 255 i.headRepositoryFullName &&
    lengthBetween 1 128 i.repositoryNodeId && lengthBetween 1 128 i.pullRequestNodeId &&
    ((i.githubActorId.isNone && i.githubActorNodeId.isNone) ||
      (i.githubActorId.any fun id => decide (1 ≤ id)) && i.githubActorNodeId.any (lengthBetween 1 128)) &&
    ["open", "closed"].contains i.pullRequestState && lengthBetween 1 255 i.baseRef && lengthBetween 1 255 i.headRef &&
    lengthBetween 1 128 i.manifestName && lengthBetween 1 64 i.manifestVersion && lengthBetween 1 128 i.operatorId

/-- The unique constraints of the table. -/
def rowUnique (requests : GitHubRequests) (i : RequestIdentity) : Bool :=
  requests.all fun r => r.identity.idempotencyKey != i.idempotencyKey && r.identity.workOrderId != i.workOrderId

/-- The savepoint of `request_validation`: the order and the row, or neither of them. The transaction holds the
database from its first statement on, so that nothing comes between. -/
def insertRequest (args : ValidationArguments) (r : ResolvedRequest) (draft : WorkOrderDraft) (now : Time) :
    Publisher GitHubValidationRequest :=
  attempt fun s =>
    match Service.createWorkOrder P draft s.plane with
    | .error e => (.error (.execution e), s)
    | .ok (order, plane) =>
      let row := requestRow P D args r order.id now (nextId s.requests)
      if rowChecks row.identity && rowUnique s.requests row.identity then
        (.ok row, { s with plane := plane, requests := s.requests ++ [row] })
      else (.error (.execution .integrity), s)

/-- `get_by_idempotency_key`. -/
def requestByKey (key : String) (s : AdapterState) : Option GitHubValidationRequest :=
  s.requests.find? fun r => r.identity.idempotencyKey == key

/-- The request of the key, or of the older key of requests with the default policy. -/
def findRequest (scope : RequestScope) : Publisher (Option GitHubValidationRequest) := do
  let existing ← observe (requestByKey (scope.idempotencyKey D))
  if existing.isNone && scope.usesLegacyDefaultPolicy then observe (requestByKey (scope.legacyIdempotencyKey D))
  else return existing

/-- What follows the savepoint: if a constraint was violated, another request may have been faster. -/
def afterInsertion (scope : RequestScope) :
    Except AdapterException GitHubValidationRequest → Publisher GitHubRequestStatus
  | .ok request => statusOf D request none
  | .error (.execution .integrity) => do
    let recovered ← findRequest D scope
    match recovered with
    | some request => statusOf D request none
    | none => raise (.execution .integrity)
  | .error e => raise e

/-- `request_validation`, and the commit of its caller. -/
def requestValidation (args : ValidationArguments) (remote : ResolutionHost) : Publisher GitHubRequestStatus := do
  let r ← ofExcept (resolveRequest P D args remote)
  let existing ← findRequest D r.scope
  match existing with
  | some request => statusOf D request none
  | none => do
    let now ← observe AdapterState.clock
    let draft ← ofExcept (workOrderDraft args r)
    let inserted ← caught (insertRequest P D args r draft now)
    afterInsertion D r.scope inserted

/-! ## The system -/

/-- What others do to the comments: those with a marker stay as they are, and ids stay distinct. -/
structure ForeignEdit where
  edit : List GitHubComment → List GitHubComment
  keeps : ∀ comments, (edit comments).filter marked = comments.filter marked
  distinct : ∀ comments : List GitHubComment, (comments.map GitHubComment.commentId).Nodup →
    ((edit comments).map GitHubComment.commentId).Nodup

end Adapter

open Adapter

/-- One thread of the system. -/
inductive AdapterCall
  | requestValidation (args : ValidationArguments) (remote : ResolutionHost)
  | publish (requestId : ℕ) (host : PublishHost)
  | execution (c : Call)
  | tick (now : Time)
  | foreign (e : ForeignEdit)

variable (P : Platform) (D : GitHubDeployment)

/-- The accesses of a call. Only the calls of the adapter return a status. -/
def AdapterCall.thread : AdapterCall → Publisher (Option GitHubRequestStatus)
  | .requestValidation args remote => some <$> Adapter.requestValidation P D args remote
  | .publish requestId host => some <$> Adapter.publish D host requestId
  | .execution c => Raising.access fun s => (none, { s with plane := step P s.plane c })
  | .tick now => Raising.access fun s => (none, { s with clock := max s.clock now })
  | .foreign e => Raising.access fun s => (none, { s with comments := e.edit s.comments })

/-- The state after the accesses of `schedule`, one after the other, and what is left of each thread. -/
def runAdapter {ι : Type} [DecidableEq ι] (calls : ι → AdapterCall) (start : Time) (schedule : List ι) :
    Pool ι AdapterState (Except AdapterException (Option GitHubRequestStatus)) :=
  (Pool.mk (AdapterState.init start) fun i => (calls i).thread P D).run schedule

/-! ## What holds of it -/

/-- The scopes that the requests among the calls are resolved to. -/
def resolvedScopes {ι : Type} (calls : ι → AdapterCall) : Set RequestScope :=
  {scope | ∃ i args remote r, calls i = .requestValidation args remote ∧ resolveRequest P D args remote = .ok r ∧
    r.scope = scope}

/-- SHA-256 tells the payloads of these scopes apart. -/
structure NoCollision (scopes : Set RequestScope) : Prop where
  payloads : ∀ a ∈ scopes, ∀ b ∈ scopes, hashText D.sha256 a.payload = hashText D.sha256 b.payload →
    a.payload = b.payload
  legacy : ∀ a ∈ scopes, a.usesLegacyDefaultPolicy = true → ∀ b ∈ scopes,
    hashText D.sha256 a.legacyPayload = hashText D.sha256 b.payload → a.legacyPayload = b.payload

/-- Each publication draws a token of its own. -/
def TokensOfTheirOwn {ι : Type} (calls : ι → AdapterCall) : Prop :=
  ∀ i j n m host host', calls i = .publish n host → calls j = .publish m host' → host.token = host'.token → i = j

/-- A comment was published for the row, for the current head or for another one. -/
def GitHubValidationRequest.isPublished (r : GitHubValidationRequest) : Bool :=
  r.publicationState == .publishedCurrent || r.publicationState == .publishedStale

/-- The order of the request is that of its scope. -/
structure RequestLinked (s : Database) (i : RequestIdentity) (scope : RequestScope) (o : WorkOrder) : Prop where
  order : o ∈ s.orders
  orderId : o.id = i.workOrderId
  key : i.idempotencyKey = scope.idempotencyKey D
  headSha : i.headSha = scope.testedHeadSha
  manifestName : i.manifestName = scope.manifestName
  manifestVersion : i.manifestVersion = scope.manifestVersion
  manifestDigest : i.manifestDigest = scope.manifestDigest
  orderCommit : o.spec.commitSha = i.headSha
  orderRepository : o.spec.repositoryFullName = i.repositoryFullName
  orderManifestName : o.spec.manifestName = i.manifestName
  orderManifestVersion : o.spec.manifestVersion = i.manifestVersion
  orderManifestDigest : o.spec.manifestDigest = i.manifestDigest
  reusePolicy : o.spec.reusePolicy = scope.reusePolicy
  routingPolicy : o.spec.routingPolicy = scope.routingPolicy
  maximumCostUnits : o.spec.maximumCostUnits = scope.maximumCostUnits
  requiredQuotaUnits : o.spec.requiredQuotaUnits = scope.requiredQuotaUnits
  preferredExecutor : o.spec.preferredExecutor = scope.preferredExecutor

/-- The status is that of the stored request of the scope, with the policies of the scope. -/
structure Validated (scope : RequestScope) (status : GitHubRequestStatus) (s : AdapterState) : Prop where
  stored : ∃ r ∈ s.requests, r.id = status.request.id ∧ r.identity = status.request.identity
  key : status.request.identity.idempotencyKey = scope.idempotencyKey D
  reusePolicy : status.reusePolicy = scope.reusePolicy
  routingPolicy : status.routingPolicy = scope.routingPolicy
  maximumCostUnits : status.maximumCostUnits = scope.maximumCostUnits
  requiredQuotaUnits : status.requiredQuotaUnits = scope.requiredQuotaUnits
  preferredExecutor : status.preferredExecutor = scope.preferredExecutor

/-- The run has ended with this evidence, which is of the head and of the manifest of the request. -/
structure EvidenceOf (s : Database) (i : RequestIdentity) (run : ExecutionRun) (e : ExecutionEvidence) : Prop where
  stored : run ∈ s.runs
  order : run.workOrderId = i.workOrderId
  ended : run.status.isTerminal = true
  evidence : run.evidenceMetadata = some e
  sha : e.testedSha = i.headSha
  repository : e.repositoryFullName = i.repositoryFullName
  manifestName : e.manifestName = i.manifestName
  manifestVersion : e.manifestVersion = i.manifestVersion
  manifestDigest : e.manifestDigest = i.manifestDigest

/-- What a published row says is true of the database. -/
structure PublicationTruthful (s : Database) (r : GitHubValidationRequest) (run : ExecutionRun) (e : ExecutionEvidence) :
    Prop where
  evidence : EvidenceOf s r.identity run e
  runId : r.terminalRunId = some run.id
  current : r.publicationDecision = .current ↔ r.publicationHeadSha = some r.identity.headSha
  decided : r.publicationDecision = .current ∨ r.publicationDecision = .stale
  state : r.publicationState = if r.publicationDecision = .current then .publishedCurrent else .publishedStale
  comment : r.managedCommentId.isSome = true

/-- The only managed comment of the request is the one on the row, and it shows what the row says. -/
def CommentShows (r : GitHubValidationRequest) (run : ExecutionRun) (e : ExecutionEvidence)
    (comments : List GitHubComment) : Prop :=
  ∃ c, managedComments D r.identity comments = [c] ∧ r.managedCommentId = some c.commentId ∧
    publishedComment r { e with parsedResults := D.parsedResults run.id } r.publicationHeadSha = .ok c.body

end Switchboard
