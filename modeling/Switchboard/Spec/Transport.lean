import Switchboard.Lib.Binary64
import Switchboard.Lib.Url
import Switchboard.Spec.GitHub
import Switchboard.Spec.Parsers
import Switchboard.Spec.Schemas

/-!
# The transport of the GitHub adapter

`transport.py`: what is made of the payloads that GitHub returns, and the routes that are asked for. A decoder
raises `GitHubTransportError` with a reason; what else can escape from it is an exception of its own.

* `normalizeGithubApiUrl`, `GitHubTransport.make`: the configured origin and path prefix.
* `decodeJson`: a payload, within the limits.
* `decodeRepository`, `decodePullRequest`, `decodeActor`, `decodeComment`: the objects of the API.
* `decodeIssueAssociation`: the pull request that a comment belongs to.
-/

namespace Switchboard

open PyText Transaction
open JsonText (Value)

/-- What a decoder may raise. -/
inductive DecodeException
  /-- `GitHubTransportError`. -/
  | transport (reason : String)
  | valueError
  | typeError
  | recursionError
  deriving DecidableEq, Repr

abbrev DecodeM := Except DecodeException

def transportFailed : DecodeException := .transport "github_transport_failed"

def responseTooLarge : DecodeException := .transport "github_response_too_large"

def headUnavailable : DecodeException := .transport "github_head_unavailable"

/-! ## Configuration -/

/-- Scheme, host and port. -/
abbrev Origin := List Char × List Char × Option ℕ

inductive ConfigurationException
  /-- `GitHubConfigurationError`. -/
  | configuration (reason : String)
  | valueError
  deriving DecidableEq, Repr

def urlInvalid : ConfigurationException := .configuration "github_api_url_invalid"

/-- `_GITHUB_HOST_PATTERN.fullmatch`. -/
def githubHost (host : List Char) : Bool :=
  host.head?.any isAsciiAlnum && host.getLast?.any isAsciiAlnum &&
    host.all (fun c => isAsciiAlnum c || c == '.' || c == '-') && decide (host.length ≤ 253)

def apiPathChar (c : Char) : Bool := isAsciiAlnum c || ['.', '_', '~', '-'].contains c

/-- `_GITHUB_API_PATH_PATTERN.fullmatch`. -/
def githubApiPath (path : List Char) : Bool :=
  match path.splitOn '/' with
  | [] :: parts => parts.all fun part => !part.isEmpty && part.all apiPathChar
  | _ => false

/-- `text.rstrip("/")`. -/
def withoutSlashes (s : List Char) : List Char := s.rdropWhile (· == '/')

section configuration

variable (T : Url.Tables)

/-- The network location of a host and a port. -/
def hostWithPort (host : List Char) (port : Option ℕ) : List Char :=
  host ++ (port.map fun n => ':' :: Nat.toDigits 10 n).getD []

/-- `_normalize_github_api_url`. -/
def normalizeGithubApiUrl (raw : List Char) : Except ConfigurationException (List Char) := do
  match Url.urlsplit T (strip raw) with
  | none => .error .valueError
  | some parsed =>
    match parsed.port with
    | none => .error urlInvalid
    | some port => do
      ensure (T.lower parsed.scheme == "https".toList && !(parsed.hostname T).isEmpty && githubHost (parsed.hostname T) &&
        parsed.userinfo.isNone && parsed.query.isEmpty && parsed.fragment.isEmpty)
        (.configuration "github_api_url_must_be_https")
      let path := withoutSlashes parsed.path
      ensure (githubApiPath path && (path.splitOn '/').all fun part => part != ['.'] && part != ['.', '.']) urlInvalid
      return "https://".toList ++ hostWithPort (T.lower (parsed.hostname T)) port ++ path

/-- The origin of a URL; `none` is a `ValueError`. -/
def originOf (parsed : Url.SplitResult) : Option Origin :=
  parsed.port.map fun port => (T.lower parsed.scheme, T.lower (parsed.hostname T), port)

/-- `GitHubTransport`, as far as its constructor derives it from the settings. -/
structure GitHubTransport where
  baseUrl : List Char
  expectedOrigin : Origin
  expectedPathPrefix : List Char

/-- The constructor; `none` is a `ValueError`. -/
def GitHubTransport.make (apiUrl : List Char) : Option GitHubTransport := do
  let baseUrl := withoutSlashes apiUrl ++ ['/']
  let parsed ← Url.urlsplit T baseUrl
  let origin ← originOf T parsed
  return ⟨baseUrl, origin, parsed.path⟩

end configuration

/-! ## Routes -/

def maxSafePullRequestNumber : ℤ := 2147483647

/-- `_repository_route`: the route, the owner and the name. -/
def repositoryRoute (repositoryFullName : String) : DecodeM (List Char × List Char × List Char) :=
  match validateRepositoryFullName repositoryFullName with
  | .error _ => .error transportFailed
  | .ok () =>
    let (owner, name) := Url.partition '/' repositoryFullName.toList
    .ok ("repos/".toList ++ Url.quote owner ++ '/' :: Url.quote name, owner, name)

/-- `_comment_collection_route`. -/
def commentCollectionRoute (repositoryFullName : String) (pullRequestNumber : ℤ) : DecodeM (List Char) := do
  let (_, owner, name) ← repositoryRoute repositoryFullName
  ensure (decide (1 ≤ pullRequestNumber ∧ pullRequestNumber ≤ maxSafePullRequestNumber)) transportFailed
  return "repos/".toList ++ Url.quote owner ++ '/' :: Url.quote name ++ "/issues/".toList ++
    (toString pullRequestNumber).toList ++ "/comments".toList

/-! ## Payloads -/

/-- A decoded value. -/
abbrev GitHubJson := Value Binary64

def maxGithubStringLength : ℕ := 65536

def maxGithubCollectionItems : ℕ := 100

def maxGithubJsonNodes : ℕ := 20000

def maxGithubNodeIdLength : ℕ := 128

/-- What one node must keep. -/
def nodeWithinLimits : GitHubJson → Bool
  | .str s => decide (s.length ≤ maxGithubStringLength)
  | .arr items => decide (items.length ≤ maxGithubCollectionItems)
  | .obj fields => decide (fields.length ≤ maxGithubCollectionItems) &&
      fields.all fun f => decide (f.1.length ≤ maxGithubNodeIdLength)
  | .null | .bool _ | .int _ | .float _ => true

/-- The values that `visit` goes on to. -/
def nestedValues : GitHubJson → List GitHubJson
  | .arr items => items
  | .obj fields => fields.map Prod.snd
  | .null | .bool _ | .int _ | .float _ | .str _ => []

/-- `visit`, with the calls that the interpreter still allows and the nodes that were counted before. -/
def visit : ℕ → ℕ → GitHubJson → DecodeM ℕ
  | 0, _, _ => .error .recursionError
  | calls + 1, nodes, value => do
    ensure (decide (nodes + 1 ≤ maxGithubJsonNodes)) responseTooLarge
    ensure (nodeWithinLimits value) responseTooLarge
    (nestedValues value).foldlM (visit calls) (nodes + 1)

/-- `_validate_json_limits`. -/
def validateJsonLimits (calls : ℕ) (value : GitHubJson) : DecodeM Unit := do
  let _ ← visit calls 0 value
  return ()

/-- The encodings that `json.detect_encoding` distinguishes. -/
inductive JsonEncoding
  | utf8 | utf8Sig | utf16 | utf16Be | utf16Le | utf32 | utf32Be | utf32Le
  deriving DecidableEq, Repr

/-- `json.detect_encoding`. -/
def detectEncoding (b : List UInt8) : JsonEncoding :=
  if [0, 0, 0xFE, 0xFF].isPrefixOf b || [0xFF, 0xFE, 0, 0].isPrefixOf b then .utf32
  else if [0xFE, 0xFF].isPrefixOf b || [0xFF, 0xFE].isPrefixOf b then .utf16
  else if [0xEF, 0xBB, 0xBF].isPrefixOf b then .utf8Sig
  else
    match b with
    | b₀ :: b₁ :: b₂ :: b₃ :: _ =>
      if b₀ = 0 then if b₁ = 0 then .utf32Be else .utf16Be
      else if b₁ = 0 then if b₂ = 0 ∧ b₃ = 0 then .utf32Le else .utf16Le
      else .utf8
    | [b₀, b₁] => if b₀ = 0 then .utf16Be else if b₁ = 0 then .utf16Le else .utf8
    | _ => .utf8

/-- What decoding relies on of the interpreter. -/
structure JsonReader where
  interpreter : Interpreter
  /-- How deep `visit` may call itself. -/
  calls : ℕ
  /-- `bytes.decode(encoding, "surrogatepass")`; `none` is a `UnicodeDecodeError`. -/
  decode : JsonEncoding → List UInt8 → Option (List Char)

/-- `_decode_json`. -/
def decodeJson (R : JsonReader) (payload : List UInt8) : DecodeM GitHubJson := do
  ensure (!payload.isEmpty) transportFailed
  match R.decode (detectEncoding payload) payload with
  | none => .error transportFailed
  | some text =>
    match JsonText.loads (jsonDecoder R.interpreter) text with
    | .error .decode => .error transportFailed
    | .error .value => .error .valueError
    | .error .recursion => .error .recursionError
    | .ok decoded => do
      validateJsonLimits R.calls decoded
      return decoded

/-! ## Fields -/

/-- `_REPOSITORY_FIELDS`. -/
def repositoryFields : List String :=
  ["id", "node_id", "name", "full_name", "private", "owner", "html_url", "description", "fork", "url",
    "forks_url", "keys_url", "collaborators_url", "teams_url", "hooks_url", "issue_events_url", "events_url",
    "assignees_url", "branches_url", "tags_url", "blobs_url", "git_tags_url", "git_refs_url", "trees_url",
    "statuses_url", "languages_url", "stargazers_url", "contributors_url", "subscribers_url",
    "subscription_url", "commits_url", "git_commits_url", "comments_url", "issue_comment_url", "contents_url",
    "compare_url", "merges_url", "archive_url", "downloads_url", "issues_url", "pulls_url", "milestones_url",
    "notifications_url", "labels_url", "releases_url", "deployments_url", "created_at", "updated_at",
    "pushed_at", "git_url", "ssh_url", "clone_url", "svn_url", "homepage", "size", "stargazers_count",
    "watchers_count", "language", "has_issues", "has_projects", "has_downloads", "has_wiki", "has_pages",
    "has_discussions", "forks_count", "mirror_url", "archived", "disabled", "open_issues_count", "license",
    "allow_forking", "is_template", "web_commit_signoff_required", "topics", "visibility", "forks",
    "open_issues", "watchers", "default_branch", "temp_clone_token", "network_count", "subscribers_count",
    "permissions", "organization", "security_and_analysis", "custom_properties"]

/-- `_PULL_REQUEST_FIELDS`. -/
def pullRequestFields : List String :=
  ["url", "id", "node_id", "html_url", "diff_url", "patch_url", "issue_url", "number", "state", "locked",
    "title", "user", "body", "created_at", "updated_at", "closed_at", "merged_at", "merge_commit_sha",
    "assignee", "assignees", "requested_reviewers", "requested_teams", "labels", "milestone", "draft",
    "commits_url", "review_comments_url", "review_comment_url", "comments_url", "statuses_url", "head", "base",
    "_links", "author_association", "auto_merge", "active_lock_reason", "merged", "mergeable", "rebaseable",
    "mergeable_state", "merged_by", "comments", "review_comments", "maintainer_can_modify", "commits",
    "additions", "deletions", "changed_files"]

/-- `_PULL_REF_FIELDS`. -/
def pullRefFields : List String :=
  ["label", "ref", "sha", "user", "repo"]

/-- `_COMMENT_FIELDS`. -/
def commentFields : List String :=
  ["url", "html_url", "issue_url", "id", "node_id", "user", "created_at", "updated_at", "author_association",
    "body", "reactions", "performed_via_github_app"]

/-- `_USER_FIELDS`. -/
def userFields : List String :=
  ["login", "id", "node_id", "avatar_url", "gravatar_id", "url", "html_url", "followers_url", "following_url",
    "gists_url", "starred_url", "subscriptions_url", "organizations_url", "repos_url", "events_url",
    "received_events_url", "type", "user_view_type", "site_admin", "name", "company", "blog", "location",
    "email", "hireable", "bio", "twitter_username", "notification_email", "public_repos", "public_gists",
    "followers", "following", "created_at", "updated_at", "private_gists", "total_private_repos",
    "owned_private_repos", "disk_usage", "collaborators", "two_factor_authentication", "plan", "ldap_dn",
    "business_plus", "enterprise_managed_user"]

/-- `_strict_object`. -/
def strictObject (value : GitHubJson) (allowed required : List String) : DecodeM (List (String × GitHubJson)) :=
  match value with
  | .obj fields => do
    ensure ((required.all fun name => fields.any fun f => f.1 == name) && fields.all fun f => allowed.contains f.1)
      transportFailed
    return fields
  | _ => .error transportFailed

/-- `payload[name]`, for a name that `_strict_object` requires. -/
def payloadItem (payload : List (String × GitHubJson)) (name : String) : GitHubJson := (getField payload name).getD .null

def maxSafeGithubId : ℤ := 2 ^ 63 - 1

/-- `_safe_id`. -/
def safeId : GitHubJson → DecodeM ℕ
  | .int i => do
    ensure (decide (1 ≤ i ∧ i ≤ maxSafeGithubId)) transportFailed
    return i.toNat
  | _ => .error transportFailed

/-- `_NODE_ID.fullmatch`. -/
def nodeIdText (s : String) : Bool :=
  decide (1 ≤ s.length ∧ s.length ≤ maxGithubNodeIdLength) &&
    s.toList.all fun c => isAsciiAlnum c || ['_', '=', '-'].contains c

/-- `_safe_node_id`. -/
def safeNodeId : GitHubJson → DecodeM String
  | .str s => do
    ensure (nodeIdText s) transportFailed
    return s
  | _ => .error transportFailed

/-- `_safe_repository_name`. -/
def safeRepositoryName : GitHubJson → DecodeM String
  | .str s =>
    match validateRepositoryFullName s with
    | .error _ => .error transportFailed
    | .ok () => .ok s
  | _ => .error transportFailed

/-- `_DISPLAY_TEXT.fullmatch`. -/
def displayText (s : String) : Bool :=
  decide (1 ≤ s.length ∧ s.length ≤ 255) && s.toList.all fun c => decide (31 < c.toNat) && decide (c.toNat ≠ 127)

/-- `_safe_display_text`. -/
def safeDisplayText : GitHubJson → DecodeM String
  | .str s => do
    ensure (displayText s) transportFailed
    return s
  | _ => .error transportFailed

/-- `_SHA.fullmatch`. -/
def shaText (s : String) : Bool :=
  decide (s.length = 40) && s.toList.all fun c => isAsciiDigit c || (decide ('a' ≤ c) && decide (c ≤ 'f'))

/-- `_safe_sha`. -/
def safeSha (value : GitHubJson) (required : Bool) : DecodeM (Option String) :=
  match value with
  | .str s => if shaText s then .ok (some s) else if required then .error headUnavailable else .ok none
  | _ => if required then .error headUnavailable else .ok none

/-! ## Objects -/

structure GitHubRepositoryIdentity where
  fullName : String
  repositoryId : ℕ
  nodeId : String
  deriving DecidableEq, Repr

structure ResolvedPullRequest where
  repositoryFullName : String
  repositoryId : ℕ
  repositoryNodeId : String
  pullRequestNumber : ℤ
  pullRequestId : ℕ
  pullRequestNodeId : String
  state : String
  draft : Bool
  merged : Bool
  baseRef : String
  baseSha : String
  headRef : String
  headSha : Option String
  headRepositoryFullName : Option String
  headRepositoryId : Option ℕ
  deriving DecidableEq, Repr

structure GitHubComment where
  commentId : ℕ
  body : String
  author : GitHubActorIdentity
  repositoryFullName : String
  pullRequestNumber : ℤ
  deriving DecidableEq, Repr

/-- `_decode_repository`. -/
def decodeRepository (value : GitHubJson) : DecodeM GitHubRepositoryIdentity := do
  let payload ← strictObject value repositoryFields ["id", "node_id", "full_name"]
  let fullName ← safeRepositoryName (payloadItem payload "full_name")
  let repositoryId ← safeId (payloadItem payload "id")
  let nodeId ← safeNodeId (payloadItem payload "node_id")
  return ⟨fullName, repositoryId, nodeId⟩

/-- The repository of a reference, if there is one. -/
def decodeRefRepository (value : GitHubJson) : DecodeM (Option GitHubRepositoryIdentity) :=
  match value with
  | .obj fields => do
    let repository ← decodeRepository (.obj fields)
    return some repository
  | _ => .ok none

/-- `_decode_ref` of a value that is not left out. -/
def decodePresentRef (value : GitHubJson) (requireRepository requireSha : Bool) :
    DecodeM (String × Option String × Option GitHubRepositoryIdentity) := do
  let payload ← strictObject value pullRefFields ["ref", "sha", "repo"]
  let repository ← decodeRefRepository (payloadItem payload "repo")
  match repository with
  | none => do
    ensure (!requireRepository) headUnavailable
    let ref ← safeDisplayText (payloadItem payload "ref")
    return (ref, none, none)
  | some repository => do
    let ref ← safeDisplayText (payloadItem payload "ref")
    let sha ← safeSha (payloadItem payload "sha") requireSha
    return (ref, sha, some repository)

/-- `_decode_ref`. -/
def decodeRef (value : GitHubJson) (requireRepository requireSha : Bool) :
    DecodeM (String × Option String × Option GitHubRepositoryIdentity) :=
  match value, requireRepository, requireSha with
  | .null, false, false => .ok ("unavailable", none, none)
  | value, requireRepository, requireSha => decodePresentRef value requireRepository requireSha

/-- `value == number`. -/
def equalsInt (value : GitHubJson) (number : ℤ) : Bool :=
  match value with
  | .int i => i == number
  | .bool b => (if b then 1 else 0) == number
  | .float (.finite q) => q == (number : ℚ)
  | _ => false

/-- `state not in {"open", "closed"}` hashes the state. -/
def decodeState : GitHubJson → DecodeM String
  | .arr _ | .obj _ => .error .typeError
  | .str s => do
    ensure (["open", "closed"].contains s) transportFailed
    return s
  | .null | .bool _ | .int _ | .float _ => .error transportFailed

/-- `isinstance(value, bool)`. -/
def decodeFlag : GitHubJson → DecodeM Bool
  | .bool b => .ok b
  | _ => .error transportFailed

/-- `_decode_pull_request`. -/
def decodePullRequest (value : GitHubJson) (repository : GitHubRepositoryIdentity) (requestedNumber : ℤ)
    (requireHead : Bool) : DecodeM ResolvedPullRequest := do
  let payload ← strictObject value pullRequestFields
    ["id", "node_id", "number", "state", "draft", "merged", "base", "head"]
  ensure (equalsInt (payloadItem payload "number") requestedNumber) transportFailed
  let state ← decodeState (payloadItem payload "state")
  let draft ← decodeFlag (payloadItem payload "draft")
  let merged ← decodeFlag (payloadItem payload "merged")
  let (baseRef, baseSha, baseRepository) ← decodeRef (payloadItem payload "base") true true
  ensure (baseRepository.any fun base =>
    base.repositoryId == repository.repositoryId && base.nodeId == repository.nodeId) transportFailed
  let (headRef, headSha, headRepository) ← decodeRef (payloadItem payload "head") requireHead requireHead
  let pullRequestId ← safeId (payloadItem payload "id")
  let pullRequestNodeId ← safeNodeId (payloadItem payload "node_id")
  let resolved : ResolvedPullRequest :=
    { repositoryFullName := repository.fullName, repositoryId := repository.repositoryId
      repositoryNodeId := repository.nodeId, pullRequestNumber := requestedNumber, pullRequestId := pullRequestId
      pullRequestNodeId := pullRequestNodeId, state := state, draft := draft, merged := merged, baseRef := baseRef
      baseSha := baseSha.getD "", headRef := headRef, headSha := headSha
      headRepositoryFullName := headRepository.map GitHubRepositoryIdentity.fullName
      headRepositoryId := headRepository.map GitHubRepositoryIdentity.repositoryId }
  return resolved

/-- `_decode_actor`. -/
def decodeActor (value : GitHubJson) : DecodeM GitHubActorIdentity := do
  let payload ← strictObject value userFields ["id", "node_id"]
  let actorId ← safeId (payloadItem payload "id")
  let nodeId ← safeNodeId (payloadItem payload "node_id")
  return ⟨actorId, nodeId⟩

/-! ## Associations -/

section associations

variable (T : Url.Tables) (U : CharTable)

/-- Digits, with single underscores between them. -/
def underscoredDigits : List Char → Option (List ℕ)
  | [] => none
  | [c] => (U.decimal c).map fun d => [d]
  | c :: '_' :: rest => do
    let d ← U.decimal c
    let ds ← underscoredDigits rest
    return d :: ds
  | c :: rest => do
    let d ← U.decimal c
    let ds ← underscoredDigits rest
    return d :: ds

/-- `int(text)`; `none` is a `ValueError`. -/
def pythonInt (text : List Char) : Option ℤ := do
  let (negative, body) :=
    match strip text with
    | '-' :: body => (true, body)
    | '+' :: body => (false, body)
    | body => (false, body)
  let digits ← underscoredDigits U body
  let magnitude : ℕ := digits.foldl (fun n d => n * 10 + d) 0
  if maximumDigits < digits.length then none else some (if negative then -(magnitude : ℤ) else magnitude)

/-- The checks on the route behind the prefix. -/
def decodeRoute (ownerPart repositoryPart numberPart : List Char) : DecodeM (String × ℤ) := do
  let owner := Url.unquote ownerPart
  let repositoryName := Url.unquote repositoryPart
  let repositoryFullName := String.ofList (owner ++ '/' :: repositoryName)
  match pythonInt U numberPart with
  | none => .error transportFailed
  | some pullRequestNumber =>
    match validateRepositoryFullName repositoryFullName with
    | .error _ => .error transportFailed
    | .ok () => do
      ensure (Url.quote owner == ownerPart && Url.quote repositoryName == repositoryPart &&
        (toString pullRequestNumber).toList == numberPart &&
        decide (1 ≤ pullRequestNumber ∧ pullRequestNumber ≤ maxSafePullRequestNumber)) transportFailed
      return (repositoryFullName, pullRequestNumber)

/-- The path that every association starts with. -/
def routePrefix (expectedPathPrefix : List Char) : List Char := withoutSlashes expectedPathPrefix ++ "/repos/".toList

/-- `_decode_issue_association`. -/
def decodeIssueAssociation (value : GitHubJson) (expectedOrigin : Origin) (expectedPathPrefix : List Char) :
    DecodeM (String × ℤ) :=
  match value with
  | .str url => do
    ensure (decide (url.length ≤ maxGithubStringLength)) transportFailed
    match Url.urlsplit T url.toList with
    | none => .error .valueError
    | some parsed =>
      match originOf T parsed with
      | none => .error .valueError
      | some origin => do
        ensure (origin == expectedOrigin && (routePrefix expectedPathPrefix).isPrefixOf parsed.path &&
          parsed.userinfo.isNone && parsed.query.isEmpty && parsed.fragment.isEmpty) transportFailed
        match (parsed.path.drop (routePrefix expectedPathPrefix).length).splitOn '/' with
        | [ownerPart, repositoryPart, issues, numberPart] => do
          ensure (issues == "issues".toList) transportFailed
          decodeRoute U ownerPart repositoryPart numberPart
        | _ => .error transportFailed
  | _ => .error transportFailed

/-- `_decode_comment`. -/
def decodeComment (value : GitHubJson) (expectedOrigin : Origin) (expectedPathPrefix : List Char) :
    DecodeM GitHubComment := do
  let payload ← strictObject value commentFields ["id", "body", "issue_url", "user"]
  match payloadItem payload "body" with
  | .str body => do
    ensure (decide (body.length ≤ maxGithubStringLength)) transportFailed
    let (repositoryFullName, pullRequestNumber) ←
      decodeIssueAssociation T U (payloadItem payload "issue_url") expectedOrigin expectedPathPrefix
    let commentId ← safeId (payloadItem payload "id")
    let author ← decodeActor (payloadItem payload "user")
    return ⟨commentId, body, author, repositoryFullName, pullRequestNumber⟩
  | _ => .error transportFailed

end associations

end Switchboard
