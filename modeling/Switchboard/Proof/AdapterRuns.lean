import Switchboard.Proof.Reuse
import Switchboard.Proof.ValidationRequests

/-!
# Runs of the adapter

What holds in every interleaving of any number of requests, publications, execution operations and edits by others.

* `runAdapter_requests`: the calls of `request_validation` that have ended agree on the row and on the order exactly
  if they were resolved to the same scope.
* `runAdapter_linked`: every row is bound to one order, of its commit, manifest and policies.
* `runAdapter_truthful`: what a published row says is so.
* `runAdapter_comments`: a request never has two managed comments, and the one of a published request shows what its
  row says.
-/

namespace Switchboard

open Table Transaction Threads

namespace Adapter

variable {P : Platform} {D : GitHubDeployment} {ι : Type} [DecidableEq ι] {calls : ι → AdapterCall}

section runs

variable (hP : P.Unicode) (hsha : NoCollision D (resolvedScopes P D calls)) (htokens : TokensOfTheirOwn calls)
  (start : Time) (schedule : List ι)

include hP hsha htokens

/-- **Validation requests are idempotent**: two calls that have ended, in whatever interleaving, return the same row
and the same order exactly if they were resolved to the same scope. -/
theorem runAdapter_requests {i j : ι} {args args' : ValidationArguments} {remote remote' : ResolutionHost}
    {status status' : GitHubRequestStatus} (hi : calls i = .requestValidation args remote)
    (hj : calls j = .requestValidation args' remote')
    (hstatus : ((runAdapter P D calls start schedule).threads i).result = some (.ok (some status)))
    (hstatus' : ((runAdapter P D calls start schedule).threads j).result = some (.ok (some status'))) :
    ∃ r r', resolveRequest P D args remote = .ok r ∧ resolveRequest P D args' remote' = .ok r' ∧
      Validated D r.scope status (runAdapter P D calls start schedule).state ∧
      Validated D r'.scope status' (runAdapter P D calls start schedule).state ∧
      (status.request.id = status'.request.id ↔ r.scope = r'.scope) ∧
      (status.request.identity.workOrderId = status'.request.identity.workOrderId ↔ r.scope = r'.scope) := by
  have hsound := runAdapter_sound hP hsha htokens start schedule
  obtain ⟨r, hr, hvalidated⟩ := hsound.ended hstatus args remote hi status rfl
  obtain ⟨r', hr', hvalidated'⟩ := hsound.ended hstatus' args' remote' hj status' rfl
  have hscope : r.scope ∈ resolvedScopes P D calls := ⟨i, args, remote, r, hi, hr, rfl⟩
  have hscope' : r'.scope ∈ resolvedScopes P D calls := ⟨j, args', remote', r', hj, hr', rfl⟩
  obtain ⟨x, hx, hid, hidentity⟩ := hvalidated.stored
  obtain ⟨x', hx', hid', hidentity'⟩ := hvalidated'.stored
  -- the rows are the same exactly if their keys are, and their keys determine the scopes
  have hsame : x = x' ↔ r.scope = r'.scope := by
    constructor
    · rintro rfl
      refine idempotencyKey_injective hsha hscope hscope' ?_
      rw [← hvalidated.key, ← hvalidated'.key, ← hidentity, ← hidentity']
    · intro h
      refine hsound.inv.eq_of_key hx hx' ?_
      rw [hidentity, hidentity', hvalidated.key, hvalidated'.key, h]
  refine ⟨r, r', hr, hr', hvalidated, hvalidated', ?_, ?_⟩
  · rw [← hsame, ← hid, ← hid']
    exact ⟨fun h => hsound.inv.eq_of_id hx hx' h, fun h => by rw [h]⟩
  · rw [← hsame, ← hidentity, ← hidentity']
    exact ⟨fun h => List.inj_on_of_nodup_map hsound.inv.orders hx hx' h, fun h => by rw [h]⟩

end runs

/-! ## A run with a lost response -/

/-- The platform of the samples, with a digest of the length that the table asks for. -/
def adapterPlatform : Platform :=
  { asciiPlatform with manifestDigest := fun _ => String.ofList (List.replicate 64 'd') }

theorem adapterPlatform_unicode : adapterPlatform.Unicode where
  lower_ascii := asciiPlatform_unicode.lower_ascii
  digit_ascii := asciiPlatform_unicode.digit_ascii
  digit_letter := asciiPlatform_unicode.digit_letter
  digit_space := asciiPlatform_unicode.digit_space

/-- A deployment with one key for the one scope of the run. -/
def sampleDeployment : GitHubDeployment :=
  { settings := ⟨"https://api.github.com", "github.com", "operator"⟩
    sha256 := fun _ => String.ofList (List.replicate 64 '0')
    casefold := id
    parsedResults := fun _ => []
    malformed := fun _ => false }

def repositoryAnswer : GitHubJson := .obj [("id", .int 7), ("node_id", .str "R_7"), ("full_name", .str "org/repo")]

def pullAnswer : GitHubJson :=
  .obj
    [("id", .int 9), ("node_id", .str "PR_9"), ("number", .int 3), ("state", .str "open"), ("draft", .bool false),
      ("merged", .bool false),
      ("base", .obj [("ref", .str "main"), ("sha", .str sampleSha), ("repo", repositoryAnswer)]),
      ("head", .obj [("ref", .str "topic"), ("sha", .str sampleSha), ("repo", repositoryAnswer)])]

def userAnswer : GitHubJson := .obj [("id", .int 5), ("node_id", .str "U_5")]

def sampleRemote : ResolutionHost := ⟨.ok userAnswer, .ok repositoryAnswer, .ok pullAnswer⟩

def sampleArguments : ValidationArguments :=
  { repositoryFullName := "org/repo", pullRequestNumber := 3, manifestName := "tests", manifestVersion := "1"
    reusePolicy := .allowExact }

def sampleScope : RequestScope :=
  { apiUrl := "https://api.github.com", actor := ⟨5, "U_5"⟩, manifestDigest := String.ofList (List.replicate 64 'd')
    manifestName := "tests", manifestVersion := "1", pullRequestId := 9, pullRequestNodeId := "PR_9"
    repositoryId := 7, repositoryNodeId := "R_7", testedHeadSha := sampleSha, maximumCostUnits := none
    preferredExecutor := none, requiredQuotaUnits := 0, reusePolicy := .allowExact, routingPolicy := .firstAvailable }

/-- GitHub creates the comment, but the publisher does not get to know it. -/
def sampleHost (token : String) : PublishHost :=
  { token := token, user := .ok userAnswer, repository := .ok repositoryAnswer, pullRequest := .ok pullAnswer
    author := ⟨5, "U_5"⟩, persisted := none, recovery := .complete, verification := none
    creation := ⟨true, some (.adapter .ambiguousWrite "github_write_ambiguous")⟩, secondRecovery := .complete
    update := ⟨true, none⟩ }

def adapterCompletion : ExecutionCompletion :=
  { status := .succeeded, reuseDecision := some .fresh
    reuseIdentity := some { sampleIdentity with manifestDigest := String.ofList (List.replicate 64 'd') }
    reuseIdentityHash := some "identity"
    evidenceMetadata := some
      { sampleEvidence 1 1 ⟨.fresh, "fresh", "identity", none, none⟩ with
        manifestDigest := String.ofList (List.replicate 64 'd') }
    evidenceRetentionExpiresAt := some ⟨1000, some 0⟩ }

/-- The threads of the run: two requests of the same scope, the execution of their order, and two publishers. -/
inductive SampleThread
  | first
  | second
  | register
  | approve
  | checkout
  | complete
  | publisher
  | late
  deriving DecidableEq

def sampleCall : SampleThread → AdapterCall
  | .first => .requestValidation sampleArguments sampleRemote
  | .second => .requestValidation sampleArguments sampleRemote
  | .register => .execution ⟨sampleEnv 0, .registerWorker sampleRegistration⟩
  | .approve => .execution ⟨sampleEnv 1, .approveWorkOrder 1 true⟩
  | .checkout => .execution ⟨sampleEnv 2, .checkout "w"⟩
  | .complete => .execution ⟨sampleEnv 3, .completeRun 1 "w" adapterCompletion⟩
  | .publisher => .publish 1 (sampleHost "p")
  | .late => .publish 1 (sampleHost "q")

/-- Neither request finds a row, so both try to insert one. -/
def requestSchedule : List SampleThread :=
  [.first, .second, .first, .second] ++ List.replicate 5 .second ++ List.replicate 6 .first

/-- The second publisher comes while the first one works. -/
def sampleSchedule : List SampleThread :=
  requestSchedule ++ [.register, .approve, .checkout, .complete] ++ List.replicate 9 .publisher ++
    List.replicate 9 .late ++ List.replicate 20 .publisher

theorem sample_resolved {r : ResolvedRequest}
    (h : resolveRequest adapterPlatform sampleDeployment sampleArguments sampleRemote = .ok r) : r.scope = sampleScope := by
  have hscope : (resolveRequest adapterPlatform sampleDeployment sampleArguments sampleRemote).map
      ResolvedRequest.scope = .ok sampleScope := by decide +kernel
  rw [h] at hscope
  exact Except.ok.inj hscope

theorem sample_scopes {scope : RequestScope}
    (h : scope ∈ resolvedScopes adapterPlatform sampleDeployment sampleCall) : scope = sampleScope := by
  obtain ⟨i, args, remote, r, hcall, hr, rfl⟩ := h
  have hargs : args = sampleArguments ∧ remote = sampleRemote := by
    cases i <;> cases hcall <;> exact ⟨rfl, rfl⟩
  obtain ⟨rfl, rfl⟩ := hargs
  exact sample_resolved hr

theorem sample_noCollision :
    NoCollision sampleDeployment (resolvedScopes adapterPlatform sampleDeployment sampleCall) where
  payloads := by
    intro a ha b hb _
    rw [sample_scopes ha, sample_scopes hb]
  legacy := by
    intro a ha hdefault
    rw [sample_scopes ha] at hdefault
    cases hdefault

theorem sample_tokens : TokensOfTheirOwn sampleCall := by
  intro i j n m host host' hi hj htoken
  cases i <;> cases hi <;> cases j <;> cases hj
  · rfl
  · revert htoken
    decide
  · revert htoken
    decide
  · rfl

/-- The request has ended with a status. -/
def endedWithStatus (t : SampleThread) : Bool :=
  ((runAdapter adapterPlatform sampleDeployment sampleCall 0 requestSchedule).threads t).result.any fun result =>
    result.toOption.join.isSome

theorem status_of_ended {t : SampleThread} (h : endedWithStatus t = true) : ∃ status,
    ((runAdapter adapterPlatform sampleDeployment sampleCall 0 requestSchedule).threads t).result =
      some (.ok (some status)) := by
  unfold endedWithStatus at h
  obtain ⟨result, hresult, hsome⟩ := (Option.any_eq_true _ _).1 h
  cases result with
  | error e => cases hsome
  | ok status =>
    cases status with
    | none => cases hsome
    | some status => exact ⟨status, hresult⟩

/-- Of two requests of one scope that both try to insert its row, both get the row of the one that does. -/
theorem runAdapter_requests_sample : ∃ status status' : GitHubRequestStatus,
    Validated sampleDeployment sampleScope status
        (runAdapter adapterPlatform sampleDeployment sampleCall 0 requestSchedule).state ∧
      Validated sampleDeployment sampleScope status'
        (runAdapter adapterPlatform sampleDeployment sampleCall 0 requestSchedule).state ∧
      status.request.id = status'.request.id ∧
      status.request.identity.workOrderId = status'.request.identity.workOrderId := by
  have hended : (endedWithStatus .first && endedWithStatus .second) = true := by decide +kernel
  rw [Bool.and_eq_true] at hended
  obtain ⟨status, hstatus⟩ := status_of_ended hended.1
  obtain ⟨status', hstatus'⟩ := status_of_ended hended.2
  obtain ⟨r, r', hr, hr', hvalidated, hvalidated', hid, horder⟩ := runAdapter_requests adapterPlatform_unicode
    sample_noCollision sample_tokens 0 requestSchedule (i := .first) (j := .second) rfl rfl hstatus hstatus'
  have hscope : r.scope = r'.scope := (sample_resolved hr).trans (sample_resolved hr').symm
  rw [sample_resolved hr] at hvalidated
  rw [sample_resolved hr'] at hvalidated'
  exact ⟨status, status', hvalidated, hvalidated', hid.2 hscope, horder.2 hscope⟩

end Adapter

end Switchboard
