import Switchboard.Proof.Identity
import Switchboard.Proof.Runs
import Switchboard.Spec.ValidationRequests

/-!
# Scopes of validation requests

* `payload_injective`, `idempotencyKey_injective`: the payload of a scope determines it, and so does its key.
* `legacyPayload_ne`, `legacyIdempotencyKey_ne`: no key of a scope is the older key of one.
* `resolveRequest_ok`: what a request is resolved to; its head is a text of lowercase digits.
* `createWorkOrder_ok`: the order that is created for a draft.
-/

namespace Switchboard

open Table Transaction

namespace Adapter

variable {P : Platform} {D : GitHubDeployment}

/-! ## Keys -/

namespace RequestScope

theorem fields_floatFree (scope : RequestScope) : Json.floatFreeFields scope.fields := by
  simp [fields, Json.floatFreeFields, Json.FloatFree]

theorem executionPolicy_floatFree (scope : RequestScope) : scope.executionPolicy.FloatFree := by
  unfold executionPolicy
  simp only [Json.FloatFree, Json.floatFreeFields, and_true]
  constructor
  · cases scope.maximumCostUnits <;> trivial
  · cases scope.preferredExecutor <;> trivial

theorem payloadFields_floatFree (scope : RequestScope) :
    (Json.obj (scope.fields ++ [("execution_policy", scope.executionPolicy)])).FloatFree := by
  refine floatFreeFields_iff.2 fun f hf => ?_
  rcases List.mem_append.1 hf with hf | hf
  · exact floatFreeFields_iff.1 scope.fields_floatFree f hf
  · obtain rfl := List.mem_singleton.1 hf
    exact scope.executionPolicy_floatFree

end RequestScope

theorem reusePolicy_value_injective {p q : ReusePolicy} (h : p.value = q.value) : p = q := by
  revert h
  cases p <;> cases q <;> decide

theorem routingPolicy_value_injective {p q : RoutingPolicy} (h : p.value = q.value) : p = q := by
  revert h
  cases p <;> cases q <;> decide

/-- **The payload of a scope determines it.** -/
theorem payload_injective {a b : RequestScope} (h : a.payload = b.payload) : a = b := by
  have hsorted := canonicalAscii_injective a.payloadFields_floatFree b.payloadFields_floatFree h
  have hvalues := values_of_sortKeys hsorted (by simp [RequestScope.fields]) rfl
  simp only [RequestScope.fields, List.cons_append, List.nil_append, List.map_cons, List.map_nil, List.cons.injEq,
    and_true] at hvalues
  obtain ⟨hurl, hactor, hnode, hdigest, hname, hversion, hpull, hpullNode, hrepository, hrepositoryNode, -, hhead,
    hpolicy⟩ := hvalues
  have hfields := values_of_sortKeys hpolicy (by simp) rfl
  simp only [List.map_cons, List.map_nil, List.cons.injEq, and_true] at hfields
  obtain ⟨hcost, hexecutor, hquota, hreuse, hrouting⟩ := hfields
  have hnat : ∀ {m n : ℕ}, sortKeys (.int m) = sortKeys (.int n) → m = n := fun h => Int.ofNat.inj (int_of_sortKeys h)
  cases a with
  | mk aUrl aActor =>
  cases b with
  | mk bUrl bActor =>
  cases aActor
  cases bActor
  rw [RequestScope.mk.injEq, GitHubActorIdentity.mk.injEq]
  exact ⟨str_of_sortKeys hurl, ⟨hnat hactor, str_of_sortKeys hnode⟩, str_of_sortKeys hdigest, str_of_sortKeys hname,
    str_of_sortKeys hversion, hnat hpull, str_of_sortKeys hpullNode, hnat hrepository, str_of_sortKeys hrepositoryNode,
    str_of_sortKeys hhead, optional_int_of_sortKeys hcost, optional_str_of_sortKeys hexecutor, int_of_sortKeys hquota,
    reusePolicy_value_injective (str_of_sortKeys hreuse), routingPolicy_value_injective (str_of_sortKeys hrouting)⟩

/-- **No payload of a scope is the older payload of one**: that has a field less. -/
theorem legacyPayload_ne (a b : RequestScope) : a.legacyPayload ≠ b.payload := by
  intro h
  have hsorted := canonicalAscii_injective (v := .obj a.fields) a.fields_floatFree b.payloadFields_floatFree h
  have hlength := (perm_of_sortKeys hsorted).length_eq
  simp [RequestScope.fields] at hlength

section keys

variable {scopes : Set RequestScope} (hsha : NoCollision D scopes) {a b : RequestScope} (ha : a ∈ scopes)
  (hb : b ∈ scopes)

include hsha ha hb

/-- **The key of a scope determines it.** -/
theorem idempotencyKey_injective (h : a.idempotencyKey D = b.idempotencyKey D) : a = b :=
  payload_injective (hsha.payloads a ha b hb h)

/-- **No key of a scope is the older key of one.** -/
theorem legacyIdempotencyKey_ne (hdefault : a.usesLegacyDefaultPolicy = true) :
    a.legacyIdempotencyKey D ≠ b.idempotencyKey D := by
  intro h
  exact legacyPayload_ne a b (hsha.legacy a ha hdefault b hb h)

end keys

/-! ## Resolution -/

theorem safeSha_some {value : GitHubJson} {required : Bool} {sha : String} (h : safeSha value required = .ok (some sha)) :
    shaText sha = true := by
  unfold safeSha at h
  split at h
  · split at h
    · rename_i hsha
      rw [← Option.some.inj (Except.ok.inj h)]
      exact hsha
    · split at h <;> cases h
  · split at h <;> cases h

theorem decodePresentRef_sha {value : GitHubJson} {requireRepository requireSha : Bool}
    {ref : String × Option String × Option GitHubRepositoryIdentity} {sha : String}
    (h : decodePresentRef value requireRepository requireSha = .ok ref) (hsha : ref.2.1 = some sha) :
    shaText sha = true := by
  unfold decodePresentRef at h
  rw [except_bind_ok] at h
  obtain ⟨payload, -, h⟩ := h
  rw [except_bind_ok] at h
  obtain ⟨repository, -, h⟩ := h
  cases repository with
  | none =>
    simp only [except_bind_ok, except_pure_ok] at h
    obtain ⟨_, _, _, _, rfl⟩ := h
    cases hsha
  | some repository =>
    simp only [except_bind_ok, except_pure_ok] at h
    obtain ⟨_, _, found, hfound, rfl⟩ := h
    dsimp only at hsha
    rw [hsha] at hfound
    exact safeSha_some hfound

theorem decodeRef_sha {value : GitHubJson} {requireRepository requireSha : Bool}
    {ref : String × Option String × Option GitHubRepositoryIdentity} {sha : String}
    (h : decodeRef value requireRepository requireSha = .ok ref) (hsha : ref.2.1 = some sha) : shaText sha = true := by
  unfold decodeRef at h
  split at h
  · rw [← Except.ok.inj h] at hsha
    cases hsha
  · exact decodePresentRef_sha h hsha

/-- **A resolved head is a text of lowercase digits.** -/
theorem decodePullRequest_headSha {value : GitHubJson} {repository : GitHubRepositoryIdentity} {number : ℤ}
    {requireHead : Bool} {resolved : ResolvedPullRequest} {sha : String}
    (h : decodePullRequest value repository number requireHead = .ok resolved) (hsha : resolved.headSha = some sha) :
    shaText sha = true := by
  unfold decodePullRequest at h
  simp only [except_bind_ok, except_pure_ok] at h
  obtain ⟨_, _, _, _, _, _, _, _, _, _, _, _, _, _, head, hhead, _, _, _, _, rfl⟩ := h
  exact decodeRef_sha hhead hsha

theorem mapError_ok {ε ε' α : Type} {x : Except ε α} {f : ε → ε'} {a : α} (h : x.mapError f = .ok a) : x = .ok a := by
  cases x with
  | error e => cases h
  | ok b => exact congrArg Except.ok (Except.ok.inj h)

theorem decoded_ok {α : Type} {answer : Answer} {decode : GitHubJson → DecodeM α} {a : α}
    (h : decoded answer decode = .ok a) : ∃ payload, answer = .ok payload ∧ decode payload = .ok a := by
  unfold decoded at h
  rw [except_bind_ok] at h
  obtain ⟨payload, hanswer, h⟩ := h
  exact ⟨payload, hanswer, mapError_ok h⟩

theorem resolvePullRequest_headSha {repositoryAnswer pullAnswer : Answer} {name : String} {number : ℤ}
    {requireHead : Bool} {resolved : ResolvedPullRequest} {sha : String}
    (h : resolvePullRequest repositoryAnswer pullAnswer name number requireHead = .ok resolved)
    (hsha : resolved.headSha = some sha) : shaText sha = true := by
  unfold resolvePullRequest at h
  simp only [except_bind_ok] at h
  obtain ⟨_, _, _, _, repository, _, h⟩ := h
  obtain ⟨payload, -, h⟩ := decoded_ok h
  exact decodePullRequest_headSha h hsha

/-- What a request is resolved to agrees with its arguments, with its manifest and with the pull request. -/
structure Resolves (P : Platform) (args : ValidationArguments) (r : ResolvedRequest) : Prop where
  manifest : P.getTrustedManifest args.manifestName args.manifestVersion = some r.manifest
  name : r.scope.manifestName = r.manifest.metadata.name
  version : r.scope.manifestVersion = r.manifest.metadata.version
  digest : r.scope.manifestDigest = P.manifestDigest r.manifest
  head : r.scope.testedHeadSha = r.headSha
  sha : shaText r.headSha = true
  repositoryId : r.scope.repositoryId = r.resolved.repositoryId
  repositoryNodeId : r.scope.repositoryNodeId = r.resolved.repositoryNodeId
  pullRequestId : r.scope.pullRequestId = r.resolved.pullRequestId
  pullRequestNodeId : r.scope.pullRequestNodeId = r.resolved.pullRequestNodeId
  reusePolicy : r.scope.reusePolicy = args.reusePolicy
  routingPolicy : r.scope.routingPolicy = args.routingPolicy
  maximumCostUnits : r.scope.maximumCostUnits = args.maximumCostUnits
  requiredQuotaUnits : r.scope.requiredQuotaUnits = args.requiredQuotaUnits
  preferredExecutor : r.scope.preferredExecutor = args.preferredExecutor

theorem resolveRequest_ok {args : ValidationArguments} {remote : ResolutionHost} {r : ResolvedRequest}
    (h : resolveRequest P D args remote = .ok r) : Resolves P args r := by
  unfold resolveRequest at h
  rw [except_bind_ok] at h
  obtain ⟨_, -, h⟩ := h
  cases hmanifest : P.getTrustedManifest args.manifestName args.manifestVersion with
  | none =>
    rw [hmanifest] at h
    cases h
  | some manifest =>
    rw [hmanifest] at h
    simp only [except_bind_ok] at h
    obtain ⟨_, _, actor, _, resolved, hresolved, h⟩ := h
    split at h
    · rename_i headSha _ _ hsha _ _
      simp only [except_bind_ok, except_pure_ok] at h
      obtain ⟨_, _, rfl⟩ := h
      exact { manifest := hmanifest, name := rfl, version := rfl, digest := rfl, head := rfl,
              sha := resolvePullRequest_headSha hresolved hsha, repositoryId := rfl, repositoryNodeId := rfl
              pullRequestId := rfl, pullRequestNodeId := rfl, reusePolicy := rfl, routingPolicy := rfl
              maximumCostUnits := rfl, requiredQuotaUnits := rfl, preferredExecutor := rfl }
    · cases h

/-! ## Orders -/

/-- **The order that is created for a draft** is appended, with the columns of the draft and of its manifest. -/
theorem createWorkOrder_ok {draft : WorkOrderDraft} {ss ss' : Session Database} {o : WorkOrder}
    (h : Service.createWorkOrder P draft ss = .ok (o, ss')) :
    ∃ definition manifest, P.getTrustedManifest draft.manifestName draft.manifestVersion = some definition ∧
      manifest.metadata.name = definition.metadata.name ∧ manifest.metadata.version = definition.metadata.version ∧
      manifest.digest = P.manifestDigest definition ∧ o.spec = Service.workOrderSpec P draft manifest ∧
      o.id = nextId ss.db.orders ∧ ss'.db.orders = ss.db.orders ++ [o] ∧ ss'.db.runs = ss.db.runs := by
  unfold Service.createWorkOrder at h
  simp only [bind_ok, query_ok, require_ok, requireSome_ok, read_ok, exec_ok] at h
  obtain ⟨_, _, ⟨-, rfl⟩, _, _, ⟨-, rfl⟩, definition, _, ⟨hdef, rfl⟩, _, _, ⟨-, rfl⟩, _, _, ⟨-, rfl⟩, _, _,
    ⟨-, rfl⟩, _, _, ⟨-, rfl⟩, m, s₁, hens, rfl, rfl⟩ := h
  obtain ⟨-, hname, hversion, hdigest⟩ := ensureManifest_mem hens
  have hsame : s₁.db.orders = ss.db.orders ∧ s₁.db.runs = ss.db.runs := by
    rcases ensureManifest_ok hens with ⟨-, -, rfl⟩ | ⟨-, rfl, rfl⟩ <;> exact ⟨rfl, rfl⟩
  refine ⟨definition, m, hdef, hname, hversion, hdigest, rfl, ?_, ?_, hsame.2⟩
  · show nextId s₁.db.orders = nextId ss.db.orders
    rw [hsame.1]
  · show s₁.db.orders ++ [(Repository.createWorkOrder _ s₁.db).2] = ss.db.orders ++ [_]
    rw [hsame.1]

/-- It is one of the operations of the service. -/
theorem createWorkOrder_step {draft : WorkOrderDraft} {ss ss' : Session Database} {o : WorkOrder} (env : Env)
    (h : Service.createWorkOrder P draft ss = .ok (o, ss')) : step P ss ⟨env, .createWorkOrder draft⟩ = ss' := by
  refine commit_of_ok (a := ()) ?_
  show (Service.createWorkOrder P draft >>= fun _ => pure ()) ss = .ok ((), ss')
  rw [bind_of_ok h]
  rfl

end Adapter

end Switchboard
