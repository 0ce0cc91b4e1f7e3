import Switchboard.Proof.Evidence
import Switchboard.Proof.ManagedComments
import Switchboard.Proof.PublicationClaims
import Switchboard.Proof.RequestScopes

/-!
# The state of the adapter

* `AdapterOK`: what holds of the database and of the comments; each change of the state keeps it.
* `ClaimKept`: what a publisher may rely on: while its token is stored, its claim and the managed comments of its
  request stay as they are, and until its claim expires its token stays stored.
* `adapterOK_plane`, `adapterOK_foreign`, `adapterOK_put`, `adapterOK_created`, `adapterOK_updated`,
  `adapterOK_appended`: the changes, with what they leave to others.
-/

namespace Switchboard

open Table Transaction

namespace Adapter

variable {P : Platform} {D : GitHubDeployment} {S : Set RequestScope} {s s' : AdapterState}

/-! ## The invariant -/

/-- What holds of a row that was inserted for one of the scopes in `S`. -/
structure RowOK (D : GitHubDeployment) (S : Set RequestScope) (db : Database) (comments : List GitHubComment)
    (r : GitHubValidationRequest) : Prop where
  linked : ∃ scope ∈ S, ∃ o, RequestLinked D db r.identity scope o
  single : (managedComments D r.identity comments).length ≤ 1
  published : r.isPublished = true → ∃ run e, PublicationTruthful db r run e ∧
    (r.publicationClaimToken = none → CommentShows D r run e comments)

structure AdapterOK (P : Platform) (D : GitHubDeployment) (S : Set RequestScope) (s : AdapterState) : Prop where
  reached : ∃ calls, s.plane = runCalls P calls
  ids : UniqueKeys s.requests
  keys : (s.requests.map fun r => r.identity.idempotencyKey).Nodup
  orders : (s.requests.map fun r => r.identity.workOrderId).Nodup
  comments : (s.comments.map GitHubComment.commentId).Nodup
  marked : ∀ c ∈ s.comments, marked c = true → ∃ r ∈ s.requests,
    hasExactMarker c.body (commentMarker r.identity.idempotencyKey) = true
  rows : ∀ r ∈ s.requests, RowOK D S s.plane.db s.comments r

theorem AdapterOK.planeKeys (h : AdapterOK P D S s) : Keys s.plane.db := by
  obtain ⟨calls, hcalls⟩ := h.reached
  rw [hcalls]
  exact runCalls_keys P calls

theorem AdapterOK.eq_of_id (h : AdapterOK P D S s) {r r' : GitHubValidationRequest} (hr : r ∈ s.requests)
    (hr' : r' ∈ s.requests) (hid : r.id = r'.id) : r = r' := h.ids.eq_of_key hr hr' hid

theorem AdapterOK.eq_of_key (h : AdapterOK P D S s) {r r' : GitHubValidationRequest} (hr : r ∈ s.requests)
    (hr' : r' ∈ s.requests) (hkey : r.identity.idempotencyKey = r'.identity.idempotencyKey) : r = r' :=
  List.inj_on_of_nodup_map h.keys hr hr' hkey

theorem adapterOK_init (start : Time) : AdapterOK P D S (AdapterState.init start) where
  reached := ⟨[], rfl⟩
  ids := List.Pairwise.nil
  keys := List.nodup_nil
  orders := List.nodup_nil
  comments := List.nodup_nil
  marked := by
    intro c hc
    cases hc
  rows := by
    intro r hr
    cases hr

/-! ## What others may do -/

/-- What every thread may rely on. -/
structure Common (s s' : AdapterState) : Prop where
  clock : s.clock ≤ s'.clock
  frozen : Frozen s.plane.db s'.plane.db
  specs : SpecsKept s.plane.db s'.plane.db
  rows : RowsMove (fun r r' : GitHubValidationRequest => r'.identity = r.identity) s.requests s'.requests

/-- What the holder of a token may rely on. -/
structure ClaimKept (D : GitHubDeployment) (requestId : ℕ) (token : String) (s s' : AdapterState) : Prop where
  held : ∀ r ∈ s.requests, ∀ r' ∈ s'.requests, r.id = requestId → r'.id = requestId →
    r'.publicationClaimToken = some token → r.publicationClaimToken = some token ∧
      r'.publicationClaimExpiresAt = r.publicationClaimExpiresAt ∧
      managedComments D r.identity s'.comments = managedComments D r.identity s.comments
  live : ∀ r ∈ s.requests, ∀ r' ∈ s'.requests, r.id = requestId → r'.id = requestId →
    r.publicationClaimToken = some token → ∀ d, r.publicationClaimExpiresAt = some d → s'.clock < d →
      r'.publicationClaimToken = some token

theorem Common.refl (h : AdapterOK P D S s) : Common s s where
  clock := le_rfl
  frozen := Frozen.refl h.planeKeys
  specs := specs_same h.planeKeys
  rows := RowsMove.refl h.ids fun _ => rfl

theorem SpecsKept.trans {a b c : Database} (h : SpecsKept a b) (h' : SpecsKept b c) : SpecsKept a c := by
  refine RowsMove.trans (R := SameSpec) ?_ h h'
  intro x y z hxy hyz
  exact Eq.trans hyz hxy

theorem Common.trans {s'' : AdapterState} (h : Common s s') (h' : Common s' s'') : Common s s'' where
  clock := h.clock.trans h'.clock
  frozen := h.frozen.trans h'.frozen
  specs := SpecsKept.trans h.specs h'.specs
  rows := h.rows.trans (fun hxy hyz => hyz.trans hxy) h'.rows

theorem Common.row (h : Common s s') {r : GitHubValidationRequest} (hr : r ∈ s.requests) :
    ∃ r' ∈ s'.requests, r'.id = r.id ∧ r'.identity = r.identity := by
  obtain ⟨r', hr', hid⟩ := h.rows.kept r hr
  exact ⟨r', hr', hid, h.rows.moves r hr r' hr' hid⟩

/-- The claims and the managed comments of the request are the same. -/
theorem ClaimKept.of_same {requestId : ℕ} {token : String} (h : AdapterOK P D S s)
    (hrequests : s'.requests = s.requests)
    (hmanaged : ∀ r ∈ s.requests, r.id = requestId →
      managedComments D r.identity s'.comments = managedComments D r.identity s.comments) :
    ClaimKept D requestId token s s' where
  held := by
    intro r hr r' hr' hid hid' htoken
    rw [hrequests] at hr'
    obtain rfl := h.eq_of_id hr' hr (hid'.trans hid.symm)
    exact ⟨htoken, rfl, hmanaged r' hr hid⟩
  live := by
    intro r hr r' hr' hid hid' htoken d _ _
    rw [hrequests] at hr'
    obtain rfl := h.eq_of_id hr' hr (hid'.trans hid.symm)
    exact htoken

theorem ClaimKept.trans {requestId : ℕ} {token : String} {s'' : AdapterState} (hcommon : Common s s')
    (hcommon' : Common s' s'') (h : ClaimKept D requestId token s s') (h' : ClaimKept D requestId token s' s'') :
    ClaimKept D requestId token s s'' where
  held := by
    intro r hr r'' hr'' hid hid'' htoken
    obtain ⟨r', hr', hid', hidentity⟩ := hcommon.row hr
    obtain ⟨htoken', hexpires', hmanaged'⟩ := h'.held r' hr' r'' hr'' (hid'.trans hid) hid'' htoken
    obtain ⟨htoken, hexpires, hmanaged⟩ := h.held r hr r' hr' hid (hid'.trans hid) htoken'
    rw [hidentity] at hmanaged'
    exact ⟨htoken, hexpires'.trans hexpires, hmanaged'.trans hmanaged⟩
  live := by
    intro r hr r'' hr'' hid hid'' htoken d hd hclock
    obtain ⟨r', hr', hid', -⟩ := hcommon.row hr
    have hbefore : s'.clock < d := lt_of_le_of_lt hcommon'.clock hclock
    have htoken' := h.live r hr r' hr' hid (hid'.trans hid) htoken d hd hbefore
    obtain ⟨-, hexpires, -⟩ := h.held r hr r' hr' hid (hid'.trans hid) htoken'
    exact h'.live r' hr' r'' hr'' (hid'.trans hid) hid'' htoken' d (hexpires.trans hd) hclock

/-- What one access of a thread leaves to the others: everything but the claim of its own token. -/
structure Leaves (D : GitHubDeployment) (own : Option String) (s s' : AdapterState) : Prop where
  common : Common s s'
  claims : ∀ requestId token, own ≠ some token → ClaimKept D requestId token s s'

theorem Leaves.refl (h : AdapterOK P D S s) (own : Option String) : Leaves D own s s :=
  ⟨Common.refl h, fun _ _ _ => ClaimKept.of_same h rfl fun _ _ _ => rfl⟩

/-- What a thread relies on. -/
structure Moves (D : GitHubDeployment) (call : AdapterCall) (s s' : AdapterState) : Prop where
  common : Common s s'
  claim : ∀ requestId host, call = .publish requestId host → ClaimKept D requestId host.token s s'

theorem Moves.trans {call : AdapterCall} {s'' : AdapterState} (h : Moves D call s s') (h' : Moves D call s' s'') :
    Moves D call s s'' :=
  ⟨h.common.trans h'.common,
    fun n host hcall => (h.claim n host hcall).trans h.common h'.common (h'.claim n host hcall)⟩

theorem Moves.refl (h : AdapterOK P D S s) (call : AdapterCall) : Moves D call s s :=
  ⟨Common.refl h, fun _ _ _ => ClaimKept.of_same h rfl fun _ _ _ => rfl⟩


theorem Leaves.trans {own : Option String} {s'' : AdapterState} (h : Leaves D own s s') (h' : Leaves D own s' s'') :
    Leaves D own s s'' :=
  ⟨h.common.trans h'.common,
    fun n token hown => (h.claims n token hown).trans h.common h'.common (h'.claims n token hown)⟩

/-! ## Rows -/

section rows

variable {db db' : Database} {comments comments' : List GitHubComment} {r : GitHubValidationRequest}

theorem requestLinked_specs {i : RequestIdentity} {scope : RequestScope} {o : WorkOrder}
    (h : RequestLinked D db i scope o) (hs : SpecsKept db db') : ∃ o', RequestLinked D db' i scope o' := by
  obtain ⟨o', ho', hid⟩ := hs.kept o h.order
  have hspec : o'.spec = o.spec := hs.moves o h.order o' ho' hid
  refine ⟨o', ho', hid.trans h.orderId, h.key, h.headSha, h.manifestName, h.manifestVersion, h.manifestDigest, ?_, ?_,
    ?_, ?_, ?_, ?_, ?_, ?_, ?_, ?_⟩ <;> rw [hspec]
  · exact h.orderCommit
  · exact h.orderRepository
  · exact h.orderManifestName
  · exact h.orderManifestVersion
  · exact h.orderManifestDigest
  · exact h.reusePolicy
  · exact h.routingPolicy
  · exact h.maximumCostUnits
  · exact h.requiredQuotaUnits
  · exact h.preferredExecutor

theorem evidenceOf_frozen {i : RequestIdentity} {run : ExecutionRun} {e : ExecutionEvidence}
    (h : EvidenceOf db i run e) (hf : Frozen db db') : EvidenceOf db' i run e :=
  { h with stored := hf.run_mem h.stored h.ended }

/-- A row is fine in every later database. -/
theorem RowOK.later (h : RowOK D S db comments r) (hs : SpecsKept db db') (hf : Frozen db db') :
    RowOK D S db' comments r where
  linked := by
    obtain ⟨scope, hscope, o, hlinked⟩ := h.linked
    obtain ⟨o', hlinked'⟩ := requestLinked_specs hlinked hs
    exact ⟨scope, hscope, o', hlinked'⟩
  single := h.single
  published := by
    intro hpublished
    obtain ⟨run, e, htruth, hshows⟩ := h.published hpublished
    exact ⟨run, e, { htruth with evidence := evidenceOf_frozen htruth.evidence hf }, hshows⟩

theorem RowOK.sameComments (h : RowOK D S db comments r)
    (hsame : managedComments D r.identity comments' = managedComments D r.identity comments) :
    RowOK D S db comments' r where
  linked := h.linked
  single := by
    rw [hsame]
    exact h.single
  published := by
    intro hpublished
    obtain ⟨run, e, htruth, hshows⟩ := h.published hpublished
    refine ⟨run, e, htruth, fun htoken => ?_⟩
    obtain ⟨c, hc, hshown⟩ := hshows htoken
    exact ⟨c, hsame.trans hc, hshown⟩

/-- A claim on a row takes away only that the comment shows what the row says. -/
theorem RowOK.claimedComments (h : RowOK D S db comments r) (htoken : r.publicationClaimToken.isSome = true)
    (hsingle : (managedComments D r.identity comments').length ≤ 1) : RowOK D S db comments' r where
  linked := h.linked
  single := hsingle
  published := by
    intro hpublished
    obtain ⟨run, e, htruth, -⟩ := h.published hpublished
    refine ⟨run, e, htruth, fun hnone => ?_⟩
    rw [hnone] at htoken
    cases htoken

theorem RowOK.claimed (h : RowOK D S db comments r) (token : String) (claimedAt expiresAt : Time) :
    RowOK D S db comments (r.claimed token claimedAt expiresAt) where
  linked := h.linked
  single := h.single
  published := by
    intro hpublished
    obtain ⟨run, e, htruth, -⟩ := h.published hpublished
    refine ⟨run, e, { htruth with }, fun hnone => ?_⟩
    cases hnone

theorem RowOK.renewed (h : RowOK D S db comments r) (htoken : r.publicationClaimToken.isSome = true)
    (expiresAt : Time) : RowOK D S db comments (r.renewed expiresAt) where
  linked := h.linked
  single := h.single
  published := by
    intro hpublished
    obtain ⟨run, e, htruth, -⟩ := h.published hpublished
    refine ⟨run, e, { htruth with }, fun hnone => ?_⟩
    rw [show r.publicationClaimToken = none from hnone] at htoken
    cases htoken

theorem RowOK.released (h : RowOK D S db comments r) (values : PublicationValues)
    (hpublished : (r.published values).isPublished = true → ∃ run e,
      PublicationTruthful db (r.published values) run e ∧ CommentShows D (r.published values) run e comments) :
    RowOK D S db comments (r.published values).released where
  linked := h.linked
  single := h.single
  published := by
    intro hp
    obtain ⟨run, e, htruth, hshows⟩ := hpublished hp
    exact ⟨run, e, { htruth with }, fun _ => hshows⟩

end rows

/-! ## The changes -/

/-- **An operation of the execution plane** keeps the invariant and every claim. -/
theorem adapterOK_plane (h : AdapterOK P D S s) (c : Call) (own : Option String) :
    AdapterOK P D S { s with plane := step P s.plane c } ∧ Leaves D own s { s with plane := step P s.plane c } := by
  obtain ⟨ts, hsteps, -, -⟩ := foldl_steps (P := P) s.plane h.planeKeys [c]
  have hkept : Keys (step P s.plane c).db ∧ Frozen s.plane.db (step P s.plane c).db ∧
      SpecsKept s.plane.db (step P s.plane c).db := by
    refine hsteps.invariant (I := fun db => Keys db ∧ Frozen s.plane.db db ∧ SpecsKept s.plane.db db) ?_
      ⟨h.planeKeys, Frozen.refl h.planeKeys, specs_same h.planeKeys⟩
    intro t db db' he hi
    exact ⟨he.keys hi.1, hi.2.1.trans (he.frozen hi.1), SpecsKept.trans hi.2.2 (he.specs hi.1)⟩
  obtain ⟨-, hfrozen, hspecs⟩ := hkept
  refine ⟨{ h with reached := ?_, rows := ?_ }, ⟨⟨le_rfl, hfrozen, hspecs, ?_⟩, fun _ _ _ => ?_⟩⟩
  · obtain ⟨calls, hcalls⟩ := h.reached
    refine ⟨calls ++ [c], ?_⟩
    unfold runCalls at hcalls ⊢
    rw [List.foldl_append, ← hcalls]
    rfl
  · intro r hr
    exact (h.rows r hr).later hspecs hfrozen
  · exact RowsMove.refl h.ids fun _ => rfl
  · exact ClaimKept.of_same h rfl fun _ _ _ => rfl

theorem adapterOK_tick (h : AdapterOK P D S s) (now : Time) (own : Option String) :
    AdapterOK P D S { s with clock := max s.clock now } ∧ Leaves D own s { s with clock := max s.clock now } := by
  have hcommon := Common.refl h
  refine ⟨{ h with }, ⟨{ hcommon with clock := le_max_left _ _ }, fun _ _ _ => ?_⟩⟩
  exact ClaimKept.of_same h rfl fun _ _ _ => rfl

/-- **An edit by others** leaves the comments with a marker. -/
theorem adapterOK_foreign (h : AdapterOK P D S s) (e : ForeignEdit) (own : Option String) :
    AdapterOK P D S { s with comments := e.edit s.comments } ∧
      Leaves D own s { s with comments := e.edit s.comments } := by
  have hcommon := Common.refl h
  have hmanaged : ∀ i, managedComments D i (e.edit s.comments) = managedComments D i s.comments :=
    fun i => managed_of_marked (e.keeps s.comments)
  refine ⟨{ h with comments := e.distinct s.comments h.comments, marked := ?_, rows := ?_ },
    ⟨{ hcommon with }, fun _ _ _ => ?_⟩⟩
  · intro c hc hmarked
    have hmem : c ∈ (e.edit s.comments).filter Adapter.marked := List.mem_filter.2 ⟨hc, hmarked⟩
    rw [e.keeps] at hmem
    exact h.marked c (List.mem_filter.1 hmem).1 hmarked
  · intro r hr
    exact (h.rows r hr).sameComments (hmanaged r.identity)
  · exact ClaimKept.of_same h rfl fun r _ _ => hmanaged r.identity

/-- What a write of a row does to the claims of others. -/
structure ClaimMoves (own : Option String) (clock : Time) (r r' : GitHubValidationRequest) : Prop where
  held : ∀ token, own ≠ some token → r'.publicationClaimToken = some token →
    r.publicationClaimToken = some token ∧ r'.publicationClaimExpiresAt = r.publicationClaimExpiresAt
  live : ∀ token, own ≠ some token → r.publicationClaimToken = some token →
    ∀ d, r.publicationClaimExpiresAt = some d → clock < d → r'.publicationClaimToken = some token

/-- **A write of one row** keeps the invariant if the row is fine, and the claims of others if it moves none. -/
theorem adapterOK_put (h : AdapterOK P D S s) {r r' : GitHubValidationRequest} {own : Option String}
    (hr : r ∈ s.requests) (hid : r'.id = r.id) (hidentity : r'.identity = r.identity)
    (hrow : RowOK D S s.plane.db s.comments r') (hclaim : ClaimMoves own s.clock r r') :
    AdapterOK P D S { s with requests := put r' s.requests } ∧ Leaves D own s { s with requests := put r' s.requests } := by
  have hkey : key r = key r' := hid.symm
  have hcommon := Common.refl h
  refine ⟨{ h with ids := h.ids.put r', keys := ?_, orders := ?_, marked := ?_, rows := ?_ },
    ⟨{ hcommon with rows := ?_ }, fun n token hown => ⟨?_, ?_⟩⟩⟩
  · exact nodup_map_put h.ids hr hkey (congrArg RequestIdentity.idempotencyKey hidentity) h.keys
  · exact nodup_map_put h.ids hr hkey (congrArg RequestIdentity.workOrderId hidentity) h.orders
  · intro c hc hmarked
    obtain ⟨x, hx, hmarker⟩ := h.marked c hc hmarked
    by_cases hxr : x.id = r'.id
    · obtain rfl := h.eq_of_id hx hr (hxr.trans hid)
      refine ⟨r', mem_put_self hr hkey, ?_⟩
      rw [hidentity]
      exact hmarker
    · exact ⟨x, mem_put_of_ne hx hxr, hmarker⟩
  · intro x hx
    rcases of_mem_put hx with rfl | ⟨hx, -⟩
    · exact hrow
    · exact h.rows x hx
  · exact RowsMove.put (R := fun r r' => r'.identity = r.identity) h.ids (fun _ => rfl) hr hkey hidentity
  · intro x hx x' hx' hxn hx'n htoken
    rcases of_mem_put hx' with rfl | ⟨hx', -⟩
    · obtain rfl := h.eq_of_id hx hr (hxn.trans (hx'n.symm.trans hid))
      obtain ⟨htoken', hexpires⟩ := hclaim.held token hown htoken
      exact ⟨htoken', hexpires, rfl⟩
    · obtain rfl := h.eq_of_id hx hx' (hxn.trans hx'n.symm)
      exact ⟨htoken, rfl, rfl⟩
  · intro x hx x' hx' hxn hx'n htoken d hd hclock
    rcases of_mem_put hx' with rfl | ⟨hx', -⟩
    · obtain rfl := h.eq_of_id hx hr (hxn.trans (hx'n.symm.trans hid))
      exact hclaim.live token hown htoken d hd hclock
    · obtain rfl := h.eq_of_id hx hx' (hxn.trans hx'n.symm)
      exact htoken

/-- **A new comment** of the holder of the claim, on a request that has none. -/
theorem adapterOK_created (h : AdapterOK P D S s) {c : GitHubComment} {token : String}
    (hnew : ∀ x ∈ s.comments, x.commentId ≠ c.commentId)
    (hmarker : marked c = true → ∃ r ∈ s.requests,
      hasExactMarker c.body (commentMarker r.identity.idempotencyKey) = true)
    (hholder : ∀ r ∈ s.requests, isManaged D r.identity c = true → r.publicationClaimToken = some token ∧
      managedComments D r.identity s.comments = []) :
    AdapterOK P D S { s with comments := s.comments ++ [c] } ∧
      Leaves D (some token) s { s with comments := s.comments ++ [c] } := by
  have hcommon := Common.refl h
  have hother : ∀ r ∈ s.requests, r.publicationClaimToken ≠ some token →
      managedComments D r.identity (s.comments ++ [c]) = managedComments D r.identity s.comments := by
    intro r hr htoken
    rw [managed_append, if_neg, List.append_nil]
    intro hc
    exact htoken (hholder r hr hc).1
  refine ⟨{ h with comments := ?_, marked := ?_, rows := ?_ }, ⟨{ hcommon with }, fun n other hown => ⟨?_, ?_⟩⟩⟩
  · rw [List.map_append, List.map_singleton]
    refine List.Nodup.append h.comments (List.nodup_singleton _) ?_
    intro k hk hk'
    obtain ⟨x, hx, rfl⟩ := List.mem_map.1 hk
    exact hnew x hx (List.mem_singleton.1 hk')
  · intro x hx hmarked
    rcases List.mem_append.1 hx with hx | hx
    · exact h.marked x hx hmarked
    · obtain rfl := List.mem_singleton.1 hx
      exact hmarker hmarked
  · intro r hr
    cases hc : isManaged D r.identity c with
    | false =>
      refine (h.rows r hr).sameComments ?_
      rw [managed_append, hc, if_neg Bool.false_ne_true, List.append_nil]
    | true =>
      obtain ⟨htoken, hempty⟩ := hholder r hr hc
      refine (h.rows r hr).claimedComments (by rw [htoken]; rfl) ?_
      rw [managed_append, hc, hempty]
      exact le_rfl
  · intro r hr r' hr' hid hid' htoken
    obtain rfl := h.eq_of_id hr' hr (hid'.trans hid.symm)
    refine ⟨htoken, rfl, hother r' hr fun hsame => ?_⟩
    exact hown (hsame.symm.trans htoken)
  · intro r hr r' hr' hid hid' htoken _ _ _
    obtain rfl := h.eq_of_id hr' hr (hid'.trans hid.symm)
    exact htoken

/-- **A new body of a managed comment** by the holder of the claim. -/
theorem adapterOK_updated (h : AdapterOK P D S s) {c : GitHubComment} {r : GitHubValidationRequest} {token body : String}
    (hc : c ∈ s.comments) (hr : r ∈ s.requests) (htoken : r.publicationClaimToken = some token)
    (hmanaged : isManaged D r.identity c = true)
    (hbody : hasExactMarker body (commentMarker r.identity.idempotencyKey) = true) :
    AdapterOK P D S { s with comments := s.comments.map (withBody c.commentId body) } ∧
      Leaves D (some token) s { s with comments := s.comments.map (withBody c.commentId body) } := by
  have hcommon := Common.refl h
  have hself := managed_withBody h.comments hc hmanaged hbody
  have hother : ∀ x ∈ s.requests, x ≠ r → managedComments D x.identity (s.comments.map (withBody c.commentId body)) =
      managedComments D x.identity s.comments := by
    intro x hx hne
    refine managed_withBody_other h.comments hc hmanaged hbody fun hkey => ?_
    exact hne (h.eq_of_key hx hr hkey)
  refine ⟨{ h with comments := ?_, marked := ?_, rows := ?_ }, ⟨{ hcommon with }, fun n other hown => ⟨?_, ?_⟩⟩⟩
  · have hkept : (s.comments.map (withBody c.commentId body)).map GitHubComment.commentId =
        s.comments.map GitHubComment.commentId := by
      rw [List.map_map]
      exact List.map_congr_left fun x _ => withBody_id c.commentId body x
    rw [hkept]
    exact h.comments
  · intro x hx hmarked
    obtain ⟨y, hy, rfl⟩ := List.mem_map.1 hx
    by_cases hid : y.commentId = c.commentId
    · obtain rfl : y = c := List.inj_on_of_nodup_map h.comments hy hc hid
      rw [withBody_self]
      exact ⟨r, hr, hbody⟩
    · rw [withBody_of_ne hid] at hmarked ⊢
      exact h.marked y hy hmarked
  · intro x hx
    by_cases hxr : x = r
    · subst hxr
      refine (h.rows x hx).claimedComments (by rw [htoken]; rfl) ?_
      rw [hself, List.length_map]
      exact (h.rows x hx).single
    · exact (h.rows x hx).sameComments (hother x hx hxr)
  · intro x hx x' hx' hid hid' hheld
    obtain rfl := h.eq_of_id hx' hx (hid'.trans hid.symm)
    refine ⟨hheld, rfl, hother x' hx ?_⟩
    rintro rfl
    exact hown (htoken.symm.trans hheld)
  · intro x hx x' hx' hid hid' hheld _ _ _
    obtain rfl := h.eq_of_id hx' hx (hid'.trans hid.symm)
    exact hheld

/-- **A new row** that nobody has claimed, for a key and for an order that no row has. -/
theorem adapterOK_appended (h : AdapterOK P D S s) {r : GitHubValidationRequest} (own : Option String)
    (hid : r.id = nextId s.requests)
    (hkey : ∀ x ∈ s.requests, x.identity.idempotencyKey ≠ r.identity.idempotencyKey)
    (horder : ∀ x ∈ s.requests, x.identity.workOrderId ≠ r.identity.workOrderId)
    (hlinked : ∃ scope ∈ S, ∃ o, RequestLinked D s.plane.db r.identity scope o) (hpublished : r.isPublished = false) :
    AdapterOK P D S { s with requests := s.requests ++ [r] } ∧ Leaves D own s { s with requests := s.requests ++ [r] } := by
  have hcommon := Common.refl h
  have hfresh : ∀ x ∈ s.requests, key x ≠ key r := by
    intro x hx hsame
    have hlt : x.id < nextId s.requests := lt_nextId hx
    have hsame' : x.id = r.id := hsame
    omega
  have hnone : managedComments D r.identity s.comments = [] := by
    refine List.filter_eq_nil_iff.2 fun c hc hmanaged => ?_
    have hmarker := isManaged_marker hmanaged
    obtain ⟨x, hx, hmarker'⟩ := h.marked c hc (marked_of_marker hmarker)
    exact hkey x hx (marker_unique hmarker' hmarker)
  have hold : ∀ {x x' : GitHubValidationRequest}, x ∈ s.requests → x' ∈ s.requests ++ [r] → x'.id = x.id → x' = x := by
    intro x x' hx hx' hsame
    rcases List.mem_append.1 hx' with hx' | hx'
    · exact h.eq_of_id hx' hx hsame
    · obtain rfl := List.mem_singleton.1 hx'
      exact absurd hsame.symm (hfresh x hx)
  have hnodup : ∀ {β : Type} (f : GitHubValidationRequest → β), (s.requests.map f).Nodup →
      (∀ x ∈ s.requests, f x ≠ f r) → ((s.requests ++ [r]).map f).Nodup := by
    intro β f hf hne
    rw [List.map_append, List.map_singleton]
    refine List.Nodup.append hf (List.nodup_singleton _) ?_
    intro k hk hk'
    obtain ⟨x, hx, rfl⟩ := List.mem_map.1 hk
    exact hne x hx (List.mem_singleton.1 hk')
  refine ⟨{ h with ids := h.ids.append hfresh, keys := hnodup _ h.keys hkey, orders := hnodup _ h.orders horder
                   marked := ?_, rows := ?_ },
    ⟨{ hcommon with rows := ?_ }, fun n token hown => ⟨?_, ?_⟩⟩⟩
  · intro c hc hmarked
    obtain ⟨x, hx, hmarker⟩ := h.marked c hc hmarked
    exact ⟨x, List.mem_append_left _ hx, hmarker⟩
  · intro x hx
    rcases List.mem_append.1 hx with hx | hx
    · exact h.rows x hx
    · obtain rfl := List.mem_singleton.1 hx
      refine ⟨hlinked, ?_, fun hp => ?_⟩
      · rw [hnone]
        exact Nat.zero_le 1
      · rw [hpublished] at hp
        cases hp
  · exact RowsMove.append (R := fun x x' => x'.identity = x.identity) h.ids (fun _ => rfl) hfresh
  · intro x hx x' hx' hxn hx'n htoken
    obtain rfl := hold hx hx' (hx'n.trans hxn.symm)
    exact ⟨htoken, rfl, rfl⟩
  · intro x hx x' hx' hxn hx'n htoken _ _ _
    obtain rfl := hold hx hx' (hx'n.trans hxn.symm)
    exact htoken

/-! ## Reads -/

section reads

open Threads Raising

variable {I : AdapterState → Prop} {R G : AdapterState → AdapterState → Prop}

theorem getRequest_ensures {requestId : ℕ} {Q : Except AdapterException GitHubValidationRequest → AdapterState → Prop}
    (hG : ∀ s', I s' → G s' s')
    (hQ : ∀ s', I s' → R s s' → (∀ e, Q (.error e) s') ∧ ∀ r ∈ s'.requests, r.id = requestId → Q (.ok r) s') :
    Thread.Ensures I R G Q (getRequest requestId) s := by
  unfold getRequest
  refine ensures_observe_bind hG fun s' hi hr => ?_
  obtain ⟨herror, hok⟩ := hQ s' hi hr
  cases hfound : s'.requests.find? fun r => r.id == requestId with
  | none => exact ensures_raise (herror _)
  | some r =>
    have hid := List.find?_some hfound
    rw [beq_iff_eq] at hid
    exact ensures_pure (hok r (List.mem_of_find?_eq_some hfound) hid)

/-- What a status says of its order. -/
structure StatusOf (request : GitHubValidationRequest) (o : WorkOrder) (status : GitHubRequestStatus) : Prop where
  request : status.request = request
  reusePolicy : status.reusePolicy = o.spec.reusePolicy
  routingPolicy : status.routingPolicy = o.spec.routingPolicy
  maximumCostUnits : status.maximumCostUnits = o.spec.maximumCostUnits
  requiredQuotaUnits : status.requiredQuotaUnits = o.spec.requiredQuotaUnits
  preferredExecutor : status.preferredExecutor = o.spec.preferredExecutor

/-- The order of a status is that of the first of its reads; the other two come later. -/
theorem statusOf_ensures {request : GitHubValidationRequest} {reason : Option String}
    {Q : Except AdapterException GitHubRequestStatus → AdapterState → Prop} (hG : ∀ s', I s' → G s' s')
    (hQ : ∀ s₁, I s₁ → R s s₁ → (∀ e, Q (.error e) s₁) ∧ ∀ o ∈ s₁.plane.db.orders,
      o.id = request.identity.workOrderId → ∀ s₂, I s₂ → R s₁ s₂ → ∀ s₃, I s₃ → R s₂ s₃ →
        ∀ status, StatusOf request o status → Q (.ok status) s₃) :
    Thread.Ensures I R G Q (statusOf D request reason) s := by
  unfold statusOf
  refine ensures_observe_bind hG fun s₁ hi₁ hr₁ => ?_
  obtain ⟨herror, hok⟩ := hQ s₁ hi₁ hr₁
  refine ensures_ofOption_bind (fun _ => herror _) fun o ho => ?_
  obtain ⟨hmem, hid⟩ := getWorkOrder_some ho
  refine ensures_observe_bind hG fun s₂ hi₂ hr₂ => ?_
  refine ensures_observe_bind hG fun s₃ hi₃ hr₃ => ?_
  exact ensures_pure (hok o hmem hid s₂ hi₂ hr₂ s₃ hi₃ hr₃ _ ⟨rfl, rfl, rfl, rfl, rfl, rfl⟩)

end reads

end Adapter

end Switchboard
