import Switchboard.Proof.Adapter

/-!
# Publication under interference

What `publish` ensures of the database and of the comments, whatever other threads do between its accesses.

* `Held`, `Live`: what a publisher knows of the managed comments of its request: as long as its token is stored, and
  until its claim expires.
* `updateVerifiedComment_ensures`, `createManagedComment_ensures`, `upsertManagedComment_ensures`: if a comment comes
  back, it is the only managed one, with the body that was written.
* `terminalEvidence_ensures`: the evidence is that of the order of the request.
* `publish_ensures`: every access keeps `AdapterOK` and leaves the claims of other tokens.
-/

namespace Switchboard

open Table Transaction

namespace Adapter

open Threads Raising

variable {P : Platform} {D : GitHubDeployment} {S : Set RequestScope} {host : PublishHost} {request : GitHubValidationRequest}
  {s s' : AdapterState} {φ ψ : List GitHubComment → Prop}

/-! ## Claim statements -/

theorem adapterOK_acquire (h : AdapterOK P D S s) (requestId : ℕ) (token : String) {now : Time} (expiresAt : Time)
    (hnow : now ≤ s.clock) :
    AdapterOK P D S { s with requests := (acquirePublicationClaim requestId token now expiresAt s.requests).2 } ∧
      Leaves D (some token) s
        { s with requests := (acquirePublicationClaim requestId token now expiresAt s.requests).2 } := by
  rcases acquire_cases h.ids requestId token now expiresAt with ⟨heq, -⟩ | ⟨r, hr, -, hclaimable, heq⟩
  · rw [heq]
    exact ⟨h, Leaves.refl h _⟩
  · rw [heq]
    refine adapterOK_put h hr rfl rfl ((h.rows r hr).claimed token now expiresAt) ⟨?_, ?_⟩
    · intro other hother htoken
      exact absurd htoken hother
    · -- the claim of another token has expired
      intro other _ htoken d hd hclock
      simp only [claimable, htoken, hd, Option.isNone_some, Bool.false_or, Option.any_some, decide_eq_true_eq]
        at hclaimable
      exact absurd hclock (not_lt.2 (hclaimable.trans hnow))

theorem adapterOK_renew (h : AdapterOK P D S s) (requestId : ℕ) (token : String) (now expiresAt : Time) :
    AdapterOK P D S { s with requests := (renewPublicationClaim requestId token now expiresAt s.requests).2 } ∧
      Leaves D (some token) s
        { s with requests := (renewPublicationClaim requestId token now expiresAt s.requests).2 } := by
  rcases renew_cases h.ids requestId token now expiresAt with heq | ⟨r, hr, -, htoken, -, heq⟩
  · rw [heq]
    exact ⟨h, Leaves.refl h _⟩
  · rw [heq]
    refine adapterOK_put h hr rfl rfl ((h.rows r hr).renewed (by rw [htoken]; rfl) expiresAt) ⟨?_, ?_⟩
    · intro other hother hheld
      exact absurd (htoken.symm.trans hheld) hother
    · intro other _ hheld _ _ _
      exact hheld

/-- A result may be stored if it does not publish, or if it is true and the comment shows it. -/
theorem adapterOK_finalize (h : AdapterOK P D S s) (requestId : ℕ) (token : String) (values : PublicationValues)
    (hvalues : ∀ r ∈ s.requests, r.id = requestId → r.publicationClaimToken = some token →
      (r.published values).isPublished = true → ∃ run e, PublicationTruthful s.plane.db (r.published values) run e ∧
        CommentShows D (r.published values) run e s.comments) :
    AdapterOK P D S { s with requests := (finalizePublicationClaim requestId token values s.requests).2 } ∧
      Leaves D (some token) s { s with requests := (finalizePublicationClaim requestId token values s.requests).2 } := by
  rcases finalize_cases h.ids requestId token values with ⟨heq, -⟩ | ⟨r, hr, hid, htoken, heq⟩
  · rw [heq]
    exact ⟨h, Leaves.refl h _⟩
  · rw [heq]
    refine adapterOK_put h hr rfl rfl ((h.rows r hr).released values (hvalues r hr hid htoken)) ⟨?_, ?_⟩
    · intro other _ hheld
      cases hheld
    · intro other hother hheld _ _ _
      exact absurd (htoken.symm.trans hheld) hother

/-! ## What a publisher knows -/

/-- What a publisher relies on. -/
structure Relies (D : GitHubDeployment) (requestId : ℕ) (token : String) (s s' : AdapterState) : Prop where
  common : Common s s'
  claim : ClaimKept D requestId token s s'

/-- What a part of a publication ensures. -/
abbrev Publishes (P : Platform) (D : GitHubDeployment) (S : Set RequestScope) (host : PublishHost)
    (request : GitHubValidationRequest) {α : Type} (Q : Except AdapterException α → AdapterState → Prop) (x : Publisher α) (s : AdapterState) : Prop :=
  Thread.Ensures (AdapterOK P D S) (Relies D request.id host.token) (Leaves D (some host.token)) Q x s

/-- As long as the token is stored, the managed comments of the request satisfy `φ`. -/
def Held (D : GitHubDeployment) (request : GitHubValidationRequest) (token : String)
    (φ : List GitHubComment → Prop) (s : AdapterState) : Prop :=
  ∃ r ∈ s.requests, r.id = request.id ∧ r.identity = request.identity ∧
    (r.publicationClaimToken = some token → φ (managedComments D request.identity s.comments))

/-- Until `deadline` the token is stored, and the managed comments of the request satisfy `φ`. -/
def Live (D : GitHubDeployment) (request : GitHubValidationRequest) (token : String)
    (φ : List GitHubComment → Prop) (deadline : Time) (s : AdapterState) : Prop :=
  ∃ r ∈ s.requests, r.id = request.id ∧ r.identity = request.identity ∧
    (s.clock < deadline → r.publicationClaimToken = some token ∧ r.publicationClaimExpiresAt = some deadline ∧
      φ (managedComments D request.identity s.comments))

theorem Held.mono {token : String} (h : Held D request token φ s) (hφ : ∀ l, φ l → ψ l) :
    Held D request token ψ s := by
  obtain ⟨r, hr, hid, hidentity, hheld⟩ := h
  exact ⟨r, hr, hid, hidentity, fun htoken => hφ _ (hheld htoken)⟩

/-- What is known stays true while others move. -/
theorem Held.later {token : String} (h : Held D request token φ s) (hr : Relies D request.id token s s') :
    Held D request token φ s' := by
  obtain ⟨r, hmem, hid, hidentity, hheld⟩ := h
  obtain ⟨r', hmem', hid', hidentity'⟩ := hr.common.row hmem
  refine ⟨r', hmem', hid'.trans hid, hidentity'.trans hidentity, fun htoken => ?_⟩
  obtain ⟨hbefore, -, hsame⟩ := hr.claim.held r hmem r' hmem' hid (hid'.trans hid) htoken
  rw [hidentity] at hsame
  rw [hsame]
  exact hheld hbefore

theorem Live.later {token : String} {deadline : Time} (h : Live D request token φ deadline s)
    (hr : Relies D request.id token s s') : Live D request token φ deadline s' := by
  obtain ⟨r, hmem, hid, hidentity, hlive⟩ := h
  obtain ⟨r', hmem', hid', hidentity'⟩ := hr.common.row hmem
  refine ⟨r', hmem', hid'.trans hid, hidentity'.trans hidentity, fun hclock => ?_⟩
  obtain ⟨htoken, hexpires, hφ⟩ := hlive (lt_of_le_of_lt hr.common.clock hclock)
  have htoken' := hr.claim.live r hmem r' hmem' hid (hid'.trans hid) htoken deadline hexpires hclock
  obtain ⟨-, hexpires', hsame⟩ := hr.claim.held r hmem r' hmem' hid (hid'.trans hid) htoken'
  rw [hidentity] at hsame
  rw [hsame]
  exact ⟨htoken', hexpires'.trans hexpires, hφ⟩

theorem Live.held {token : String} {deadline : Time} (h : Live D request token φ deadline s) :
    Held D request token (fun _ => True) s := by
  obtain ⟨r, hmem, hid, hidentity, -⟩ := h
  exact ⟨r, hmem, hid, hidentity, fun _ => trivial⟩

/-- The only managed comment of the request has this id and this body. -/
def OnlyComment (commentId : ℕ) (body : String) (comments : List GitHubComment) : Prop :=
  ∃ c, comments = [c] ∧ c.commentId = commentId ∧ c.body = body

/-! ## Comments -/

/-- **After a renewal** what is held is so until the new deadline. -/
theorem renewClaimForWrite_ensures (h : Held D request host.token φ s) :
    Publishes P D S host request
      (fun result s' => Held D request host.token φ s' ∧
        ∀ d, result = .ok d → Live D request host.token φ d s')
      (renewClaimForWrite host request) s := by
  unfold renewClaimForWrite claimStatement
  refine ensures_observe_bind (fun _ hi => Leaves.refl hi _) fun s₁ _ hr₁ => ?_
  refine ensures_access_bind fun s₂ hi₂ hr₂ => ?_
  have hkept := adapterOK_renew hi₂ request.id host.token s₁.clock (s₁.clock + publicationClaimTtl)
  have hheld := (h.later hr₁).later hr₂
  refine ⟨hkept.1, hkept.2, ?_⟩
  rcases renew_cases hi₂.ids request.id host.token s₁.clock (s₁.clock + publicationClaimTtl) with heq |
    ⟨r, hr, hid, htoken, -, heq⟩
  · rw [heq]
    exact ensures_demand_bind (fun _ => ⟨hheld, fun d hd => by cases hd⟩) fun hfalse => by cases hfalse
  · -- the row that was renewed is that of the request
    obtain ⟨x, hx, hxid, hidentity, hφ⟩ := hheld
    obtain rfl := hi₂.eq_of_id hx hr (hxid.trans hid.symm)
    rw [heq]
    refine ensures_demand_bind (fun hfalse => by cases hfalse) fun _ => ensures_pure ⟨?_, fun d hd => ?_⟩
    · exact ⟨_, mem_put_self hr rfl, hid, hidentity, hφ⟩
    · obtain rfl := Except.ok.inj hd
      exact ⟨_, mem_put_self hr rfl, hid, hidentity, fun _ => ⟨htoken, rfl, hφ htoken⟩⟩

theorem getComment_ensures {Q : Except AdapterException GitHubComment → AdapterState → Prop}
    (failure : Option AdapterException) (name : String) (commentId : ℕ) (hs : ∀ e, Q (.error e) s)
    (hQ : ∀ s', AdapterOK P D S s' → Relies D request.id host.token s s' → (∀ e, Q (.error e) s') ∧
      ∀ c ∈ s'.comments, c.commentId = commentId → Q (.ok c) s') :
    Publishes P D S host request Q (getComment D failure name commentId) s := by
  unfold getComment
  refine ensures_demand_bind (fun _ => hs _) fun _ => ?_
  refine ensures_ofExcept_bind (fun e _ => hs e) fun _ _ => ?_
  refine ensures_observe_bind (fun _ hi => Leaves.refl hi _) fun s' hi hr => ?_
  obtain ⟨herror, hok⟩ := hQ s' hi hr
  cases failure with
  | some e => exact herror e
  | none =>
    cases hfound : s'.comments.find? fun c =>
        c.commentId == commentId && D.casefold c.repositoryFullName == D.casefold name with
    | none => exact herror _
    | some c =>
      have hid := List.find?_some hfound
      rw [Bool.and_eq_true, beq_iff_eq] at hid
      exact hok c (List.mem_of_find?_eq_some hfound) hid.1

theorem listComments_ensures {Q : Except AdapterException CommentListing → AdapterState → Prop}
    (fate : ListingFate) (name : String) (number : ℤ) (hs : ∀ e, Q (.error e) s)
    (hQ : ∀ s', AdapterOK P D S s' → Relies D request.id host.token s s' → (∀ e, Q (.error e) s') ∧
      ∀ listing : CommentListing,
        (listing.complete = true → listing.comments = s'.comments.filter (onPullRequest D name number)) →
          Q (.ok listing) s') :
    Publishes P D S host request Q (listComments D fate name number) s := by
  unfold listComments
  refine ensures_ofExcept_bind (fun e _ => hs e) fun _ _ => ?_
  refine ensures_observe_bind (fun _ hi => Leaves.refl hi _) fun s' hi hr => ?_
  obtain ⟨herror, hok⟩ := hQ s' hi hr
  cases fate with
  | failed e => exact herror e
  | incomplete newest => exact hok ⟨newest, false⟩ (fun h => by cases h)
  | complete => exact hok ⟨_, true⟩ fun _ => rfl

/-- The owned comments of a complete listing are the managed ones. -/
theorem owned_listing {actor : GitHubActorIdentity} (hactor : sameActorIdentity request actor = true)
    (comments : List GitHubComment) :
    (comments.filter (onPullRequest D request.identity.repositoryFullName request.identity.pullRequestNumber)).filter
        (fun c => isOwnedManagedComment D c actor request (commentMarker request.identity.idempotencyKey) none) =
      managedComments D request.identity comments := by
  unfold managedComments
  rw [List.filter_filter]
  refine List.filter_congr fun c _ => ?_
  rw [isOwned_eq hactor, Option.all_none, Bool.and_true]
  unfold isManaged
  cases onPullRequest D request.identity.repositoryFullName request.identity.pullRequestNumber c
  · rw [Bool.and_false, Bool.and_false, Bool.false_and]
  · rw [Bool.and_true]

/-- **If the recovery finds no comment, there is none** as long as the claim is held. -/
theorem uniqueOwnedRecoveryCandidate_ensures {fate : ListingFate} {actor : GitHubActorIdentity}
    (hactor : sameActorIdentity request actor = true) (h : Held D request host.token φ s) :
    Publishes P D S host request
      (fun result s' => Held D request host.token φ s' ∧
        (result = .ok none → Held D request host.token (fun l => l = []) s'))
      (uniqueOwnedRecoveryCandidate D request fate actor (commentMarker request.identity.idempotencyKey)) s := by
  unfold uniqueOwnedRecoveryCandidate
  refine ensures_bind (listComments_ensures _ _ _ (fun e => ?_) fun s' _ hr => ⟨fun e => ?_, fun listing hcomplete => ?_⟩)
  · exact ensures_raise ⟨h, fun he => by cases he⟩
  · exact ensures_raise ⟨h.later hr, fun he => by cases he⟩
  · have hheld := h.later hr
    refine ensures_demand_bind (fun _ => ⟨hheld, fun he => by cases he⟩) fun _ => ?_
    refine ensures_demand_bind (fun _ => ⟨hheld, fun he => by cases he⟩) fun hall => ?_
    refine ensures_pure ⟨hheld, fun hnone => ?_⟩
    have hempty := List.head?_eq_none_iff.1 (Except.ok.inj hnone)
    rw [hcomplete hall, owned_listing hactor] at hempty
    obtain ⟨r, hmem, hid, hidentity, -⟩ := hheld
    exact ⟨r, hmem, hid, hidentity, fun _ => hempty⟩

theorem freshCommentId_gt {comments : List GitHubComment} {c : GitHubComment} (h : c ∈ comments) :
    c.commentId < freshCommentId comments := by
  unfold freshCommentId
  induction comments with
  | nil => cases h
  | cons x comments ih =>
    rw [List.map_cons, List.foldr_cons]
    rcases List.mem_cons.1 h with rfl | h
    · omega
    · have := ih h
      omega

/-- If a comment came back, it is the only managed one, with this body. -/
def Upserted (D : GitHubDeployment) (request : GitHubValidationRequest) (token body : String)
    (result : Except AdapterException GitHubComment) (s : AdapterState) : Prop :=
  Held D request token (fun _ => True) s ∧
    ∀ c, result = .ok c → Held D request token (OnlyComment c.commentId body) s

theorem upserted_error {token body : String} {e : AdapterException} (h : Held D request token (fun _ => True) s) :
    Upserted D request token body (.error e) s := by
  refine ⟨h, fun c hc => ?_⟩
  cases hc

/-- **A created comment**, if it is managed, is the only managed one. -/
theorem createComment_ensures {deadline : Time} {number : ℤ} {name body : String}
    (hbody : hasExactMarker body (commentMarker request.identity.idempotencyKey) = true)
    (h : Live D request host.token (fun l => l = []) deadline s) :
    Publishes P D S host request
      (fun result s' => Held D request host.token (fun _ => True) s' ∧ ∀ c, result = .ok c →
        isManaged D request.identity c = true → Held D request host.token (OnlyComment c.commentId body) s')
      (createComment host.creation host.author deadline name number body) s := by
  unfold createComment
  refine ensures_demand_bind (fun _ => ⟨h.held, fun c hc => by cases hc⟩) fun _ => ?_
  refine ensures_ofExcept_bind (fun _ _ => ⟨h.held, fun c hc => by cases hc⟩) fun _ _ => ?_
  refine ensures_attempt fun s' hi hr => ?_
  have hlive := h.later hr
  by_cases hwrites : (host.creation.reaches && decide (s'.clock < deadline)) = true
  · simp only [if_pos hwrites]
    rw [Bool.and_eq_true, decide_eq_true_eq] at hwrites
    obtain ⟨r, hmem, hid, hidentity, hclaim⟩ := hlive
    obtain ⟨htoken, -, hempty⟩ := hclaim hwrites.2
    generalize hc : GitHubComment.mk (freshCommentId s'.comments) body host.author name number = c
    have hcbody : c.body = body := by rw [← hc]
    have hnew : ∀ x ∈ s'.comments, x.commentId ≠ c.commentId := by
      intro x hx hsame
      have hlt := freshCommentId_gt hx
      rw [hsame, ← hc] at hlt
      exact lt_irrefl _ hlt
    have hholder : ∀ x ∈ s'.requests, isManaged D x.identity c = true →
        x.publicationClaimToken = some host.token ∧ managedComments D x.identity s'.comments = [] := by
      intro x hx hmanaged
      have hkey := marker_unique (isManaged_marker hmanaged) (by rw [hcbody]; exact hbody)
      obtain rfl := hi.eq_of_key hx hmem (hkey.trans (congrArg RequestIdentity.idempotencyKey hidentity).symm)
      rw [hidentity]
      exact ⟨htoken, hempty⟩
    have hkept := adapterOK_created hi hnew
      (fun _ => ⟨r, hmem, by rw [hcbody, hidentity]; exact hbody⟩) hholder
    refine ⟨hkept.1, hkept.2, ⟨r, hmem, hid, hidentity, fun _ => trivial⟩, fun c' hc' hmanaged => ?_⟩
    cases hfailure : host.creation.failure with
    | some e =>
      rw [hfailure] at hc'
      cases hc'
    | none =>
      rw [hfailure] at hc'
      obtain rfl := Except.ok.inj hc'
      refine ⟨r, hmem, hid, hidentity, fun _ => ⟨c, ?_, rfl, hcbody⟩⟩
      rw [managed_append, hmanaged, hempty]
      rfl
  · simp only [if_neg hwrites]
    exact ⟨hi, Leaves.refl hi _, hlive.held, fun c hc => by cases hc⟩

/-- **An updated comment** that is managed is the only managed one, with the new body. -/
theorem updateComment_ensures {deadline : Time} {commentId : ℕ} {body : String}
    (hbody : hasExactMarker body (commentMarker request.identity.idempotencyKey) = true)
    (h : Live D request host.token (fun l => ∃ c ∈ l, c.commentId = commentId) deadline s) :
    Publishes P D S host request (Upserted D request host.token body)
      (updateComment host.update deadline commentId body) s := by
  unfold updateComment
  refine ensures_demand_bind (fun _ => upserted_error h.held) fun _ => ?_
  refine ensures_demand_bind (fun _ => upserted_error h.held) fun _ => ?_
  refine ensures_attempt fun s' hi hr => ?_
  by_cases hwrites : (host.update.reaches && decide (s'.clock < deadline)) = true
  · simp only [if_pos hwrites]
    rw [Bool.and_eq_true, decide_eq_true_eq] at hwrites
    obtain ⟨r, hmem, hid, hidentity, hclaim⟩ := h.later hr
    obtain ⟨htoken, -, c, hc, rfl⟩ := hclaim hwrites.2
    obtain ⟨hcmem, hmanaged⟩ := List.mem_filter.1 hc
    have hself := managed_withBody hi.comments hcmem hmanaged hbody
    rw [← hidentity] at hmanaged hbody
    have hkept := adapterOK_updated hi hcmem hmem htoken hmanaged hbody
    refine ⟨hkept.1, hkept.2, ⟨r, hmem, hid, hidentity, fun _ => trivial⟩, fun c' hc' => ?_⟩
    refine ⟨r, hmem, hid, hidentity, fun _ => ?_⟩
    have hone : managedComments D request.identity s'.comments = [c] := by
      have hsingle := (hi.rows r hmem).single
      rw [hidentity] at hsingle
      obtain ⟨x, hx⟩ := List.length_eq_one_iff.1 (le_antisymm hsingle (List.length_pos_of_mem hc))
      rw [hx] at hc ⊢
      rw [List.mem_singleton.1 hc]
    refine ⟨withBody c.commentId body c, ?_, ?_, ?_⟩
    · rw [hself, hone, List.map_singleton]
    · -- the comment that is returned has the id that was asked for
      rw [withBody_id]
      cases hfailure : host.update.failure with
      | some e =>
        rw [hfailure] at hc'
        cases hc'
      | none =>
        rw [hfailure] at hc'
        cases hfound : s'.comments.find? fun x => x.commentId == c.commentId with
        | none =>
          rw [hfound] at hc'
          cases hc'
        | some x =>
          rw [hfound] at hc'
          have hx := List.find?_some hfound
          rw [beq_iff_eq] at hx
          rw [← Except.ok.inj hc', withBody_id, hx]
    · rw [withBody_self]
  · simp only [if_neg hwrites]
    exact ⟨hi, Leaves.refl hi _, upserted_error (h.later hr).held⟩

section upsert

variable {actor : GitHubActorIdentity} {body : String} (hactor : sameActorIdentity request actor = true)
  (hbody : hasExactMarker body (commentMarker request.identity.idempotencyKey) = true)

include hactor hbody

/-- **A comment that is still owned** gets the body. -/
theorem updateVerifiedComment_ensures (c : GitHubComment) (h : Held D request host.token (fun _ => True) s) :
    Publishes P D S host request (Upserted D request host.token body)
      (updateVerifiedComment D host request actor c (commentMarker request.identity.idempotencyKey) body) s := by
  unfold updateVerifiedComment
  refine ensures_bind (getComment_ensures _ _ _ (fun e => upserted_error h) fun s₁ hi₁ hr₁ =>
    ⟨fun e => upserted_error (h.later hr₁), fun verified hmem hid => ?_⟩)
  have h₁ := h.later hr₁
  refine ensures_demand_bind (fun _ => upserted_error h₁) fun howned => ?_
  rw [isOwned_eq hactor, Bool.and_eq_true] at howned
  have hpresent : Held D request host.token (fun l => ∃ x ∈ l, x.commentId = c.commentId) s₁ := by
    obtain ⟨r, hr, hrid, hidentity, -⟩ := h₁
    exact ⟨r, hr, hrid, hidentity, fun _ => ⟨verified, List.mem_filter.2 ⟨hmem, howned.1⟩, hid⟩⟩
  refine ensures_bind ((renewClaimForWrite_ensures hpresent).mono fun deadline s₂ hrenewed => ?_)
  cases deadline with
  | error e => exact ensures_raise (upserted_error (hrenewed.1.mono fun _ _ => trivial))
  | ok deadline =>
    refine ensures_bind ((updateComment_ensures hbody (hrenewed.2 deadline rfl)).mono fun updated s₃ hupdated => ?_)
    cases updated with
    | error e => exact ensures_raise hupdated
    | ok updated => exact ensures_demand_bind (fun _ => upserted_error hupdated.1) fun _ => ensures_pure hupdated

omit hactor hbody in
theorem persistedComment_ensures (marker : String) (h : Held D request host.token (fun _ => True) s) :
    Publishes P D S host request (fun _ s' => Held D request host.token (fun _ => True) s')
      (persistedComment D host request actor marker) s := by
  unfold persistedComment
  cases request.managedCommentId with
  | none => exact ensures_pure h
  | some commentId =>
    refine ensures_caught_bind ((getComment_ensures (Q := fun _ s' => Held D request host.token (fun _ => True) s')
      host.persisted request.identity.repositoryFullName commentId (fun _ => h) fun s' _ hr =>
        ⟨fun _ => h.later hr, fun _ _ _ => h.later hr⟩).mono fun persisted s' h' => ?_)
    cases persisted with
    | ok c => exact ensures_pure h'
    | error e =>
      cases e with
      | adapter kind reason =>
        dsimp only
        split
        · exact ensures_pure h'
        · exact ensures_raise h'
      | valueError => exact ensures_raise h'
      | execution e => exact ensures_raise h'
      | other => exact ensures_raise h'

/-- **A comment is created** only while there is none. -/
theorem createManagedComment_ensures (h : Held D request host.token (fun l => l = []) s) :
    Publishes P D S host request (Upserted D request host.token body)
      (createManagedComment D host request actor (commentMarker request.identity.idempotencyKey) body) s := by
  unfold createManagedComment
  refine ensures_bind ((renewClaimForWrite_ensures h).mono fun deadline s₁ hrenewed => ?_)
  cases deadline with
  | error e => exact ensures_raise (upserted_error (hrenewed.1.mono fun _ _ => trivial))
  | ok deadline =>
    refine ensures_caught_bind ((createComment_ensures hbody (hrenewed.2 deadline rfl)).mono fun created s₂ hcreated => ?_)
    obtain ⟨hheld, honly⟩ := hcreated
    cases created with
    | ok c =>
      refine ensures_demand_bind (fun _ => upserted_error hheld) fun howned => ensures_pure ⟨hheld, fun c' hc' => ?_⟩
      obtain rfl := Except.ok.inj hc'
      rw [isOwned_eq hactor, Option.all_none, Bool.and_true] at howned
      exact honly c rfl howned
    | error e =>
      cases e with
      | adapter kind reason =>
        cases kind with
        | ambiguousWrite =>
          -- the comment may have been created all the same
          refine ensures_bind ((uniqueOwnedRecoveryCandidate_ensures hactor hheld).mono fun found s₃ hfound => ?_)
          cases found with
          | error e => exact ensures_raise (upserted_error hfound.1)
          | ok found =>
            cases found with
            | none => exact ensures_raise (upserted_error hfound.1)
            | some c => exact updateVerifiedComment_ensures hactor hbody c hfound.1
        | requestNotFound => exact ensures_raise (upserted_error hheld)
        | repositoryNotAllowed => exact ensures_raise (upserted_error hheld)
        | manifest => exact ensures_raise (upserted_error hheld)
        | transport => exact ensures_raise (upserted_error hheld)
        | rateLimited => exact ensures_raise (upserted_error hheld)
        | terminalEvidenceRequired => exact ensures_raise (upserted_error hheld)
      | valueError => exact ensures_raise (upserted_error hheld)
      | execution e => exact ensures_raise (upserted_error hheld)
      | other => exact ensures_raise (upserted_error hheld)

end upsert

/-- **The comment of the request is updated or created.** -/
theorem upsertManagedComment_ensures {actor : GitHubActorIdentity} {body : String}
    (hbody : hasExactMarker body (commentMarker request.identity.idempotencyKey) = true)
    (h : Held D request host.token (fun _ => True) s) :
    Publishes P D S host request (Upserted D request host.token body) (upsertManagedComment D host request actor body)
      s := by
  unfold upsertManagedComment
  refine ensures_ofExcept_bind (fun e _ => upserted_error h) fun marker hmarker => ?_
  obtain rfl : marker = commentMarker request.identity.idempotencyKey := by
    have hvalid := mapError_ok hmarker
    unfold managedCommentMarker at hvalid
    simp only [except_bind_ok, ensure_ok, except_pure_ok] at hvalid
    obtain ⟨_, -, rfl⟩ := hvalid
    rfl
  refine ensures_demand_bind (fun _ => upserted_error h) fun hactor => ?_
  refine ensures_bind ((persistedComment_ensures _ h).mono fun persisted s₁ h₁ => ?_)
  cases persisted with
  | error e => exact ensures_raise (upserted_error h₁)
  | ok persisted =>
    cases persisted with
    | some c => exact updateVerifiedComment_ensures hactor hbody c h₁
    | none =>
      refine ensures_bind ((uniqueOwnedRecoveryCandidate_ensures hactor h₁).mono fun found s₂ hfound => ?_)
      cases found with
      | error e => exact ensures_raise (upserted_error hfound.1)
      | ok found =>
        cases found with
        | some c => exact updateVerifiedComment_ensures hactor hbody c hfound.1
        | none => exact createManagedComment_ensures hactor hbody (hfound.2 rfl)

/-! ## Evidence -/

/-- **Evidence that is read** for a run of the order is that of the request. -/
theorem evidenceOf_read (h : AdapterOK P D S s) {r : GitHubValidationRequest} (hr : r ∈ s.requests)
    {run : ExecutionRun} {e : ExecutionEvidence} (hrun : run ∈ s.plane.db.runs)
    (horder : run.workOrderId = r.identity.workOrderId) (hended : run.status.isTerminal = true)
    (hread : runEvidence D run.id s = some e) : EvidenceOf s.plane.db r.identity run e := by
  have hevidence : run.evidenceMetadata = some e := by
    unfold runEvidence at hread
    split at hread
    · cases hread
    · obtain ⟨x, hx, hevidence⟩ := Option.bind_eq_some_iff.1 hread
      obtain ⟨hmem, hid⟩ := getRun_some hx
      obtain rfl := h.planeKeys.runs.unique.eq_of_key hmem hrun hid
      exact hevidence
  obtain ⟨scope, -, o, hlinked⟩ := (h.rows r hr).linked
  have hbound : ∃ o ∈ s.plane.db.orders, o.id = run.workOrderId ∧ EvidenceBinds e run o := by
    obtain ⟨calls, hcalls⟩ := h.reached
    have hok := runCalls_evidenceOK P calls
    rw [← hcalls] at hok
    exact hok.bound run hrun e hevidence
  obtain ⟨o', ho', hid', hbinds⟩ := hbound
  obtain rfl := h.planeKeys.orders.unique.eq_of_key ho' hlinked.order (hid'.trans (horder.trans hlinked.orderId.symm))
  exact { stored := hrun, order := horder, ended := hended, evidence := hevidence
          sha := hbinds.commit.trans hlinked.orderCommit
          repository := hbinds.repository.trans hlinked.orderRepository
          manifestName := hbinds.manifestName.trans hlinked.orderManifestName
          manifestVersion := hbinds.manifestVersion.trans hlinked.orderManifestVersion
          manifestDigest := hbinds.manifestDigest.trans hlinked.orderManifestDigest }

/-- The evidence that a publication found. -/
def Found (D : GitHubDeployment) (request : GitHubValidationRequest) (run : ExecutionRun) (evidence : EvidenceDocument)
    (s : AdapterState) : Prop :=
  ∃ e, EvidenceOf s.plane.db request.identity run e ∧ evidence = { e with parsedResults := D.parsedResults run.id }

theorem Found.later {run : ExecutionRun} {evidence : EvidenceDocument} (h : Found D request run evidence s)
    (hc : Common s s') : Found D request run evidence s' := by
  obtain ⟨e, he, hdocument⟩ := h
  exact ⟨e, evidenceOf_frozen he hc.frozen, hdocument⟩

/-- **The newest readable evidence** of the runs is evidence of the request. -/
theorem terminalEvidence_ensures {runs : List ExecutionRun}
    (hruns : ∀ run ∈ runs, run.workOrderId = request.identity.workOrderId ∧
      (run.status.isTerminal = true → run ∈ s.plane.db.runs))
    (h : Held D request host.token φ s) :
    Publishes P D S host request
      (fun result s' => Held D request host.token φ s' ∧ ∀ x, result = .ok x → Found D request x.1 x.2 s')
      (terminalEvidence D runs) s := by
  induction runs generalizing s with
  | nil => exact ensures_raise ⟨h, fun x hx => by cases hx⟩
  | cons run older ih =>
    have hrest := List.forall_mem_cons.1 hruns
    rw [terminalEvidence]
    split
    · rename_i hended
      refine ensures_observe_bind (fun _ hi => Leaves.refl hi _) fun s' hi hr => ?_
      have hstored : run ∈ s'.plane.db.runs := hr.common.frozen.run_mem (hrest.1.2 hended) hended
      have h' := h.later hr
      cases hread : runEvidence D run.id s' with
      | none =>
        refine ih (fun x hx => ⟨(hrest.2 x hx).1, fun hx' => ?_⟩) h'
        exact hr.common.frozen.run_mem ((hrest.2 x hx).2 hx') hx'
      | some e =>
        refine ensures_pure ⟨h', fun x hx => ?_⟩
        obtain rfl := Except.ok.inj hx
        obtain ⟨r, hmem, -, hidentity, -⟩ := h'
        have hof := evidenceOf_read hi hmem hstored (by rw [hidentity]; exact hrest.1.1) hended hread
        rw [hidentity] at hof
        exact ⟨e, hof, rfl⟩
    · exact ih hrest.2 h

/-! ## Results -/

theorem publishedComment_identity {r r' : GitHubValidationRequest} (h : r'.identity = r.identity)
    (evidence : EvidenceDocument) (head : Option String) :
    publishedComment r' evidence head = publishedComment r evidence head := by
  unfold publishedComment renderManagedComment managedCommentLines identityLines
  rw [h]

theorem decisionOf_current (requested : String) (resolved : Option String) :
    decisionOf (headDecision requested resolved).1 = .current ↔ resolved = some requested := by
  cases resolved with
  | none =>
    constructor
    · intro h
      cases h
    · intro h
      cases h
  | some head =>
    unfold headDecision
    by_cases hsame : head = requested
    · simp only [hsame]
      exact iff_of_true rfl trivial
    · simp only [Option.some.injEq, hsame]
      refine iff_of_false (fun h => ?_) id
      cases h

theorem decisionOf_cases (text : String) : decisionOf text = .current ∨ decisionOf text = .stale := by
  unfold decisionOf
  split
  · exact .inl rfl
  · exact .inr rfl

/-- Nothing is required of a part that has ended. -/
abbrev Unspecified {α : Type} (_ : Except AdapterException α) (_ : AdapterState) : Prop := True

theorem statusOf_safe {r : GitHubValidationRequest} {reason : Option String} :
    Publishes P D S host request Unspecified (statusOf D r reason) s :=
  statusOf_ensures (fun _ hi => Leaves.refl hi _) fun _ _ _ =>
    ⟨fun _ => trivial, fun _ _ _ _ _ _ _ _ _ _ _ => trivial⟩

/-- **A result is stored** if it does not publish, or if it is true of the state that it is stored in. -/
theorem finalizeClaim_ensures {values : PublicationValues}
    (hvalues : ∀ s', AdapterOK P D S s' → Relies D request.id host.token s s' → ∀ r ∈ s'.requests, r.id = request.id →
      r.publicationClaimToken = some host.token → (r.published values).isPublished = true →
        ∃ run e, PublicationTruthful s'.plane.db (r.published values) run e ∧
          CommentShows D (r.published values) run e s'.comments) :
    Publishes P D S host request Unspecified (finalizeClaim D host request values) s := by
  unfold finalizeClaim claimStatement
  refine ensures_access_bind fun s' hi hr => ?_
  have hkept := adapterOK_finalize hi request.id host.token values (hvalues s' hi hr)
  refine ⟨hkept.1, hkept.2, ensures_bind (getRequest_ensures (fun _ hi => Leaves.refl hi _) fun s₂ hi₂ hr₂ =>
    ⟨fun e => trivial, fun r _ _ => ?_⟩)⟩
  exact statusOf_safe

/-- A failure is stored. -/
theorem finalizeClaim_failure {values : PublicationValues} {state : PublicationState}
    (hstate : values.publicationState = some state) (hfailure : state = .retryableFailure ∨ state = .failed) :
    Publishes P D S host request Unspecified (finalizeClaim D host request values) s := by
  refine finalizeClaim_ensures fun s' _ _ r _ _ _ hpublished => ?_
  exfalso
  simp only [GitHubValidationRequest.isPublished, GitHubValidationRequest.published, hstate, Option.getD_some]
    at hpublished
  rcases hfailure with rfl | rfl <;> cases hpublished

/-- **A publication tells the truth**: the values that are stored with a comment. -/
theorem published_truthful (h : AdapterOK P D S s) {run : ExecutionRun} {evidence : EvidenceDocument}
    {head : Option String} {commentId : ℕ} {body : String} {values : PublicationValues}
    (hfound : Found D request run evidence s) (hbody : publishedComment request evidence head = .ok body)
    (hcomment : Held D request host.token (OnlyComment commentId body) s)
    (hrun : values.terminalRunId = some run.id) (hid : values.managedCommentId = some commentId)
    (hhead : values.publicationHeadSha = some head)
    (hdecision : values.publicationDecision = some (decisionOf (headDecision request.identity.headSha head).1))
    (hstate : values.publicationState = some (if decisionOf (headDecision request.identity.headSha head).1 = .current
      then .publishedCurrent else .publishedStale))
    {r : GitHubValidationRequest} (hr : r ∈ s.requests) (hrid : r.id = request.id)
    (htoken : r.publicationClaimToken = some host.token) :
    ∃ run e, PublicationTruthful s.plane.db (r.published values) run e ∧
      CommentShows D (r.published values) run e s.comments := by
  obtain ⟨x, hx, hxid, hidentity, hheld⟩ := hcomment
  obtain rfl := h.eq_of_id hx hr (hxid.trans hrid.symm)
  obtain ⟨c, hone, hcid, hcbody⟩ := hheld htoken
  obtain ⟨e, hof, rfl⟩ := hfound
  have hsame : (x.published values).identity = request.identity := hidentity
  refine ⟨run, e, ⟨?_, ?_, ?_, ?_, ?_, ?_⟩, c, ?_, ?_, ?_⟩
  · rw [hsame]
    exact hof
  · simp only [GitHubValidationRequest.published, hrun, Option.some_or]
  · simp only [GitHubValidationRequest.published, hdecision, hhead, Option.getD_some, decisionOf_current, hidentity]
  · simp only [GitHubValidationRequest.published, hdecision, Option.getD_some]
    exact decisionOf_cases _
  · simp only [GitHubValidationRequest.published, hdecision, hstate, Option.getD_some]
  · simp only [GitHubValidationRequest.published, hid, Option.some_or, Option.isSome_some]
  · rw [hsame]
    exact hone
  · simp only [GitHubValidationRequest.published, hid, Option.some_or, hcid]
  · rw [publishedComment_identity hsame, hcbody]
    simp only [GitHubValidationRequest.published, hhead, Option.getD_some]
    exact hbody

/-! ## Publications -/

theorem publishResolved_ensures {run : ExecutionRun} {evidence : EvidenceDocument} {actor : GitHubActorIdentity}
    {resolved : ResolvedPullRequest} (h : Held D request host.token (fun _ => True) s)
    (hfound : Found D request run evidence s) :
    Publishes P D S host request Unspecified (publishResolved D host request run evidence actor resolved) s := by
  unfold publishResolved
  refine ensures_observe_bind (fun _ hi => Leaves.refl hi _) fun s₁ hi₁ hr₁ => ?_
  have h₁ := h.later hr₁
  have hfound₁ := hfound.later hr₁.common
  dsimp only
  split
  · refine ensures_caught_bind (Q := Unspecified) ?_
    unfold renderAndUpsert
    refine ensures_ofExcept_bind (fun e herror => ?_) fun body hrendered => ?_
    · -- the comment cannot be rendered
      have hvalue : e = .valueError := by
        cases hpublished : publishedComment request evidence resolved.headSha with
        | error e' =>
          rw [hpublished] at herror
          exact (Except.error.inj herror).symm
        | ok body =>
          rw [hpublished] at herror
          cases herror
      subst hvalue
      exact finalizeClaim_failure rfl (.inr rfl)
    · have hbody := mapError_ok hrendered
      have hupsert : Publishes P D S host request (Upserted D request host.token body)
          (upsertManagedComment D host request actor body) s₁ :=
        upsertManagedComment_ensures (published_marker hbody) h₁
      refine (hupsert.frame (K := Found D request run evidence) (fun _ _ hr hk => hk.later hr.common)
        (fun _ _ hg hk => hk.later hg.common) hfound₁).mono fun outcome s₂ houtcome => ?_
      obtain ⟨⟨-, honly⟩, hfound₂⟩ := houtcome
      cases outcome with
      | ok c =>
        refine ensures_observe_bind (fun _ hi => Leaves.refl hi _) fun s₃ _ hr₃ => ?_
        refine finalizeClaim_ensures fun s' hi' hr' r hmem hid htoken _ => ?_
        exact published_truthful hi' ((hfound₂.later hr₃.common).later hr'.common) hbody
          (((honly c rfl).later hr₃).later hr') rfl rfl rfl rfl rfl hmem hid htoken
      | error e =>
        cases e with
        | adapter kind reason => exact finalizeClaim_failure rfl (.inl rfl)
        | valueError => exact finalizeClaim_failure rfl (.inr rfl)
        | execution e => exact ensures_raise trivial
        | other => exact ensures_raise trivial
  · exact finalizeClaim_failure rfl (.inr rfl)

theorem publishEvidence_ensures {run : ExecutionRun} {evidence : EvidenceDocument}
    (h : Held D request host.token (fun _ => True) s) (hfound : Found D request run evidence s) :
    Publishes P D S host request Unspecified (publishEvidence D host request run evidence) s := by
  unfold publishEvidence
  dsimp only
  split
  · exact finalizeClaim_failure rfl (.inl rfl)
  · exact ensures_raise trivial
  · split
    · exact finalizeClaim_failure rfl (.inr rfl)
    · split
      · exact finalizeClaim_failure rfl (.inl rfl)
      · exact ensures_raise trivial
      · exact publishResolved_ensures h hfound

theorem publishClaimed_ensures (h : Held D request host.token (fun _ => True) s) :
    Publishes P D S host request Unspecified (publishClaimed D host request) s := by
  unfold publishClaimed
  refine ensures_observe_bind (fun _ hi => Leaves.refl hi _) fun s₁ _ hr₁ => ?_
  have hruns : ∀ run ∈ (listRuns request.identity.workOrderId s₁).reverse,
      run.workOrderId = request.identity.workOrderId ∧ (run.status.isTerminal = true → run ∈ s₁.plane.db.runs) := by
    intro run hrun
    obtain ⟨hmem, horder⟩ := List.mem_filter.1 (List.mem_reverse.1 hrun)
    rw [beq_iff_eq] at horder
    exact ⟨horder, fun _ => hmem⟩
  refine ensures_bind ((terminalEvidence_ensures hruns (h.later hr₁)).mono fun found s₂ hfound => ?_)
  cases found with
  | error e => exact ensures_raise trivial
  | ok found => exact publishEvidence_ensures hfound.1 (hfound.2 found rfl)

theorem failureValues_state (e : AdapterException) : (failureValues e).publicationState = some .retryableFailure := by
  cases e <;> rfl

/-- **A publication** keeps the invariant and leaves the claims of other tokens, whatever others do meanwhile. -/
theorem publish_ensures (requestId : ℕ) :
    Thread.Ensures (AdapterOK P D S) (Relies D requestId host.token) (Leaves D (some host.token)) Unspecified
      (publish D host requestId) s := by
  have hstand : ∀ s', AdapterOK P D S s' → Leaves D (some host.token) s' s' := fun _ hi => Leaves.refl hi _
  unfold publish claimStatement
  refine ensures_bind (getRequest_ensures hstand fun s₁ _ _ => ⟨fun e => trivial, fun r _ hid => ?_⟩)
  refine ensures_observe_bind hstand fun s₂ _ _ => ?_
  refine ensures_access_bind fun s₃ hi₃ hr₃ => ?_
  have hacquired := adapterOK_acquire hi₃ r.id host.token (s₂.clock + publicationClaimTtl) hr₃.common.clock
  refine ⟨hacquired.1, hacquired.2, ?_⟩
  refine ensures_bind (getRequest_ensures hstand fun s₄ _ _ => ⟨fun e => trivial, fun request hmem hid' => ?_⟩)
  obtain rfl : request.id = requestId := hid'.trans hid
  dsimp only [andThen]
  split
  · refine ensures_caught_bind ((publishClaimed_ensures ⟨request, hmem, rfl, rfl, fun _ => trivial⟩).mono
      fun outcome s₅ _ => ?_)
    cases outcome with
    | ok status => exact ensures_pure trivial
    | error e =>
      refine ensures_access_bind fun s₆ hi₆ _ => ?_
      have hstored := adapterOK_finalize hi₆ request.id host.token (failureValues e) fun x _ _ _ hpublished => by
        simp only [GitHubValidationRequest.isPublished, GitHubValidationRequest.published, failureValues_state,
          Option.getD_some] at hpublished
        cases hpublished
      exact ⟨hstored.1, hstored.2, ensures_raise trivial⟩
  · exact statusOf_safe

end Adapter

end Switchboard
