import Switchboard.Proof.Admission
import Switchboard.Proof.Publication

/-!
# Validation requests under interference

* `requestValidation_ensures`: a request gets the row of its scope, one that is there or one that it inserts.
* `runAdapter_sound`: in every interleaving of requests, publications, execution operations and edits by others,
  `AdapterOK` holds.
-/

namespace Switchboard

open Table Transaction

namespace Adapter

open Threads Raising

variable {P : Platform} {D : GitHubDeployment} {S : Set RequestScope} {args : ValidationArguments}
  {remote : ResolutionHost} {r : ResolvedRequest} {s s' : AdapterState}

/-! ## Insertions -/

theorem lower_sha (hP : P.Unicode) {sha : String} (h : shaText sha = true) : P.lower sha = sha := by
  refine hP.lower_ascii sha fun c hc => .inl ?_
  unfold shaText at h
  rw [Bool.and_eq_true, List.all_eq_true] at h
  have hchar := h.2 c hc
  simp only [Bool.or_eq_true, Bool.and_eq_true, decide_eq_true_eq] at hchar
  simp only [keyChar, Bool.or_eq_true, Bool.and_eq_true, decide_eq_true_eq]
  rcases hchar with hdigit | ⟨hlow, hhigh⟩
  · exact .inr hdigit
  · exact .inl ⟨hlow, hhigh.trans (by decide)⟩

theorem getTrustedManifest_named {name version : String} {m : TrustedManifest}
    (h : P.getTrustedManifest name version = some m) : m.metadata.name = name ∧ m.metadata.version = version := by
  have hfound := List.find?_some h
  rwa [Bool.and_eq_true, beq_iff_eq, beq_iff_eq] at hfound

/-- **The order of a request is of its scope.** -/
theorem requestRow_linked (hP : P.Unicode) (hr : Resolves P args r) {draft : WorkOrderDraft}
    (hdraft : workOrderDraft args r = .ok draft) {ss ss' : Session Database} {o : WorkOrder}
    (h : Service.createWorkOrder P draft ss = .ok (o, ss')) (now : Time) (id : ℕ) :
    RequestLinked D ss'.db (requestRow P D args r o.id now id).identity r.scope o := by
  unfold workOrderDraft at hdraft
  rw [except_bind_ok] at hdraft
  obtain ⟨kinds, -, hdraft⟩ := hdraft
  obtain rfl := Except.ok.inj hdraft
  obtain ⟨definition, manifest, hdefinition, hname, hversion, hdigest, hspec, -, horders, -⟩ := createWorkOrder_ok h
  -- the manifest of the order is the one that the request was resolved with
  have hsame : definition = r.manifest := by
    obtain ⟨hargsName, hargsVersion⟩ := getTrustedManifest_named hr.manifest
    have hagain : P.getTrustedManifest args.manifestName args.manifestVersion = some definition := by
      rw [← hargsName, ← hargsVersion]
      exact hdefinition
    exact Option.some.inj (hagain.symm.trans hr.manifest)
  subst hsame
  refine ⟨?_, rfl, rfl, hr.head.symm, hr.name.symm, hr.version.symm, hr.digest.symm, ?_, ?_, ?_, ?_, ?_, ?_, ?_, ?_, ?_,
    ?_⟩
  · rw [horders]
    exact List.mem_append_right _ (List.mem_singleton_self o)
  · rw [hspec]
    exact lower_sha hP hr.sha
  · rw [hspec]
    rfl
  · rw [hspec]
    exact hname
  · rw [hspec]
    exact hversion
  · rw [hspec]
    exact hdigest
  · rw [hspec]
    exact hr.reusePolicy.symm
  · rw [hspec]
    exact hr.routingPolicy.symm
  · rw [hspec]
    exact hr.maximumCostUnits.symm
  · rw [hspec]
    exact hr.requiredQuotaUnits.symm
  · rw [hspec]
    exact hr.preferredExecutor.symm

theorem rowUnique_iff {requests : GitHubRequests} {i : RequestIdentity} : rowUnique requests i = true ↔
    (∀ x ∈ requests, x.identity.idempotencyKey ≠ i.idempotencyKey) ∧
      ∀ x ∈ requests, x.identity.workOrderId ≠ i.workOrderId := by
  unfold rowUnique
  rw [List.all_eq_true]
  simp only [Bool.and_eq_true, bne_iff_ne]
  exact forall₂_and

/-- **The order and the row of a request** are inserted together. -/
theorem adapterOK_inserted (hP : P.Unicode) (h : AdapterOK P D S s) (hr : Resolves P args r) (hscope : r.scope ∈ S)
    {draft : WorkOrderDraft} (hdraft : workOrderDraft args r = .ok draft) {o : WorkOrder} {plane : Session Database}
    (hcreated : Service.createWorkOrder P draft s.plane = .ok (o, plane)) (now : Time)
    (hunique : rowUnique s.requests (requestRow P D args r o.id now (nextId s.requests)).identity = true)
    (own : Option String) :
    AdapterOK P D S { s with plane := plane, requests := s.requests ++ [requestRow P D args r o.id now (nextId s.requests)] } ∧
      Leaves D own s
        { s with plane := plane, requests := s.requests ++ [requestRow P D args r o.id now (nextId s.requests)] } := by
  obtain ⟨hkey, horder⟩ := rowUnique_iff.1 hunique
  have hplane := adapterOK_plane h ⟨⟨fun _ => 0, 0, 0, 0, fun _ _ => none⟩, .createWorkOrder draft⟩ own
  rw [createWorkOrder_step _ hcreated] at hplane
  have hrow := adapterOK_appended hplane.1 own rfl hkey horder
    ⟨r.scope, hscope, o, requestRow_linked hP hr hdraft hcreated now _⟩ rfl
  exact ⟨hrow.1, hplane.2.trans hrow.2⟩

/-! ## Requests -/

/-- What a part of a request ensures. It relies on nothing but what every thread leaves. -/
abbrev Requests (P : Platform) (D : GitHubDeployment) (S : Set RequestScope) {α : Type}
    (Q : Except AdapterException α → AdapterState → Prop) (x : Publisher α) (s : AdapterState) : Prop :=
  Thread.Ensures (AdapterOK P D S) Common (Leaves D none) Q x s

theorem validated_later {scope : RequestScope} {status : GitHubRequestStatus} (h : Validated D scope status s)
    (hc : Common s s') : Validated D scope status s' := by
  obtain ⟨x, hx, hid, hidentity⟩ := h.stored
  obtain ⟨x', hx', hid', hidentity'⟩ := hc.row hx
  exact { h with stored := ⟨x', hx', hid'.trans hid, hidentity'.trans hidentity⟩ }

section

variable (hsha : NoCollision D S) (hscope : r.scope ∈ S)

include hsha hscope

/-- The scope of a row with the key of a scope. -/
theorem AdapterOK.linked_scope (h : AdapterOK P D S s) {x : GitHubValidationRequest} (hx : x ∈ s.requests)
    (hkey : x.identity.idempotencyKey = r.scope.idempotencyKey D) :
    ∃ o, RequestLinked D s.plane.db x.identity r.scope o := by
  obtain ⟨scope, hmem, o, hlinked⟩ := (h.rows x hx).linked
  obtain rfl := idempotencyKey_injective hsha hmem hscope (hlinked.key.symm.trans hkey)
  exact ⟨o, hlinked⟩

/-- **A lookup** finds a row with the key of the scope or none: no row has the older key of a scope. -/
theorem findRequest_ensures {Q : Except AdapterException (Option GitHubValidationRequest) → AdapterState → Prop}
    (hQ : ∀ s', AdapterOK P D S s' → Common s s' → Q (.ok none) s' ∧ ∀ x ∈ s'.requests,
      x.identity.idempotencyKey = r.scope.idempotencyKey D → Q (.ok (some x)) s') :
    Requests P D S Q (findRequest D r.scope) s := by
  unfold findRequest
  refine ensures_observe_bind (fun _ hi => Leaves.refl hi _) fun s₁ hi₁ hr₁ => ?_
  obtain ⟨hnone, hsome⟩ := hQ s₁ hi₁ hr₁
  cases hfound : requestByKey (r.scope.idempotencyKey D) s₁ with
  | some x =>
    have hkey := List.find?_some hfound
    rw [beq_iff_eq] at hkey
    exact ensures_pure (hsome x (List.mem_of_find?_eq_some hfound) hkey)
  | none =>
    split
    · rename_i hdefault
      rw [Option.isNone_none, Bool.true_and] at hdefault
      refine ensures_observe (fun _ hi => Leaves.refl hi _) fun s₂ hi₂ hr₂ => ?_
      cases hlegacy : requestByKey (r.scope.legacyIdempotencyKey D) s₂ with
      | none => exact (hQ s₂ hi₂ (hr₁.trans hr₂)).1
      | some x =>
        exfalso
        have hkey := List.find?_some hlegacy
        rw [beq_iff_eq] at hkey
        obtain ⟨scope, hmem, o, hlinked⟩ := (hi₂.rows x (List.mem_of_find?_eq_some hlegacy)).linked
        exact legacyIdempotencyKey_ne hsha hscope hmem hdefault (hkey.symm.trans hlinked.key)
    · exact ensures_pure hnone

theorem statusOf_validated {x : GitHubValidationRequest} (hx : x ∈ s.requests)
    (hkey : x.identity.idempotencyKey = r.scope.idempotencyKey D) (reason : Option String) :
    Requests P D S (fun result s' => ∀ status, result = .ok status → Validated D r.scope status s')
      (statusOf D x reason) s := by
  refine statusOf_ensures (fun _ hi => Leaves.refl hi _) fun s₁ hi₁ hr₁ => ⟨?_, ?_⟩
  · intro e status he
    cases he
  intro o ho hid s₂ _ hr₂ s₃ _ hr₃ status hstatus status' hsame
  obtain rfl := Except.ok.inj hsame
  obtain ⟨x₁, hx₁, hid₁, hidentity₁⟩ := hr₁.row hx
  obtain ⟨o', hlinked⟩ := hi₁.linked_scope hsha hscope hx₁ (by rw [hidentity₁]; exact hkey)
  rw [hidentity₁] at hlinked
  obtain rfl := hi₁.planeKeys.orders.unique.eq_of_key ho hlinked.order (hid.trans hlinked.orderId.symm)
  have hvalidated : Validated D r.scope status s₁ :=
    { stored := ⟨x₁, hx₁, by rw [hstatus.request]; exact hid₁, by rw [hstatus.request]; exact hidentity₁⟩
      key := by rw [hstatus.request]; exact hkey
      reusePolicy := hstatus.reusePolicy.trans hlinked.reusePolicy
      routingPolicy := hstatus.routingPolicy.trans hlinked.routingPolicy
      maximumCostUnits := hstatus.maximumCostUnits.trans hlinked.maximumCostUnits
      requiredQuotaUnits := hstatus.requiredQuotaUnits.trans hlinked.requiredQuotaUnits
      preferredExecutor := hstatus.preferredExecutor.trans hlinked.preferredExecutor }
  exact validated_later (validated_later hvalidated hr₂) hr₃

theorem afterInsertion_ensures (inserted : Except AdapterException GitHubValidationRequest)
    (hinserted : ∀ x, inserted = .ok x → x ∈ s.requests ∧ x.identity.idempotencyKey = r.scope.idempotencyKey D) :
    Requests P D S (fun result s' => ∀ status, result = .ok status → Validated D r.scope status s')
      (afterInsertion D r.scope inserted) s := by
  have hraise : ∀ e s', Requests P D S (fun result s' => ∀ status, result = .ok status → Validated D r.scope status s')
      (raise e) s' := by
    intro e s' status he
    cases he
  cases inserted with
  | ok x => exact statusOf_validated hsha hscope (hinserted x rfl).1 (hinserted x rfl).2 none
  | error e =>
    cases e with
    | execution e =>
      cases e with
      | integrity =>
        refine ensures_bind (findRequest_ensures hsha hscope fun s₁ _ _ => ⟨hraise _ _, fun x hx hkey => ?_⟩)
        exact statusOf_validated hsha hscope hx hkey none
      | _ => exact hraise _ _
    | adapter kind reason => exact hraise _ _
    | valueError => exact hraise _ _
    | other => exact hraise _ _

end

/-- What a request returns is the status of what it is resolved to. -/
def Validates (P : Platform) (D : GitHubDeployment) (args : ValidationArguments) (remote : ResolutionHost)
    (result : Except AdapterException GitHubRequestStatus) (s : AdapterState) : Prop :=
  ∀ status, result = .ok status → ∃ r, resolveRequest P D args remote = .ok r ∧ Validated D r.scope status s

/-- **`request_validation`** returns the status of the row of the scope that it is resolved to. -/
theorem requestValidation_ensures (hP : P.Unicode) (hsha : NoCollision D S)
    (hscope : ∀ r, resolveRequest P D args remote = .ok r → r.scope ∈ S) :
    Requests P D S (Validates P D args remote) (requestValidation P D args remote) s := by
  have hraise : ∀ e s', Validates P D args remote (.error e) s' := by
    intro e s' status he
    cases he
  unfold requestValidation
  refine ensures_ofExcept_bind (fun e _ => hraise e s) fun r hr => ?_
  have hmem := hscope r hr
  have hvalidates : ∀ {x : Publisher GitHubRequestStatus} {s'}, Requests P D S
      (fun result s' => ∀ status, result = .ok status → Validated D r.scope status s') x s' →
        Requests P D S (Validates P D args remote) x s' := by
    intro x s' hx
    exact hx.mono fun result s' h status hstatus => ⟨r, hr, h status hstatus⟩
  refine ensures_bind (findRequest_ensures hsha hmem fun s₁ _ _ => ⟨?_, fun x hx hkey => ?_⟩)
  · refine ensures_observe_bind (fun _ hi => Leaves.refl hi _) fun s₂ _ _ => ?_
    refine ensures_ofExcept_bind (fun e _ => hraise e s₂) fun draft hdraft => ?_
    refine ensures_caught_bind (ensures_attempt fun s₃ hi₃ _ => ?_)
    cases hcreated : Service.createWorkOrder P draft s₃.plane with
    | error e =>
      refine ⟨hi₃, Leaves.refl hi₃ _, hvalidates (afterInsertion_ensures hsha hmem _ fun x hx => ?_)⟩
      cases hx
    | ok created =>
      obtain ⟨o, plane⟩ := created
      dsimp only
      split
      · rename_i hchecks
        rw [Bool.and_eq_true] at hchecks
        have hinserted := adapterOK_inserted hP hi₃ (resolveRequest_ok hr) hmem hdraft hcreated s₂.clock hchecks.2 none
        refine ⟨hinserted.1, hinserted.2, hvalidates (afterInsertion_ensures hsha hmem _ fun x hx => ?_)⟩
        obtain rfl := Except.ok.inj hx
        exact ⟨List.mem_append_right _ (List.mem_singleton_self _), rfl⟩
      · refine ⟨hi₃, Leaves.refl hi₃ _, hvalidates (afterInsertion_ensures hsha hmem _ fun x hx => ?_)⟩
        cases hx
  · exact hvalidates (statusOf_validated hsha hmem hx hkey none)

/-! ## The pool -/

section pool

variable {ι : Type} {calls : ι → AdapterCall}

/-- What a thread of the pool relies on. -/
abbrev RelyOf (D : GitHubDeployment) (call : AdapterCall) : AdapterState → AdapterState → Prop :=
  Relation.ReflGen (Moves D call)

theorem relyOf_trans {call : AdapterCall} {a b c : AdapterState} (h : RelyOf D call a b) (h' : RelyOf D call b c) :
    RelyOf D call a c := by
  cases h with
  | refl => exact h'
  | single h =>
    cases h' with
    | refl => exact .single h
    | single h' => exact .single (h.trans h')

theorem relyOf_moves {call : AdapterCall} (hi : AdapterOK P D S s') (h : RelyOf D call s s') : Moves D call s s' := by
  cases h with
  | refl => exact Moves.refl hi call
  | single h => exact h

/-- An access that leaves the claims of other tokens is within what the other threads rely on. -/
theorem leaves_relyOf {own : Option String} {call : AdapterCall}
    (hown : ∀ n host, call = .publish n host → own ≠ some host.token) (h : Leaves D own s s') : RelyOf D call s s' :=
  .single ⟨h.common, fun n host hcall => h.claims n host.token (hown n host hcall)⟩

/-- What a thread ensures: a request returns the status of its scope. -/
def EndsOf (P : Platform) (D : GitHubDeployment) (call : AdapterCall)
    (result : Except AdapterException (Option GitHubRequestStatus)) (s : AdapterState) : Prop :=
  ∀ args remote, call = .requestValidation args remote → ∀ status, result = .ok (some status) →
    ∃ r, resolveRequest P D args remote = .ok r ∧ Validated D r.scope status s

theorem endsOf_stable {call : AdapterCall} {result : Except AdapterException (Option GitHubRequestStatus)}
    (h : EndsOf P D call result s) (hr : RelyOf D call s s') : EndsOf P D call result s' := by
  cases hr with
  | refl => exact h
  | single hr =>
    intro args remote hcall status hstatus
    obtain ⟨r, hresolved, hvalidated⟩ := h args remote hcall status hstatus
    exact ⟨r, hresolved, validated_later hvalidated hr.common⟩

variable (hP : P.Unicode) (hsha : NoCollision D (resolvedScopes P D calls)) (htokens : TokensOfTheirOwn calls)

include hP hsha htokens

/-- **Every thread** keeps the invariant within what the others rely on. -/
theorem thread_ensures (i : ι) : Thread.Ensures (AdapterOK P D (resolvedScopes P D calls)) (RelyOf D (calls i))
    (fun s s' => ∀ j, j ≠ i → RelyOf D (calls j) s s') (EndsOf P D (calls i)) ((calls i).thread P D) s := by
  have hnone : ∀ a b, Leaves D none a b → ∀ j, j ≠ i → RelyOf D (calls j) a b := by
    intro a b hleaves j _
    refine leaves_relyOf (fun n host _ h => ?_) hleaves
    cases h
  cases hcall : calls i with
  | requestValidation args remote =>
    have hscope : ∀ r, resolveRequest P D args remote = .ok r → r.scope ∈ resolvedScopes P D calls :=
      fun r hr => ⟨i, args, remote, r, hcall, hr, rfl⟩
    refine Thread.Ensures.weaken (R := Common) (G := Leaves D none) (fun _ _ hi hr => (relyOf_moves hi hr).common)
      (fun a b _ hg => hnone a b hg) (ensures_map ?_)
    refine (requestValidation_ensures hP hsha hscope).mono fun result s' hresult => ?_
    intro args' remote' hsame status hstatus
    cases hsame
    cases result with
    | error e => cases hstatus
    | ok status' =>
      obtain rfl := Option.some.inj (Except.ok.inj hstatus)
      exact hresult status' rfl
  | publish n host =>
    have hpublish : ∀ a b, Leaves D (some host.token) a b → ∀ j, j ≠ i → RelyOf D (calls j) a b := by
      intro a b hleaves j hj
      refine leaves_relyOf (fun m host' hother htoken => hj ?_) hleaves
      exact (htokens i j n m host host' hcall hother (Option.some.inj htoken)).symm
    refine Thread.Ensures.weaken (R := Relies D n host.token) (G := Leaves D (some host.token)) ?_
      (fun a b _ hg => hpublish a b hg) (ensures_map ?_)
    · intro a b hi hr
      have hmoves := relyOf_moves hi hr
      exact ⟨hmoves.common, hmoves.claim n host rfl⟩
    · refine (publish_ensures n).mono fun result s' _ => ?_
      intro args remote hsame
      cases hsame
  | execution c =>
    refine ensures_access fun s' hi _ => ?_
    have hkept := adapterOK_plane hi c none
    refine ⟨hkept.1, hnone _ _ hkept.2, fun args remote hsame => ?_⟩
    cases hsame
  | tick now =>
    refine ensures_access fun s' hi _ => ?_
    have hkept := adapterOK_tick hi now none
    refine ⟨hkept.1, hnone _ _ hkept.2, fun args remote hsame => ?_⟩
    cases hsame
  | foreign e =>
    refine ensures_access fun s' hi _ => ?_
    have hkept := adapterOK_foreign hi e none
    refine ⟨hkept.1, hnone _ _ hkept.2, fun args remote hsame => ?_⟩
    cases hsame

/-- **In every interleaving** the invariant holds, and the requests that have ended return the status of their
scope. -/
theorem runAdapter_sound [DecidableEq ι] (start : Time) (schedule : List ι) :
    (runAdapter P D calls start schedule).Sound (AdapterOK P D (resolvedScopes P D calls))
      (fun i => RelyOf D (calls i)) fun i => EndsOf P D (calls i) := by
  have hstart : (Pool.mk (AdapterState.init start) fun i => (calls i).thread P D).Sound
      (AdapterOK P D (resolvedScopes P D calls)) (fun i => RelyOf D (calls i)) fun i => EndsOf P D (calls i) :=
    ⟨adapterOK_init start, fun i => thread_ensures hP hsha htokens i⟩
  have hrefl : ∀ (i : ι) (s : AdapterState), RelyOf D (calls i) s s := fun _ _ => .refl
  have htrans : ∀ {i : ι} {a b c : AdapterState}, RelyOf D (calls i) a b → RelyOf D (calls i) b c →
      RelyOf D (calls i) a c := fun h h' => relyOf_trans h h'
  have hstable : ∀ i result a b, EndsOf P D (calls i) result a → RelyOf D (calls i) a b →
      EndsOf P D (calls i) result b := fun _ _ _ _ h hr => endsOf_stable h hr
  exact Pool.Sound.run (R := fun i => RelyOf D (calls i)) (Q := fun i => EndsOf P D (calls i)) hrefl htrans hstable
    hstart schedule

end pool

end Adapter

end Switchboard
