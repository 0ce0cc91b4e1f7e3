import Switchboard.Proof.Transitions

/-!
# Evidence binding

* `EvidenceOK`: evidence belongs to a terminal run of a terminal order, and says so.
* `Effect.evidenceOK`: every effect preserves it.
* `runCalls_evidence`: it holds in every reachable state.
-/

namespace Switchboard

open Table Transaction

variable {P : Platform} {scope : Scope} {s s' : Database} {now : Time}

/-- The evidence names this run of this order, as they ended. -/
structure EvidenceBinds (e : ExecutionEvidence) (r : ExecutionRun) (o : WorkOrder) : Prop where
  run : e.runId = r.id
  order : e.workOrderId = o.id
  worker : e.workerId = r.workerId
  repository : e.repositoryFullName = o.spec.repositoryFullName
  commit : e.testedSha = o.spec.commitSha
  manifestName : e.manifestName = o.spec.manifestName
  manifestVersion : e.manifestVersion = o.spec.manifestVersion
  manifestDigest : e.manifestDigest = o.spec.manifestDigest
  runStatus : e.terminalStatus.toRun = r.status
  orderStatus : e.terminalStatus.toRun.toWorkOrder = o.status
  artifacts : e.artifacts = r.artifactMetadata

/-- Evidence of a run binds the run and its order. -/
structure EvidenceOK (s : Database) : Prop where
  bound : ∀ r ∈ s.runs, ∀ e, r.evidenceMetadata = some e →
    ∃ o ∈ s.orders, o.id = r.workOrderId ∧ EvidenceBinds e r o
  unique : ∀ r ∈ s.runs, ∀ r' ∈ s.runs, r'.workOrderId = r.workOrderId → r.evidenceMetadata.isSome = true →
    r'.evidenceMetadata.isSome = true → r' = r
  artifacts : ∀ r ∈ s.runs, r.artifactMetadata ≠ [] → r.evidenceMetadata.isSome = true

theorem EvidenceOK.init : EvidenceOK Database.init := by
  constructor <;> simp [Database.init]

theorem TerminalStatus.toRun_isTerminal (t : TerminalStatus) : t.toRun.isTerminal = true := by
  cases t <;> rfl

theorem EvidenceBinds.run_terminal {e : ExecutionEvidence} {r : ExecutionRun} {o : WorkOrder}
    (h : EvidenceBinds e r o) : r.status.isTerminal = true := by
  rw [← h.runStatus]; exact e.terminalStatus.toRun_isTerminal

theorem EvidenceBinds.order_terminal {e : ExecutionEvidence} {r : ExecutionRun} {o : WorkOrder}
    (h : EvidenceBinds e r o) : o.status.isTerminal = true := by
  rw [← h.orderStatus, ExecutionRunStatus.toWorkOrder_isTerminal]; exact e.terminalStatus.toRun_isTerminal

/-- An active run has no evidence. -/
theorem EvidenceOK.active_none (h : EvidenceOK s) {r : ExecutionRun} (hr : r ∈ s.runs)
    (hact : r.status.isActive = true) : r.evidenceMetadata = none := by
  cases he : r.evidenceMetadata with
  | none => rfl
  | some e =>
    obtain ⟨o, -, -, hb⟩ := h.bound r hr e he
    rw [ExecutionRunStatus.not_active_of_terminal hb.run_terminal] at hact
    cases hact

theorem EvidenceOK.active_artifacts (h : EvidenceOK s) {r : ExecutionRun} (hr : r ∈ s.runs)
    (hact : r.status.isActive = true) : r.artifactMetadata = [] := by
  by_contra hne
  have hsome := h.artifacts r hr hne
  rw [h.active_none hr hact] at hsome
  cases hsome

/-- The order of a run with evidence is terminal, so it stays. -/
theorem EvidenceOK.bound_frozen (h : EvidenceOK s) (hf : Frozen s s') {r : ExecutionRun} (hr : r ∈ s.runs)
    {e : ExecutionEvidence} (he : r.evidenceMetadata = some e) :
    ∃ o ∈ s'.orders, o.id = r.workOrderId ∧ EvidenceBinds e r o := by
  obtain ⟨o, ho, hid, hb⟩ := h.bound r hr e he
  exact ⟨o, hf.order_mem ho hb.order_terminal, hid, hb⟩

theorem EvidenceOK.runs_same (h : EvidenceOK s) (hf : Frozen s s') (hr : s'.runs = s.runs) : EvidenceOK s' := by
  refine ⟨fun r hrm e he => h.bound_frozen hf (hr ▸ hrm) he, ?_, ?_⟩
  · rw [hr]; exact h.unique
  · rw [hr]; exact h.artifacts

/-- A new run brings no evidence. -/
theorem EvidenceOK.append (h : EvidenceOK s) (hf : Frozen s s') {r' : ExecutionRun} (hr : s'.runs = s.runs ++ [r'])
    (hev : r'.evidenceMetadata = none) (hart : r'.artifactMetadata = []) : EvidenceOK s' := by
  have hold : ∀ x ∈ s'.runs, x ∈ s.runs ∨ x = r' := by
    intro x hx; rw [hr] at hx; simpa using hx
  refine ⟨?_, ?_, ?_⟩
  · intro x hx e he
    rcases hold x hx with hx | rfl
    · exact h.bound_frozen hf hx he
    · rw [hev] at he; cases he
  · intro x hx y hy hw hxe hye
    rcases hold x hx with hx | rfl
    · rcases hold y hy with hy | rfl
      · exact h.unique x hx y hy hw hxe hye
      · rw [hev] at hye; cases hye
    · rw [hev] at hxe; cases hxe
  · intro x hx hne
    rcases hold x hx with hx | rfl
    · exact h.artifacts x hx hne
    · exact absurd hart hne

/-- The row of an active run was rewritten. Its order was active, so no run of it had evidence. -/
theorem EvidenceOK.rewrite (h : EvidenceOK s) (hk : Keys s) (hc : Coherent s) (hf : Frozen s s') {r : ExecutionRun}
    (r' : ExecutionRun) (hrm : r ∈ s.runs) (hact : r.status.isActive = true) (hr : s'.runs = put r' s.runs)
    (hw : r'.workOrderId = r.workOrderId)
    (hbound : ∀ e, r'.evidenceMetadata = some e → ∃ o ∈ s'.orders, o.id = r'.workOrderId ∧ EvidenceBinds e r' o)
    (hart : r'.artifactMetadata ≠ [] → r'.evidenceMetadata.isSome = true) : EvidenceOK s' := by
  have hold : ∀ x ∈ s'.runs, x = r' ∨ x ∈ s.runs := by
    intro x hx; rw [hr] at hx
    rcases of_mem_put hx with hx | ⟨hx, -⟩
    · exact Or.inl hx
    · exact Or.inr hx
  have hnone : ∀ x ∈ s.runs, x.workOrderId = r.workOrderId → x.evidenceMetadata.isSome = true → False := by
    intro x hx hxw hxe
    obtain ⟨e, he⟩ := Option.isSome_iff_exists.1 hxe
    obtain ⟨o, ho, hid, hb⟩ := h.bound x hx e he
    have hst := hc.order_active hk hrm ho hact (hid.trans hxw)
    have hterm := hb.order_terminal
    rw [hst, ExecutionRunStatus.toWorkOrder_isTerminal] at hterm
    rw [ExecutionRunStatus.not_active_of_terminal hterm] at hact
    cases hact
  refine ⟨?_, ?_, ?_⟩
  · intro x hx e he
    rcases hold x hx with rfl | hx
    · exact hbound e he
    · exact h.bound_frozen hf hx he
  · intro x hx y hy hyx hxe hye
    rcases hold x hx with rfl | hx
    · rcases hold y hy with rfl | hy
      · rfl
      · exact (hnone y hy (hyx.trans hw) hye).elim
    · rcases hold y hy with rfl | hy
      · exact (hnone x hx (hyx.symm.trans hw) hxe).elim
      · exact h.unique x hx y hy hyx hxe hye
  · intro x hx hne
    rcases hold x hx with rfl | hx
    · exact hart hne
    · exact h.artifacts x hx hne

/-- An active run was rewritten and stays without evidence. -/
theorem EvidenceOK.rewrite_none (h : EvidenceOK s) (hk : Keys s) (hc : Coherent s) (hf : Frozen s s')
    {r : ExecutionRun} (r' : ExecutionRun) (hrm : r ∈ s.runs) (hact : r.status.isActive = true)
    (hr : s'.runs = put r' s.runs) (hw : r'.workOrderId = r.workOrderId) (hev : r'.evidenceMetadata = none)
    (hart : r'.artifactMetadata = []) : EvidenceOK s' :=
  h.rewrite hk hc hf r' hrm hact hr hw (fun e he => by rw [hev] at he; cases he) fun hne => absurd hart hne

theorem settledRun_evidence (q : QuotaReservationState) (r : ExecutionRun) :
    (settledRun q r).evidenceMetadata = r.evidenceMetadata ∧ (settledRun q r).artifactMetadata = r.artifactMetadata := by
  unfold settledRun; split <;> exact ⟨rfl, rfl⟩

/-- What the evidence check establishes about the run and the order as they end. -/
theorem validateCompletionEvidence_binds {l : Lease} {completion : ExecutionCompletion} {e : ExecutionEvidence}
    {r' : ExecutionRun} {o o' : WorkOrder} (hk : Keys s) (ho : o ∈ s.orders) (hoid : o.id = l.workOrderId)
    (hv : Service.validateCompletionEvidence l.snapshot completion s = .ok ())
    (he : completion.evidenceMetadata = some e) (hrid : r'.id = l.executionRunId) (hwid : r'.workerId = l.workerId)
    (hst : r'.status = completion.status) (hart : r'.artifactMetadata = completion.artifactMetadata)
    (hid' : o'.id = o.id) (hspec : o'.spec = o.spec) (host : o'.status = completion.status.toWorkOrder) :
    EvidenceBinds e r' o' := by
  unfold Service.validateCompletionEvidence at hv
  rw [he] at hv
  simp only [except_bind_ok, ensure_ok] at hv
  obtain ⟨x, hx, hm⟩ := hv
  obtain ⟨hxm, hxid⟩ := requireWorkOrder_ok hx
  obtain rfl : x = o := hk.orders.unique.eq_of_key hxm ho (hxid.trans hoid.symm)
  simp only [Service.evidenceMatches, Bool.and_eq_true, beq_iff_eq] at hm
  obtain ⟨⟨⟨⟨⟨⟨⟨⟨⟨h₁, h₂⟩, h₃⟩, h₄⟩, h₅⟩, h₆⟩, h₇⟩, h₈⟩, h₉⟩, h₁₀⟩ := hm
  refine ⟨h₁.trans hrid.symm, h₂.trans (hoid.symm.trans hid'.symm), h₃.trans hwid.symm, ?_, ?_, ?_, ?_, ?_,
    h₉.trans hst.symm, by rw [h₉, host], h₁₀.trans hart.symm⟩
  · rw [h₄, hspec]
  · rw [h₅, hspec]
  · rw [h₆, hspec]
  · rw [h₇, hspec]
  · rw [h₈, hspec]

/-- Without evidence a completion has no artifacts. -/
theorem validateCompletionEvidence_artifacts {n : LeaseSnapshot} {completion : ExecutionCompletion}
    (hv : Service.validateCompletionEvidence n completion s = .ok ()) (hne : completion.artifactMetadata ≠ []) :
    completion.evidenceMetadata.isSome = true := by
  cases he : completion.evidenceMetadata with
  | some e => rfl
  | none =>
    unfold Service.validateCompletionEvidence at hv
    simp only [he, ensure_ok, List.isEmpty_iff] at hv
    exact absurd hv hne

theorem EvidenceOK.close (h : EvidenceOK s) (hk : Keys s) (hc : Coherent s) {outcome : Outcome} {l : Lease}
    {r : ExecutionRun} {o : WorkOrder} {w : Worker} {profiles : List RoutingProfile}
    (hcl : Closing P s outcome l r o w profiles)
    (hf : Frozen s (closedDatabase s now outcome l r o w profiles)) :
    EvidenceOK (closedDatabase s now outcome l r o w profiles) := by
  have hb := hc.backed hk hcl.lease hcl.run hcl.order hcl.runId hcl.orderId
  cases outcome with
  | expire =>
    exact h.rewrite_none hk hc hf (ExecutionRun.timedOut now (settledRun .released r)) hcl.run hcl.runActive rfl
      (settledRun_workOrderId .released r) rfl rfl
  | finish completion reuse =>
    obtain ⟨-, hv, -⟩ := hcl.justified
    refine h.rewrite hk hc hf (Service.finishedRun completion reuse now (settledRun .released r)) hcl.run
      hcl.runActive rfl (settledRun_workOrderId .released r) ?_ (validateCompletionEvidence_artifacts hv)
    intro e he
    set o' := (Outcome.finish completion reuse).order now (settledOrder .released r o) with ho'
    have hoid : o'.id = o.id := settledOrder_id .released r o
    refine ⟨o', mem_put_self hcl.order hoid.symm, ?_, ?_⟩
    · exact hoid.trans (hb.ofOrder.symm.trans (settledRun_workOrderId .released r).symm)
    · exact validateCompletionEvidence_binds hk hcl.order hcl.orderId hv he
        ((settledRun_id .released r).trans hcl.runId) ((settledRun_workerId .released r).trans hb.worker) rfl rfl hoid
        (settledOrder_spec .released r o) rfl

/-- **Every effect keeps evidence bound.** -/
theorem Effect.evidenceOK (he : Effect P scope now s s') (hk : Keys s) (hc : Coherent s) (h : EvidenceOK s) :
    EvidenceOK s' := by
  have hf := he.frozen hk
  cases he with
  | idle => exact h
  | manifest | insertWorker | updateWorker | insertProfile | rewriteProfile | createOrder | moveOrder =>
    exact h.runs_same hf rfl
  | claim w o q count pin expiresAt profiles hcl => exact h.append hf rfl rfl rfl
  | heartbeat l r o expiresAt hb =>
    obtain ⟨hev, hart⟩ := settledRun_evidence .consumed r
    exact h.rewrite_none hk hc hf ((settledRun .consumed r).started now expiresAt) hb.run hb.runActive rfl
      (settledRun_workOrderId .consumed r) (hev.trans (h.active_none hb.run hb.runActive))
      (hart.trans (h.active_artifacts hb.run hb.runActive))
  | close outcome l r o w profiles hcl => exact h.close hk hc hcl hf
  | resolve l r o identity selected hr =>
    have hev : r.evidenceMetadata = none := h.active_none hr.run hr.runActive
    have hart : r.artifactMetadata = [] := h.active_artifacts hr.run hr.runActive
    exact h.rewrite_none hk hc hf (Service.resolvedRun identity (P.reuseIdentityHash identity) selected r) hr.run
      hr.runActive rfl rfl hev hart

theorem runCalls_evidenceOK (P : Platform) (calls : List Call) : EvidenceOK (runCalls P calls).db :=
  (runCalls_invariant (I := fun s => Coherent s ∧ EvidenceOK s) ⟨Coherent.init, EvidenceOK.init⟩
    (fun he hk hi => ⟨he.coherent hk hi.1, he.evidenceOK hk hi.1 hi.2⟩) calls).2

/-- **Evidence is bound to its run.** A run with evidence is terminal and the only one of its order that
has any; the evidence names the run, its order and its worker, the order's repository, commit and
manifest, the status in which both ended, and the run's artifacts. Artifacts never come without
evidence. -/
theorem runCalls_evidence (P : Platform) (calls : List Call) :
    (∀ r ∈ (runCalls P calls).db.runs, ∀ e, r.evidenceMetadata = some e →
      r.status.isTerminal = true ∧
      (∀ r' ∈ (runCalls P calls).db.runs, r'.workOrderId = r.workOrderId → r'.evidenceMetadata.isSome = true → r' = r) ∧
      ∃ o ∈ (runCalls P calls).db.orders, o.id = r.workOrderId ∧ EvidenceBinds e r o) ∧
    ∀ r ∈ (runCalls P calls).db.runs, r.artifactMetadata ≠ [] → r.evidenceMetadata.isSome = true := by
  have h := runCalls_evidenceOK P calls
  refine ⟨fun r hr e he => ?_, h.artifacts⟩
  obtain ⟨o, ho, hid, hb⟩ := h.bound r hr e he
  refine ⟨hb.run_terminal, fun r' hr' hw hsome => ?_, o, ho, hid, hb⟩
  exact h.unique r hr r' hr' hw (by rw [he]; rfl) hsome

end Switchboard
