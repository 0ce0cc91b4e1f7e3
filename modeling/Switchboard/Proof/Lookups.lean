import Switchboard.Proof.Reuse

/-!
# What the service keeps of a candidate lookup

* `Effect.lookedUp`: the identity stored on an active run was checked against its order.
* `Effect.runColumnsKept`, `calls_runColumnsKept`: only a lookup touches the reuse columns
  of an active run.
* `Effect.shaLowered`: every order holds a lowered commit.
-/

namespace Switchboard

open Table Transaction

variable {P : Platform} {scope : Scope} {ss ss' : Session Database} {s s' : Database} {now : Time} {runId : ℕ}

/-! ## Stored identities -/

/-- Nothing was stored, or an identity of the order under its hash. -/
def StoredIdentity (P : Platform) (reuse : RunReuse) (o : WorkOrder) : Prop :=
  (reuse.identity = none ∧ reuse.identityHash = none) ∨
    ∃ identity, reuse.identity = some identity ∧ reuse.identityHash = some (P.reuseIdentityHash identity) ∧
      Service.validateReuseIdentity P o identity = .ok ()

def LookedUp (P : Platform) (s : Database) : Prop :=
  ∀ r ∈ s.runs, r.status.isActive = true → ∀ o ∈ s.orders, o.id = r.workOrderId → StoredIdentity P r.reuse o

theorem validateReuseIdentity_congr {o o' : WorkOrder} (ho : o'.spec = o.spec) (identity : ReuseIdentity) :
    Service.validateReuseIdentity P o' identity = Service.validateReuseIdentity P o identity := by
  unfold Service.validateReuseIdentity Service.identityMatches
  simp only [ho]

theorem StoredIdentity.congr {reuse : RunReuse} {o o' : WorkOrder} (h : StoredIdentity P reuse o)
    (ho : o'.spec = o.spec) : StoredIdentity P reuse o' := by
  rcases h with h | ⟨identity, hid, hhash, hvalid⟩
  · exact Or.inl h
  · exact Or.inr ⟨identity, hid, hhash, by rw [validateReuseIdentity_congr ho]; exact hvalid⟩

/-- The facts of a run whose reuse columns stay. -/
theorem LookedUp.keep (h : LookedUp P s) (hc : Coherent s) (hs : SpecsKept s s') {r r' : ExecutionRun} (hr : r ∈ s.runs)
    (hact : r.status.isActive = true) (hof : r'.workOrderId = r.workOrderId) (hreuse : r'.reuse = r.reuse) :
    ∀ o ∈ s'.orders, o.id = r'.workOrderId → StoredIdentity P r'.reuse o := by
  intro o' ho' hid'
  obtain ⟨o, ho, hid⟩ := hc.runOrder r hr
  have hkey : o'.id = o.id := by rw [hid', hof, hid]
  rw [hreuse]
  exact (h r hr hact o ho hid).congr (hs.moves o ho o' ho' hkey)

theorem Effect.lookedUp (he : Effect P scope now s s') (hk : Keys s) (hc : Coherent s) (h : LookedUp P s) :
    LookedUp P s' := by
  have hs := he.specs hk
  have hsame : ∀ r ∈ s.runs, r.status.isActive = true → ∀ o ∈ s'.orders, o.id = r.workOrderId →
      StoredIdentity P r.reuse o := fun r hr hact => h.keep hc hs hr hact rfl rfl
  cases he with
  | idle => exact h
  | manifest | insertWorker | updateWorker | insertProfile | rewriteProfile | createOrder | moveOrder => exact hsame
  | claim w o q count pin expiresAt profiles hcl =>
    intro r hr hact
    rcases List.mem_append.1 hr with hr | hr
    · exact hsame r hr hact
    · -- a new run has looked up nothing
      rw [List.mem_singleton.1 hr]
      exact fun _ _ _ => Or.inl ⟨rfl, rfl⟩
  | heartbeat l r o expiresAt hb =>
    intro r' hr' hact
    rcases of_mem_put hr' with rfl | ⟨hr', -⟩
    · exact h.keep hc hs hb.run hb.runActive (settledRun_workOrderId .consumed r) (settledRun_reuse .consumed r)
    · exact hsame r' hr' hact
  | close outcome l r o w profiles hcl =>
    intro r' hr' hact
    rcases of_mem_put hr' with rfl | ⟨hr', -⟩
    · have hterm : (outcome.run now (settledRun .released r)).status.isTerminal = true := hcl.run_terminal _
      rw [ExecutionRunStatus.not_active_of_terminal hterm] at hact
      cases hact
    · exact hsame r' hr' hact
  | resolve l r o identity selected hr hres =>
    intro r' hr' hact
    rcases of_mem_put hr' with rfl | ⟨hr', -⟩
    · intro o' ho' hid'
      have hb := hc.backed hk hr.lease hr.run hr.order hr.runId hr.orderId
      obtain rfl : o' = o := hk.orders.unique.eq_of_key ho' hr.order (hid'.trans hb.ofOrder)
      exact Or.inr ⟨identity, rfl, rfl, hr.valid⟩
    · exact hsame r' hr' hact

/-! ## Commits of orders -/

/-- What an order asks for comes from an order that was there, or it was just created. -/
theorem Effect.order_specs (he : Effect P scope now s s') :
    ∀ o' ∈ s'.orders, (∃ o ∈ s.orders, o'.spec = o.spec) ∨
      ((∃ sha, o'.spec.commitSha = P.lower sha) ∧ NamesManifest s o') := by
  have hsame : ∀ o' ∈ s.orders, (∃ o ∈ s.orders, o'.spec = o.spec) ∨
      ((∃ sha, o'.spec.commitSha = P.lower sha) ∧ NamesManifest s o') := fun o' ho' => Or.inl ⟨o', ho', rfl⟩
  have hput : ∀ o o' : WorkOrder, o ∈ s.orders → o'.spec = o.spec →
      ∀ x ∈ put o' s.orders, (∃ o ∈ s.orders, x.spec = o.spec) ∨
        ((∃ sha, x.spec.commitSha = P.lower sha) ∧ NamesManifest s x) := by
    intro o o' ho hspec x hx
    rcases of_mem_put hx with rfl | ⟨hx, -⟩
    · exact Or.inl ⟨o, ho, hspec⟩
    · exact hsame x hx
  cases he with
  | idle => exact hsame
  | manifest | insertWorker | updateWorker | insertProfile | rewriteProfile | resolve => exact hsame
  | createOrder o _ _ _ _ _ hsha hmanifest =>
    intro x hx
    rcases List.mem_append.1 hx with hx | hx
    · exact hsame x hx
    · rw [List.mem_singleton.1 hx]; exact Or.inr ⟨hsha, hmanifest⟩
  | moveOrder o o' ho hm => exact hput o o' ho hm.spec
  | claim w o q count pin expiresAt profiles hcl => exact hput o _ hcl.order rfl
  | heartbeat l r o expiresAt hb => exact hput o _ hb.order (settledOrder_spec .consumed r o)
  | close outcome l r o w profiles hcl =>
    refine hput o _ hcl.order ?_
    rw [outcome_order_spec, settledOrder_spec]

theorem Effect.shaLowered (he : Effect P scope now s s') (h : ∀ o ∈ s.orders, ∃ sha, o.spec.commitSha = P.lower sha) :
    ∀ o ∈ s'.orders, ∃ sha, o.spec.commitSha = P.lower sha := by
  intro o' ho'
  rcases he.order_specs o' ho' with ⟨o, ho, hspec⟩ | ⟨hsha, -⟩
  · rw [hspec]; exact h o ho
  · exact hsha

/-- What the service keeps about the leased runs and their orders. -/
structure WorkerFacing (P : Platform) (s : Database) : Prop where
  keys : Keys s
  coherent : Coherent s
  lookedUp : LookedUp P s
  sha : ∀ o ∈ s.orders, ∃ sha, o.spec.commitSha = P.lower sha

theorem runCalls_workerFacing (P : Platform) (calls : List Call) : WorkerFacing P (runCalls P calls).db := by
  have hinit : WorkerFacing P Database.init :=
    ⟨Keys.init, Coherent.init, by simp [LookedUp, Database.init], by simp [Database.init]⟩
  refine runCalls_invariant hinit (fun he _ h => ?_) calls
  exact ⟨he.keys h.keys, he.coherent h.keys h.coherent, he.lookedUp h.keys h.coherent h.lookedUp, he.shaLowered h.sha⟩

/-! ## Reuse columns -/

/-- The run `runId` keeps its reuse columns as long as it is active. -/
def RunColumnsKept (runId : ℕ) (s s' : Database) : Prop :=
  RowsMove (fun r r' : ExecutionRun => r.id = runId → r'.status.isActive = true → r'.reuse = r.reuse ∧
    r.status.isActive = true) s.runs s'.runs

theorem RunColumnsKept.refl (hk : Keys s) : RunColumnsKept runId s s :=
  RowsMove.refl hk.runs.unique fun _ _ h => ⟨rfl, h⟩

theorem RunColumnsKept.trans {s₁ s₂ s₃ : Database} (h : RunColumnsKept runId s₁ s₂) (h' : RunColumnsKept runId s₂ s₃) :
    RunColumnsKept runId s₁ s₃ := by
  constructor
  · intro x hx
    obtain ⟨y, hy, hyx⟩ := h.kept x hx
    obtain ⟨z, hz, hzy⟩ := h'.kept y hy
    exact ⟨z, hz, hzy.trans hyx⟩
  · intro x hx z hz hzx hid hact
    obtain ⟨y, hy, hyx⟩ := h.kept x hx
    have hyid : y.id = runId := Eq.trans hyx hid
    obtain ⟨hzy, hyact⟩ := h'.moves y hy z hz (hzx.trans hyx.symm) hyid hact
    obtain ⟨hyx', hxact⟩ := h.moves x hx y hy hyx hid hyact
    exact ⟨hzy.trans hyx', hxact⟩

/-- Only a lookup of the run writes them. -/
theorem Effect.runColumnsKept (he : Effect P scope now s s') (hk : Keys s) (hscope : scope.resolves runId = false) :
    RunColumnsKept runId s s' := by
  have hu := hk.runs.unique
  cases he with
  | idle => exact .refl hk
  | manifest | insertWorker | updateWorker | insertProfile | rewriteProfile | createOrder | moveOrder => exact .refl hk
  | claim w o q count pin expiresAt profiles hcl =>
    refine RowsMove.append hu (fun _ _ h => ⟨rfl, h⟩) fun x hx => ?_
    exact Nat.ne_of_lt (lt_nextId hx)
  | heartbeat l r o expiresAt hb =>
    refine RowsMove.put hu (fun _ _ h => ⟨rfl, h⟩) hb.run (settledRun_id .consumed r).symm fun _ _ => ?_
    exact ⟨settledRun_reuse .consumed r, hb.runActive⟩
  | close outcome l r o w profiles hcl =>
    have hid : (outcome.run now (settledRun .released r)).id = r.id := by rw [outcome_run_id, settledRun_id]
    refine RowsMove.put hu (fun _ _ h => ⟨rfl, h⟩) hcl.run hid.symm fun _ hact => ?_
    have hterm : (outcome.run now (settledRun .released r)).status.isTerminal = true := hcl.run_terminal _
    rw [ExecutionRunStatus.not_active_of_terminal hterm] at hact
    cases hact
  | resolve l r o identity selected hr hres =>
    refine RowsMove.put hu (fun _ _ h => ⟨rfl, h⟩) hr.run rfl fun hid _ => ?_
    rw [hid, hscope] at hres; cases hres

theorem Steps.runColumnsKept {ts : List Time} (h : Steps P scope ts ss ss') (hk : Keys ss.db)
    (hscope : scope.resolves runId = false) : RunColumnsKept runId ss.db ss'.db := by
  induction h with
  | nil => exact .refl hk
  | cons b _ ih => exact (b.effect.runColumnsKept hk hscope).trans (ih (b.effect.keys hk))

theorem step_runColumnsKept (hk : Keys ss.db) {c : Call} (hscope : c.operation.scope.resolves runId = false) :
    RunColumnsKept runId ss.db (step P ss c).db := by
  obtain ⟨_, _, -, -, hs⟩ := step_runs (P := P) hk c
  exact hs.runColumnsKept hk hscope

theorem Operation.resolves_other {op : Operation}
    (h : ∀ workerId identity identityHash, op ≠ .resolveReuseCandidate runId workerId identity identityHash) :
    op.scope.resolves runId = false := by
  cases op with
  | resolveReuseCandidate id workerId identity identityHash =>
    show (runId == id) = false
    by_contra hne
    obtain rfl : runId = id := by simpa using hne
    exact h _ _ _ rfl
  | _ => rfl

theorem calls_runColumnsKept {calls : List Call}
    (h : ∀ c ∈ calls, ∀ workerId identity identityHash,
      c.operation ≠ .resolveReuseCandidate runId workerId identity identityHash) (hk : Keys ss.db) :
    RunColumnsKept runId ss.db (calls.foldl (step P) ss).db := by
  induction calls generalizing ss with
  | nil => exact .refl hk
  | cons c calls ih =>
    have hscope := Operation.resolves_other (h c List.mem_cons_self)
    obtain ⟨_, hr⟩ := step_runs (P := P) hk c
    exact (step_runColumnsKept hk hscope).trans (ih (fun d hd => h d (List.mem_cons_of_mem _ hd)) (hr.keys hk))

/-! ## What a lookup leaves on its run -/

theorem validatedReuseCandidate_identity {src : ExecutionRun} {o : WorkOrder} {expected : ReuseIdentity}
    {c : ReuseCandidate} (h : Service.validatedReuseCandidate P src o expected now s = some c) :
    c.reuseIdentity = expected ∧ c.reuseIdentityHash = P.reuseIdentityHash expected := by
  unfold Service.validatedReuseCandidate at h
  simp only [Option.bind_eq_bind, Option.bind_eq_some_iff, Option.guard_eq_some', Option.pure_def,
    Option.some.injEq] at h
  obtain ⟨e, -, stored, -, retention, -, f, -, worker, -, provenance, -, hash, hhash, _, heligible, _, -, rfl⟩ := h
  simp only [Service.eligibleSource, Bool.and_eq_true, beq_iff_eq] at heligible
  have hstored : stored = expected := by tauto
  have hidhash : src.reuse.identityHash = some (P.reuseIdentityHash stored) := by tauto
  rw [hhash, Option.some.injEq] at hidhash
  exact ⟨hstored, by rw [← hstored]; exact hidhash⟩

/-- The run holds the candidate that it was offered. -/
theorem resolveReuseCandidate_held {env : Env} {workerId : String} {identity : ReuseIdentity} {identityHash : String}
    {result : ReuseCandidateResult} {candidate : ReuseCandidate} (hk : Keys ss.db)
    (h : Service.resolveReuseCandidate P env runId workerId identity identityHash ss = .ok (result, ss'))
    (hc : result.candidate = some candidate) :
    candidate.reuseIdentity = identity ∧ candidate.reuseIdentityHash = P.reuseIdentityHash identity ∧
      ∃ r ∈ ss'.db.runs, r.id = runId ∧ r.reuse.candidateMetadata = some candidate := by
  unfold Service.resolveReuseCandidate at h
  simp only [bind_ok, require_ok, read_ok, requireSome_ok, query_ok, exec_ok, pure_ok] at h
  obtain ⟨_, _, ⟨-, rfl⟩, _, _, ⟨rfl, rfl⟩, l, _, ⟨-, rfl⟩, _, _, ⟨-, rfl⟩, o, _, ⟨-, rfl⟩, _, _,
    ⟨-, rfl⟩, _, _, ⟨-, rfl⟩, _, _, ⟨rfl, rfl⟩, _, _, ⟨rfl, rfl⟩, _, _, ⟨hupd, rfl⟩, rfl, rfl⟩ := h
  obtain ⟨r, hrm, hrid, -, he⟩ := finishActiveRun_ok hupd hk.runs.unique fun _ => rfl
  obtain ⟨⟨src, srcOrder⟩, -, hvalid⟩ := List.exists_of_findSome?_eq_some hc
  obtain ⟨hid, hhash⟩ := validatedReuseCandidate_identity hvalid
  refine ⟨hid, hhash, Service.resolvedRun identity identityHash
    (Service.selectReuseCandidate P o workerId identity identityHash runId (env.clock 0) ss.db) r, ?_, hrid, hc⟩
  have hruns := congrArg Database.runs he
  exact Eq.subst hruns.symm (mem_put_self hrm rfl) (motive := fun runs => _ ∈ runs)

/-- The candidate of the last lookup stays on the run while it is active. -/
theorem runCalls_candidateHeld {before after : List Call} {env : Env} {workerId : String} {identity : ReuseIdentity}
    {identityHash : String} {result : ReuseCandidateResult} {candidate : ReuseCandidate} {r : ExecutionRun}
    (h : Service.resolveReuseCandidate P env runId workerId identity identityHash (runCalls P before) = .ok (result, ss'))
    (hc : result.candidate = some candidate)
    (hafter : ∀ c ∈ after, ∀ workerId identity identityHash,
      c.operation ≠ .resolveReuseCandidate runId workerId identity identityHash)
    (hr : r ∈ (runCalls P (before ++ ⟨env, .resolveReuseCandidate runId workerId identity identityHash⟩ :: after)).db.runs)
    (hid : r.id = runId) (hact : r.status.isActive = true) :
    r.reuse.candidateMetadata = some candidate ∧ candidate.reuseIdentity = identity ∧
      candidate.reuseIdentityHash = P.reuseIdentityHash identity := by
  have hk := runCalls_keys P before
  obtain ⟨hcid, hchash, r₀, hr₀, hid₀, hcand⟩ := resolveReuseCandidate_held hk h hc
  have hstep : step P (runCalls P before) ⟨env, .resolveReuseCandidate runId workerId identity identityHash⟩ = ss' := by
    refine commit_of_ok (a := ()) ?_
    simp only [Call.transaction, bind_ok, pure_ok]
    exact ⟨result, ss', h, trivial, rfl⟩
  obtain ⟨_, hruns⟩ := step_runs (P := P) hk ⟨env, .resolveReuseCandidate runId workerId identity identityHash⟩
  rw [hstep] at hruns
  have hkept := calls_runColumnsKept (P := P) hafter (hruns.keys hk)
  unfold runCalls at hr
  rw [List.foldl_append, List.foldl_cons] at hr
  rw [show step P (before.foldl (step P) ⟨Database.init, []⟩) _ = ss' from hstep] at hr
  obtain ⟨hreuse, -⟩ := hkept.moves r₀ hr₀ r hr (hid.trans hid₀.symm) hid₀ hact
  rw [hreuse]
  exact ⟨hcand, hcid, hchash⟩

end Switchboard
