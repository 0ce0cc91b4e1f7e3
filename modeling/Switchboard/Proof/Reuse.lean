import Mathlib.Data.Option.Basic
import Switchboard.Proof.Transitions

/-!
# Reuse provenance

* `validatedReuseCandidate_some`, `selectReuseCandidate_some`: what a candidate offered
  to a worker says about its source.
* `reuseCompletionValues_ok`: what the reuse columns of a finished run rest on.
* `ReuseFacts`: the candidate held by an active run, and the link of a finished one,
  name a source that succeeded by itself.
* `runCalls_reuse`: reuse provenance is sound in every reachable state.
-/

namespace Switchboard

open Table Transaction

variable {P : Platform} {scope : Scope} {s s' : Database} {now : Time}

/-- Two orders ask for the same work. -/
structure SameWork (a b : WorkOrderSpec) : Prop where
  repository : b.repositoryFullName = a.repositoryFullName
  commit : b.commitSha = a.commitSha
  manifestName : b.manifestName = a.manifestName
  manifestVersion : b.manifestVersion = a.manifestVersion
  manifestDigest : b.manifestDigest = a.manifestDigest
  policyHash : b.executionPolicyHash = a.executionPolicyHash

/-- `src` is a source for run `r` of an order `spec`: another run of the same worker that succeeded by
itself on the same work, under this identity and with this evidence. -/
structure ReuseSource (s : Database) (r : ExecutionRun) (spec : WorkOrderSpec) (src : ExecutionRun)
    (identity : ReuseIdentity) (fingerprint : String) : Prop where
  mem : src ∈ s.runs
  other : src.id ≠ r.id
  worker : src.workerId = r.workerId
  succeeded : src.status = .succeeded
  fresh : src.reuse.decision = .fresh
  root : src.reuse.reusedFromRunId = none
  identity : src.reuse.identity = some identity
  evidence : ∃ e, src.evidenceMetadata = some e ∧ e.fingerprint = fingerprint
  finished : src.finishedAt.isSome = true
  order : ∃ o ∈ s.orders, o.id = src.workOrderId ∧ SameWork spec o.spec

/-! ## Candidates -/

/-- **A validated candidate describes its source.** -/
theorem validatedReuseCandidate_some {src : ExecutionRun} {o : WorkOrder} {expected : ReuseIdentity}
    {c : ReuseCandidate} (h : Service.validatedReuseCandidate P src o expected now s = some c) :
    c.sourceRunId = src.id ∧ src.status = .succeeded ∧ src.reuse.decision = .fresh ∧
      src.reuse.reusedFromRunId = none ∧ src.reuse.identity = some c.reuseIdentity ∧
      (∃ e, src.evidenceMetadata = some e ∧ e.fingerprint = c.expectedSourceEvidenceFingerprint) ∧
      src.finishedAt.isSome = true := by
  unfold Service.validatedReuseCandidate at h
  simp only [Option.bind_eq_bind, Option.bind_eq_some_iff, Option.guard_eq_some', Option.pure_def,
    Option.some.injEq] at h
  obtain ⟨e, he, stored, hstored, retention, -, f, hf, worker, -, provenance, -, hash, -, _, heligible, _, -, rfl⟩ := h
  simp only [Service.eligibleSource, Bool.and_eq_true, beq_iff_eq, Option.isNone_iff_eq_none] at heligible
  have hst : src.status = .succeeded := by tauto
  have hdecision : src.reuse.decision = .fresh := by tauto
  have hroot : src.reuse.reusedFromRunId = none := by tauto
  exact ⟨rfl, hst, hdecision, hroot, hstored, ⟨e, he, rfl⟩, by rw [hf]; rfl⟩

/-- The rows that the candidate query joins and compares. -/
theorem listExactReuseCandidates_mem {order o : WorkOrder} {workerId hash : String} {runId : ℕ}
    {src : ExecutionRun} (h : (src, o) ∈ Repository.listExactReuseCandidates order workerId hash runId s) :
    src ∈ s.runs ∧ o ∈ s.orders ∧ o.id = src.workOrderId ∧ src.id ≠ runId ∧ src.workerId = workerId ∧
      SameWork order.spec o.spec := by
  unfold Repository.listExactReuseCandidates at h
  have hm := List.mem_reverse.1 (List.mem_of_mem_take h)
  obtain ⟨hjoin, hwhere⟩ := List.mem_filter.1 hm
  obtain ⟨x, hx, hpair⟩ := List.mem_flatMap.1 hjoin
  obtain ⟨y, hy, he⟩ := List.mem_map.1 hpair
  obtain ⟨rfl, rfl⟩ := Prod.mk.inj he
  obtain ⟨hyo, hyid⟩ := List.mem_filter.1 hy
  simp only [Bool.and_eq_true, beq_iff_eq, bne_iff_ne, ne_eq] at hwhere
  obtain ⟨⟨⟨⟨⟨⟨⟨⟨⟨⟨hne, hworker⟩, -⟩, -⟩, -⟩, h₁⟩, h₂⟩, h₃⟩, h₄⟩, h₅⟩, h₆⟩ := hwhere
  exact ⟨hx, hyo, (beq_iff_eq.1 hyid).symm, hne, hworker, ⟨h₁, h₂, h₃, h₄, h₅, h₆⟩⟩

/-- **The candidate offered to a run has a source.** -/
theorem selectReuseCandidate_some {order : WorkOrder} {workerId : String} {identity : ReuseIdentity} {hash : String}
    {r : ExecutionRun} {c : ReuseCandidate} (hworker : workerId = r.workerId)
    (h : Service.selectReuseCandidate P order workerId identity hash r.id now s = some c) :
    ∃ src, src.id = c.sourceRunId ∧
      ReuseSource s r order.spec src c.reuseIdentity c.expectedSourceEvidenceFingerprint := by
  unfold Service.selectReuseCandidate at h
  obtain ⟨⟨src, o⟩, hm, hc⟩ := List.exists_of_findSome?_eq_some h
  obtain ⟨hsrc, ho, hoid, hne, hw, hsame⟩ := listExactReuseCandidates_mem hm
  obtain ⟨hid, hst, hdec, hroot, hident, hev, hfin⟩ := validatedReuseCandidate_some hc
  exact ⟨src, hid.symm, hsrc, hne, hw.trans hworker, hst, hdec, hroot, hident, hev, hfin, o, ho, hoid, hsame⟩

/-! ## Completions -/

/-- **What the reuse columns of a completion rest on.** -/
theorem reuseCompletionValues_ok {n : LeaseSnapshot} {completion : ExecutionCompletion} {reuse : RunReuse}
    {r : ExecutionRun} {o : WorkOrder} (hk : Keys s) (hr : r ∈ s.runs) (hrid : r.id = n.executionRunId)
    (ho : o ∈ s.orders) (hoid : o.id = n.workOrderId)
    (h : Service.reuseCompletionValues P n completion s = .ok reuse) :
    (reuse.decision = .reused → ∃ c, r.reuse.candidateMetadata = some c ∧
      reuse.identity = some c.reuseIdentity ∧ reuse.reusedFromRunId = some c.sourceRunId ∧
      reuse.sourceEvidenceFingerprint = some c.expectedSourceEvidenceFingerprint) ∧
    (o.spec.reusePolicy = .requireExact → completion.status = .succeeded → reuse.decision = .reused) := by
  unfold Service.reuseCompletionValues Service.reuseColumns at h
  simp only [except_bind_ok, ensure_ok, except_pure_ok] at h
  obtain ⟨r₀, hr₀, o₀, ho₀, decision, hdecision, _, -, _, -, source, hsource, _, -, rfl⟩ := h
  obtain ⟨hr₀m, hr₀id⟩ := requireRun_ok hr₀
  obtain ⟨ho₀m, ho₀id⟩ := requireWorkOrder_ok ho₀
  obtain rfl : r₀ = r := hk.runs.unique.eq_of_key hr₀m hr (hr₀id.trans hrid.symm)
  obtain rfl : o₀ = o := hk.orders.unique.eq_of_key ho₀m ho (ho₀id.trans hoid.symm)
  constructor
  · intro hreused
    have hd : decision = .reused := hreused
    unfold Service.reuseSource at hsource
    rw [if_pos hd] at hsource
    split at hsource
    · rename_i c i hc hi
      simp only [except_bind_ok, ensure_ok, except_pure_ok, Bool.and_eq_true, beq_iff_eq] at hsource
      obtain ⟨_, ⟨hident, -⟩, rfl⟩ := hsource
      exact ⟨c, hc, by rw [hident]; exact hi, rfl, rfl⟩
    · cases hsource
  · intro hpolicy hsucceeded
    show decision = .reused
    unfold Service.checkDecision at hdecision
    split at hdecision
    · rename_i d hd
      simp only [except_bind_ok, ensure_ok, except_pure_ok, Bool.or_eq_true, beq_iff_eq, Bool.not_eq_true',
        Bool.and_eq_false_iff, beq_eq_false_iff_ne, ne_eq] at hdecision
      obtain ⟨_, hvalid, _, hfresh, _, -, _, hunavailable, rfl⟩ := hdecision
      -- fresh is forbidden, and an unavailable run cannot succeed
      tauto
    · cases hdecision

/-! ## The invariant -/

/-- What the reuse columns of a run of an order `spec` say. -/
structure ReuseFacts (s : Database) (r : ExecutionRun) (spec : WorkOrderSpec) : Prop where
  candidate : r.status.isActive = true → ∀ c, r.reuse.candidateMetadata = some c →
    spec.reusePolicy ≠ .never ∧ ∃ src, src.id = c.sourceRunId ∧
      ReuseSource s r spec src c.reuseIdentity c.expectedSourceEvidenceFingerprint
  undecided : r.status.isActive = true → r.reuse.decision ≠ .reused
  reused : r.reuse.decision = .reused → spec.reusePolicy ≠ .never ∧
    ∃ src identity fingerprint, ReuseSource s r spec src identity fingerprint ∧
      r.reuse.reusedFromRunId = some src.id ∧ r.reuse.identity = some identity ∧
      r.reuse.sourceEvidenceFingerprint = some fingerprint ∧
      ∃ f f', src.finishedAt = some f ∧ r.finishedAt = some f' ∧ f ≤ f'
  exact : spec.reusePolicy = .requireExact → r.status = .succeeded → r.reuse.decision = .reused

/-- The reuse columns of every run are sound for its order. -/
def ReuseOK (s : Database) : Prop := ∀ r ∈ s.runs, ∃ o ∈ s.orders, o.id = r.workOrderId ∧ ReuseFacts s r o.spec

/-- Every run that finished did so by `t`. -/
def FinishedBy (t : Time) (s : Database) : Prop := ∀ r ∈ s.runs, ∀ f, r.finishedAt = some f → f ≤ t

/-- An order keeps its creation-time columns. -/
def SameSpec (o o' : WorkOrder) : Prop := o'.spec = o.spec

def SpecsKept (s s' : Database) : Prop := RowsMove SameSpec s.orders s'.orders

/-- A source is terminal, so it stays one. -/
theorem ReuseSource.keep {r r' src : ExecutionRun} {spec : WorkOrderSpec} {identity : ReuseIdentity}
    {fingerprint : String} (h : ReuseSource s r spec src identity fingerprint) (hf : Frozen s s') (hs : SpecsKept s s')
    (hid : r'.id = r.id) (hw : r'.workerId = r.workerId) : ReuseSource s' r' spec src identity fingerprint := by
  obtain ⟨o, ho, hoid, hsame⟩ := h.order
  obtain ⟨o', ho', hid'⟩ := hs.kept o ho
  have hspec : o'.spec = o.spec := hs.moves o ho o' ho' hid'
  refine { h with
    mem := hf.run_mem h.mem (by rw [h.succeeded]; rfl)
    other := hid ▸ h.other
    worker := h.worker.trans hw.symm
    order := ⟨o', ho', Eq.trans hid' hoid, ?_⟩ }
  rw [hspec]; exact hsame

theorem ReuseFacts.keep {r : ExecutionRun} {spec : WorkOrderSpec} (h : ReuseFacts s r spec) (hf : Frozen s s')
    (hs : SpecsKept s s') : ReuseFacts s' r spec := by
  refine ⟨fun hact c hc => ?_, h.undecided, fun hr => ?_, h.exact⟩
  · obtain ⟨hp, src, hid, hsrc⟩ := h.candidate hact c hc
    exact ⟨hp, src, hid, hsrc.keep hf hs rfl rfl⟩
  · obtain ⟨hp, src, identity, fingerprint, hsrc, hrest⟩ := h.reused hr
    exact ⟨hp, src, identity, fingerprint, hsrc.keep hf hs rfl rfl, hrest⟩

/-- The facts of the runs that an effect leaves alone. -/
theorem ReuseOK.keep (h : ReuseOK s) (hf : Frozen s s') (hs : SpecsKept s s') {r : ExecutionRun} (hr : r ∈ s.runs) :
    ∃ o ∈ s'.orders, o.id = r.workOrderId ∧ ReuseFacts s' r o.spec := by
  obtain ⟨o, ho, hid, hfacts⟩ := h r hr
  obtain ⟨o', ho', hid'⟩ := hs.kept o ho
  refine ⟨o', ho', Eq.trans hid' hid, ?_⟩
  rw [hs.moves o ho o' ho' hid']
  exact hfacts.keep hf hs

/-- A row that reuses nothing and did not succeed. -/
theorem ReuseFacts.of_undecided {r : ExecutionRun} {spec : WorkOrderSpec} (hd : r.reuse.decision ≠ .reused)
    (hst : r.status ≠ .succeeded) (hc : r.status.isActive = true → ∀ c, r.reuse.candidateMetadata = some c →
      spec.reusePolicy ≠ .never ∧ ∃ src, src.id = c.sourceRunId ∧
        ReuseSource s r spec src c.reuseIdentity c.expectedSourceEvidenceFingerprint) : ReuseFacts s r spec :=
  ⟨hc, fun _ => hd, fun h => absurd h hd, fun _ h => absurd h hst⟩

theorem ReuseOK.append (h : ReuseOK s) (hf : Frozen s s') (hs : SpecsKept s s') {r' : ExecutionRun}
    (hr : s'.runs = s.runs ++ [r']) (hnew : ∃ o ∈ s'.orders, o.id = r'.workOrderId ∧ ReuseFacts s' r' o.spec) :
    ReuseOK s' := by
  intro x hx
  rw [hr] at hx
  rcases List.mem_append.1 hx with hx | hx
  · exact h.keep hf hs hx
  · rw [List.mem_singleton.1 hx]; exact hnew

/-- The row of a run was rewritten; its order is the one it had. -/
theorem ReuseOK.rewrite (h : ReuseOK s) (hk : Keys s) (hf : Frozen s s') (hs : SpecsKept s s') {r : ExecutionRun}
    {o : WorkOrder} (r' : ExecutionRun) (hr : s'.runs = put r' s.runs) (hrm : r ∈ s.runs) (ho : o ∈ s.orders)
    (hof : r.workOrderId = o.id) (hw : r'.workOrderId = r.workOrderId)
    (hnew : ReuseFacts s r o.spec → ReuseFacts s' r' o.spec) : ReuseOK s' := by
  intro x hx
  rw [hr] at hx
  rcases of_mem_put hx with rfl | ⟨hx, -⟩
  · obtain ⟨o₀, ho₀, hid₀, hfacts⟩ := h r hrm
    obtain rfl : o₀ = o := hk.orders.unique.eq_of_key ho₀ ho (hid₀.trans hof)
    obtain ⟨o', ho', hid'⟩ := hs.kept o₀ ho
    refine ⟨o', ho', Eq.trans hid' (hid₀.trans hw.symm), ?_⟩
    rw [hs.moves o₀ ho o' ho' hid']
    exact hnew hfacts
  · exact h.keep hf hs hx

/-! ## Effects -/

theorem specs_same (hk : Keys s) : SpecsKept s s := RowsMove.refl (R := SameSpec) hk.orders.unique fun _ => rfl

theorem specs_put (hk : Keys s) {o o' : WorkOrder} (ho : o ∈ s.orders) (hid : o'.id = o.id) (h : o'.spec = o.spec) :
    RowsMove SameSpec s.orders (put o' s.orders) :=
  RowsMove.put (R := SameSpec) hk.orders.unique (fun _ => rfl) ho hid.symm h

/-- No effect rewrites what an order asks for. -/
theorem Effect.specs (he : Effect P scope now s s') (hk : Keys s) : SpecsKept s s' := by
  have hsame := specs_same hk
  cases he with
  | idle => exact hsame
  | manifest | insertWorker | updateWorker | insertProfile | rewriteProfile | resolve => exact hsame
  | createOrder o hid =>
    refine RowsMove.append (R := SameSpec) hk.orders.unique (fun _ => rfl) fun x hx => ?_
    rw [key_order o, hid]
    exact Nat.ne_of_lt (lt_nextId hx)
  | moveOrder o o' ho hm => exact specs_put hk ho hm.id hm.spec
  | claim w o q count pin expiresAt profiles hcl => exact specs_put hk hcl.order rfl rfl
  | heartbeat l r o expiresAt hb =>
    exact specs_put hk hb.order (settledOrder_id .consumed r o) (settledOrder_spec .consumed r o)
  | close outcome l r o w profiles hcl =>
    refine specs_put hk hcl.order ?_ ?_
    · rw [outcome_order_id, settledOrder_id]
    · rw [outcome_order_spec, settledOrder_spec]

theorem settledRun_reuse (q : QuotaReservationState) (r : ExecutionRun) : (settledRun q r).reuse = r.reuse := by
  unfold settledRun; split <;> rfl

theorem settledRun_finishedAt (q : QuotaReservationState) (r : ExecutionRun) :
    (settledRun q r).finishedAt = r.finishedAt := by
  unfold settledRun; split <;> rfl

theorem ExecutionRunStatus.ne_succeeded_of_active {st : ExecutionRunStatus} (h : st.isActive = true) :
    st ≠ .succeeded := by
  rintro rfl; cases h

theorem ReuseOK.close (h : ReuseOK s) (hk : Keys s) (hc : Coherent s) (hfin : FinishedBy now s) {outcome : Outcome}
    {l : Lease} {r : ExecutionRun} {o : WorkOrder} {w : Worker} {profiles : List RoutingProfile}
    (hcl : Closing P s outcome l r o w profiles)
    (hf : Frozen s (closedDatabase s now outcome l r o w profiles))
    (hs : SpecsKept s (closedDatabase s now outcome l r o w profiles)) :
    ReuseOK (closedDatabase s now outcome l r o w profiles) := by
  have hb := hc.backed hk hcl.lease hcl.run hcl.order hcl.runId hcl.orderId
  set r' := outcome.run now (settledRun .released r) with hr'
  have hw : r'.workOrderId = r.workOrderId := by rw [hr', outcome_run_workOrderId, settledRun_workOrderId]
  have hid : r'.id = r.id := by rw [hr', outcome_run_id, settledRun_id]
  have hworker : r'.workerId = r.workerId := by rw [hr', outcome_run_workerId, settledRun_workerId]
  refine h.rewrite hk hf hs r' rfl hcl.run hcl.order hb.ofOrder hw fun hfacts => ?_
  cases outcome with
  | expire =>
    refine .of_undecided ?_ (by intro he; cases he) fun hact => by cases hact
    show (settledRun .released r).reuse.decision ≠ .reused
    rw [settledRun_reuse]; exact hfacts.undecided hcl.runActive
  | finish completion reuse =>
    obtain ⟨hterm, -, hreuse⟩ := hcl.justified
    obtain ⟨hreused, hexact⟩ := reuseCompletionValues_ok hk hcl.run hcl.runId hcl.order hcl.orderId hreuse
    have hnot : r'.status.isActive = true → False := by
      intro hact
      have hact' : completion.status.isActive = true := hact
      rw [ExecutionRunStatus.not_active_of_terminal hterm] at hact'
      cases hact'
    refine ⟨fun hact => (hnot hact).elim, fun hact => (hnot hact).elim, fun hd => ?_, hexact⟩
    -- the link comes from the candidate that the run held
    obtain ⟨c, hcand, hident, hfrom, hprint⟩ := hreused hd
    obtain ⟨hp, src, hsid, hsrc⟩ := hfacts.candidate hcl.runActive c hcand
    obtain ⟨f, hfinished⟩ := Option.isSome_iff_exists.1 hsrc.finished
    refine ⟨hp, src, _, _, hsrc.keep hf hs hid hworker, ?_, hident, hprint, f, now, hfinished, rfl,
      hfin src hsrc.mem f hfinished⟩
    rw [hsid]; exact hfrom

/-- **Every effect keeps the reuse columns sound.** -/
theorem Effect.reuseOK (he : Effect P scope now s s') (hk : Keys s) (hc : Coherent s) (hfin : FinishedBy now s)
    (h : ReuseOK s) : ReuseOK s' := by
  have hf := he.frozen hk
  have hs := he.specs hk
  cases he with
  | idle => exact h
  | manifest | insertWorker | updateWorker | insertProfile | rewriteProfile | createOrder | moveOrder =>
    exact fun r hr => h.keep hf hs hr
  | claim w o q count pin expiresAt profiles hcl =>
    refine h.append hf hs rfl ⟨_, mem_put_self hcl.order rfl, rfl, .of_undecided ?_ ?_ ?_⟩
    · simp only [Repository.activeRun]
      split <;> decide
    · simp only [Repository.activeRun]; decide
    · intro _ c hcand; cases hcand
  | heartbeat l r o expiresAt hb =>
    have hof := (hc.backed hk hb.lease hb.run hb.order hb.runId hb.orderId).ofOrder
    refine h.rewrite hk hf hs ((settledRun .consumed r).started now expiresAt) rfl hb.run hb.order hof
      (settledRun_workOrderId .consumed r) fun hfacts => ?_
    have hreuse : ((settledRun .consumed r).started now expiresAt).reuse = r.reuse := settledRun_reuse .consumed r
    have hact : ((settledRun .consumed r).started now expiresAt).status.isActive = true := by
      rw [settledRun_started_status]; exact started_active hb.runActive
    refine .of_undecided (by rw [hreuse]; exact hfacts.undecided hb.runActive)
      (ExecutionRunStatus.ne_succeeded_of_active hact) fun _ c hcand => ?_
    rw [hreuse] at hcand
    obtain ⟨hp, src, hid, hsrc⟩ := hfacts.candidate hb.runActive c hcand
    exact ⟨hp, src, hid, hsrc.keep hf hs (settledRun_id .consumed r) (settledRun_workerId .consumed r)⟩
  | close outcome l r o w profiles hcl => exact h.close hk hc hfin hcl hf hs
  | resolve l r o identity selected hr =>
    have hb := hc.backed hk hr.lease hr.run hr.order hr.runId hr.orderId
    refine h.rewrite hk hf hs (Service.resolvedRun identity (P.reuseIdentityHash identity) selected r) rfl hr.run
      hr.order hb.ofOrder rfl fun _ => .of_undecided ?_ ?_ ?_
    · simp only [Service.resolvedRun]; split <;> decide
    · exact ExecutionRunStatus.ne_succeeded_of_active hr.runActive
    · intro _ c hcand
      have hsel : selected = some c := hcand
      rw [hr.chosen] at hsel
      obtain ⟨src, hid, hsrc⟩ := selectReuseCandidate_some hb.worker.symm hsel
      exact ⟨hr.policy, src, hid, hsrc.keep hf hs rfl rfl⟩

/-! ## Runs under a nondecreasing clock -/

theorem FinishedBy.put {t : Time} (h : FinishedBy t s) {r' : ExecutionRun} (hr : s'.runs = Table.put r' s.runs)
    (hnew : ∀ f, r'.finishedAt = some f → f ≤ t) : FinishedBy t s' := by
  intro x hx f hf
  rw [hr] at hx
  rcases of_mem_put hx with rfl | ⟨hx, -⟩
  · exact hnew f hf
  · exact h x hx f hf

/-- What finishes at `now` has finished by every later time. -/
theorem Effect.finishedBy (he : Effect P scope now s s') {t : Time} (ht : now ≤ t) (h : FinishedBy t s) :
    FinishedBy t s' := by
  cases he with
  | idle => exact h
  | manifest | insertWorker | updateWorker | insertProfile | rewriteProfile | createOrder | moveOrder => exact h
  | claim w o q count pin expiresAt profiles hcl =>
    intro x hx f hf
    rcases List.mem_append.1 hx with hx | hx
    · exact h x hx f hf
    · rw [List.mem_singleton.1 hx] at hf; cases hf
  | heartbeat l r o expiresAt hb =>
    refine h.put rfl fun f hf => h r hb.run f ?_
    rw [← settledRun_finishedAt .consumed r]; exact hf
  | close outcome l r o w profiles hcl =>
    refine h.put rfl fun f hf => ?_
    have hnow : some now = some f := by cases outcome <;> exact hf
    obtain rfl := Option.some.inj hnow
    exact ht
  | resolve l r o identity selected hr => exact h.put rfl fun f hf => h r hr.run f hf

/-- The reuse provenance of a database. -/
structure ReuseSound (s : Database) : Prop where
  /-- A reused run names a source: another run of the same worker that succeeded by itself, no later,
  on the same work, with the same identity and the recorded evidence. -/
  reused : ∀ r ∈ s.runs, r.reuse.decision = .reused →
    ∃ o ∈ s.orders, o.id = r.workOrderId ∧ ∃ src identity fingerprint,
      ReuseSource s r o.spec src identity fingerprint ∧
      r.reuse.reusedFromRunId = some src.id ∧ r.reuse.identity = some identity ∧
      r.reuse.sourceEvidenceFingerprint = some fingerprint ∧
      ∃ f f', src.finishedAt = some f ∧ r.finishedAt = some f' ∧ f ≤ f'
  never : ∀ r ∈ s.runs, ∀ o ∈ s.orders, o.id = r.workOrderId → o.spec.reusePolicy = .never →
    r.reuse.decision ≠ .reused
  requireExact : ∀ r ∈ s.runs, ∀ o ∈ s.orders, o.id = r.workOrderId → o.spec.reusePolicy = .requireExact →
    r.status = .succeeded → r.reuse.decision = .reused

theorem ReuseOK.sound (h : ReuseOK s) (hk : Keys s) : ReuseSound s := by
  have horder : ∀ r ∈ s.runs, ∀ o ∈ s.orders, o.id = r.workOrderId → ReuseFacts s r o.spec := by
    intro r hr o ho hid
    obtain ⟨o₀, ho₀, hid₀, hfacts⟩ := h r hr
    obtain rfl : o₀ = o := hk.orders.unique.eq_of_key ho₀ ho (hid₀.trans hid.symm)
    exact hfacts
  refine ⟨?_, ?_, ?_⟩
  · intro r hr hd
    obtain ⟨o, ho, hid, hfacts⟩ := h r hr
    exact ⟨o, ho, hid, (hfacts.reused hd).2⟩
  · intro r hr o ho hid hp hd
    exact ((horder r hr o ho hid).reused hd).1 hp
  · intro r hr o ho hid hp hst
    exact (horder r hr o ho hid).exact hp hst

/-- **Reuse provenance is sound and the reuse policy is honoured in every reachable state.** -/
theorem runCalls_reuse (P : Platform) (calls : List Call) (hclock : ClockMonotone calls) :
    ReuseSound (runCalls P calls).db := by
  obtain ⟨ts, hs, hmono⟩ := runCalls_steps P calls
  have h : (Keys (runCalls P calls).db ∧ Coherent (runCalls P calls).db) ∧ ReuseOK (runCalls P calls).db := by
    refine hs.timed_invariant (I := fun s => (Keys s ∧ Coherent s) ∧ ReuseOK s) (J := FinishedBy) ?_ (hmono hclock)
      ⟨⟨Keys.init, Coherent.init⟩, by simp [ReuseOK, Database.init]⟩ (by simp [FinishedBy, Database.init])
    rintro t s s' he ⟨⟨hk, hc⟩, hi⟩ hj
    exact ⟨⟨⟨he.keys hk, he.coherent hk hc⟩, he.reuseOK hk hc hj hi⟩, fun t' ht hj' => he.finishedBy ht hj'⟩
  exact h.2.sound h.1.1

/-! ## A run that reuses -/

def sampleManifest : TrustedManifest :=
  { metadata :=
      { name := "tests", version := "1", schemaVersion := 1, description := "", registrySource := "builtin"
        requiredCapabilities := [], fixedStepMetadata := [], environmentPolicy := []
        networkPolicy := .disabled, repositoryWritePolicy := .readOnly, timeoutSeconds := 600
        artifactDeclarations := [] }
    allowedParameters := [], executionSteps := [], dependencyLockPaths := [], resultContract := none }

def samplePlatform : Platform :=
  { manifests := [sampleManifest], repositories := [⟨"org/repo", [("tests", "1")]⟩]
    manifestDigest := fun _ => "digest", executionPolicyHash := fun _ => "policy"
    reuseIdentityHash := fun _ => "identity", resultContractHash := fun _ => "contract"
    lower := id, digit := fun _ => none }

def sampleSha : String := "0123456789012345678901234567890123456789"

def sampleDraft (policy : ReusePolicy) : WorkOrderDraft :=
  { schemaVersion := 1, repositoryFullName := "org/repo", commitSha := sampleSha, manifestName := "tests"
    manifestVersion := "1", manifestParameters := [], requiredCapabilities := [], permittedPaths := []
    forbiddenScopeNotes := "", expectedArtifactKinds := [], approvalPolicy := .explicit, timeoutSeconds := 600
    resourceMetadata := [], networkPolicy := .disabled, repositoryWriteAllowed := false
    preferredExecutor := none, costCeiling := none, reusePolicy := policy, routingPolicy := .firstAvailable
    maximumCostUnits := none, requiredQuotaUnits := 0 }

def sampleRegistration : WorkerRegistration :=
  { workerId := "w", maxConcurrency := 1, status := .online
    declaration :=
      { displayName := "w", operatingSystem := "linux", architecture := "x64", pythonVersion := none
        nodeVersion := none, pnpmVersion := none, dockerAvailable := false, browsers := []
        gpuAvailable := false, unityAvailable := false, desktopAvailable := false, capabilities := []
        repositoryFullNames := ["org/repo"], networkPolicyCapability := .disabled
        repositoryWriteCapability := false } }

def sampleIdentity : ReuseIdentity :=
  { repositoryFullName := "org/repo", testedSha := sampleSha, manifestName := "tests", manifestVersion := "1"
    manifestDigest := "digest", workerEnvironmentFingerprint := "env", dependencyLockHashes := []
    executionPolicyHash := "policy", resultContractHash := "contract" }

def sampleEvidence (runId workOrderId : ℕ) (provenance : ReuseProvenance) : ExecutionEvidence :=
  { workOrderId := workOrderId, runId := runId, repositoryFullName := "org/repo", testedSha := sampleSha
    manifestName := "tests", manifestVersion := "1", manifestDigest := "digest", workerId := "w"
    environmentFingerprint := "env", dependencyLockHashes := [], startedAt := 0, finishedAt := 1
    terminalStatus := .succeeded, terminalReason := none, artifacts := [], reuseProvenance := some provenance
    fingerprint := "evidence" }

def sampleEnv (t : Time) : Env :=
  { clock := fun _ => t, leaseSeconds := 60, heartbeatFreshnessSeconds := 60, activePollFreshnessSeconds := 60
    fault := fun _ _ => none }

def sampleCalls : List Call :=
  [⟨sampleEnv 0, .registerWorker sampleRegistration⟩,
   ⟨sampleEnv 1, .createWorkOrder (sampleDraft .allowExact)⟩,
   ⟨sampleEnv 2, .approveWorkOrder 1 true⟩,
   ⟨sampleEnv 3, .checkout "w"⟩,
   ⟨sampleEnv 4, .completeRun 1 "w"
      { status := .succeeded, reuseDecision := some .fresh, reuseIdentity := some sampleIdentity
        reuseIdentityHash := some "identity"
        evidenceMetadata := some (sampleEvidence 1 1 ⟨.fresh, "fresh", "identity", none, none⟩)
        evidenceRetentionExpiresAt := some ⟨1000, some 0⟩ }⟩,
   ⟨sampleEnv 5, .createWorkOrder (sampleDraft .requireExact)⟩,
   ⟨sampleEnv 6, .approveWorkOrder 2 true⟩,
   ⟨sampleEnv 7, .checkout "w"⟩,
   ⟨sampleEnv 8, .resolveReuseCandidate 2 "w" sampleIdentity "identity"⟩,
   ⟨sampleEnv 9, .completeRun 2 "w"
      { status := .succeeded, reuseDecision := some .reused, reuseIdentity := some sampleIdentity
        reuseIdentityHash := some "identity" }⟩]

/-- The second order reuses the run of the first. -/
theorem runCalls_reuse_sample :
    ClockMonotone sampleCalls ∧ ReuseSound (runCalls samplePlatform sampleCalls).db ∧
      ((runCalls samplePlatform sampleCalls).db.runs.map fun r =>
        (r.id, r.status, r.reuse.decision, r.reuse.reusedFromRunId)) =
      [(1, .succeeded, .fresh, none), (2, .succeeded, .reused, some 1)] := by
  have hclock : ClockMonotone sampleCalls := by
    constructor
    · intro c hc
      simp only [sampleCalls, List.mem_cons, List.not_mem_nil, or_false] at hc
      rcases hc with rfl | rfl | rfl | rfl | rfl | rfl | rfl | rfl | rfl | rfl <;> exact monotone_const
    · simp [sampleCalls, sampleEnv]
  exact ⟨hclock, runCalls_reuse samplePlatform sampleCalls hclock, by decide +kernel⟩

end Switchboard
