import Switchboard.Proof.Reservations
import Switchboard.Proof.FirstCome

/-!
# Releasable reservations

Giving a reservation back needs one more revision of the worker's profile. So a profile at
revision `r` with `n` reservations outstanding is bound to reach `r + n` when all of them are
released, and every reservation stays releasable as long as that is within the limit.

* `bound`: the revision that a profile is bound to reach.
* `claimCost`: by how much the claim of a run raises it: one revision for the claim, and one for
  the release of what it reserves.
* `Effect.bound`: nothing else raises it, except an edit of an idle profile.
* `runCalls_releasable`: in a run whose claims stay within the limit every reservation is releasable.
-/

namespace Switchboard

open Table Transaction

variable {P : Platform} {scope : Scope} {ss ss' : Session Database} {s s' : Database} {now : Time}

/-! ## What a profile is bound to reach -/

/-- One for a run of the worker that holds a reservation. -/
def holds (workerId : String) (r : ExecutionRun) : ℤ :=
  if r.workerId = workerId ∧ r.route.quotaState = .reserved then 1 else 0

/-- The revisions that the claim of the run needs: its own, and that of the release of its quota. -/
def claimCost (workerId : String) (r : ExecutionRun) : ℤ :=
  if r.workerId = workerId ∧ r.route.profileRevision.isSome = true then
    if r.route.requiredQuotaUnits ≠ 0 then 2 else 1
  else 0

/-- The sum of a column over all runs. -/
def tally (f : ExecutionRun → ℤ) (s : Database) : ℤ := (s.runs.map f).sum

/-- The revision that the profile is bound to reach: each outstanding reservation will be released. -/
def bound (s : Database) (p : RoutingProfile) : ℤ := p.revision + tally (holds p.workerId) s

theorem tally_congr {f : ExecutionRun → ℤ} (h : s'.runs = s.runs) : tally f s' = tally f s := by
  unfold tally
  rw [h]

theorem tally_put {f : ExecutionRun → ℤ} (hk : UniqueKeys s.runs) {r r' : ExecutionRun} (hr : r ∈ s.runs)
    (hid : r'.id = r.id) (h : s'.runs = put r' s.runs) : tally f s' = tally f s - f r + f r' := by
  unfold tally
  rw [h]
  exact sum_put hk hr hid.symm f

theorem tally_append {f : ExecutionRun → ℤ} {r : ExecutionRun} (h : s'.runs = s.runs ++ [r]) :
    tally f s' = tally f s + f r := by
  unfold tally
  rw [h]
  simp

theorem holds_nonneg (workerId : String) (r : ExecutionRun) : 0 ≤ holds workerId r := by
  unfold holds
  split <;> omega

theorem claimCost_nonneg (workerId : String) (r : ExecutionRun) : 0 ≤ claimCost workerId r := by
  unfold claimCost
  split
  · split <;> omega
  · omega

/-- The reservations that `count_reserved_quota_runs` counts. -/
theorem tally_holds (workerId : String) (s : Database) :
    tally (holds workerId) s = Repository.countReservedQuotaRuns workerId s := by
  unfold tally Repository.countReservedQuotaRuns
  induction s.runs with
  | nil => rfl
  | cons r rs ih =>
    rw [List.map_cons, List.sum_cons, ih, List.countP_cons]
    unfold holds
    by_cases h : r.workerId = workerId ∧ r.route.quotaState = .reserved
    · simp [h, add_comm]
    · rw [if_neg h, if_neg (by simpa using h)]
      simp

theorem tally_idle {workerId : String} (h : Idle s workerId) : tally (holds workerId) s = 0 := by
  unfold tally
  refine List.sum_eq_zero fun x hx => ?_
  obtain ⟨r, hr, rfl⟩ := List.mem_map.1 hx
  unfold holds
  rw [if_neg]
  rintro ⟨hid, hq⟩
  exact h r hr hid hq

theorem holds_of_not {workerId : String} {r : ExecutionRun} (h : r.route.quotaState ≠ .reserved) :
    holds workerId r = 0 := by
  unfold holds
  rw [if_neg fun hh => h hh.2]

/-! ## One effect -/

/-- What an effect does to the revisions that the profiles are bound to reach. -/
structure BoundMoves (scope : Scope) (s s' : Database) : Prop where
  /-- A profile is bound by what it was and by the new claims, unless an operator has just written it. -/
  profiles : ∀ p' ∈ s'.profiles, (∃ p ∈ s.profiles, p.workerId = p'.workerId ∧
      bound s' p' ≤ bound s p + (tally (claimCost p'.workerId) s' - tally (claimCost p'.workerId) s)) ∨
    (bound s' p' ≤ maxRoutingRevision ∧ (scope.edits = true ∨ scope.creates = true))
  claims : ∀ workerId, tally (claimCost workerId) s ≤ tally (claimCost workerId) s'
  unclaimed : scope.claims = false → ∀ workerId, tally (claimCost workerId) s' = tally (claimCost workerId) s

/-- Effects that leave the runs and the profiles alone. -/
theorem BoundMoves.same (hp : s'.profiles = s.profiles) (hr : s'.runs = s.runs) : BoundMoves scope s s' := by
  refine ⟨fun p hm => Or.inl ⟨p, hp ▸ hm, rfl, ?_⟩, fun w => by rw [tally_congr hr], fun _ w => tally_congr hr⟩
  unfold bound
  rw [tally_congr hr, tally_congr hr]
  omega

/-- Effects that rewrite one run, whose claim stays what it was. -/
theorem BoundMoves.rewrite (hk : Keys s) {r : ExecutionRun} (r' : ExecutionRun) (hr : r ∈ s.runs) (hid : r'.id = r.id)
    (hruns : s'.runs = put r' s.runs) (hcost : ∀ w, claimCost w r' = claimCost w r)
    (hprofiles : ∀ p' ∈ s'.profiles, ∃ p ∈ s.profiles, p.workerId = p'.workerId ∧
      p'.revision + holds p'.workerId r' ≤ p.revision + holds p'.workerId r) : BoundMoves scope s s' := by
  have hclaims : ∀ w, tally (claimCost w) s' = tally (claimCost w) s := by
    intro w
    rw [tally_put hk.runs.unique hr hid hruns, hcost]
    omega
  refine ⟨fun p' hp' => ?_, fun w => (hclaims w).ge, fun _ => hclaims⟩
  obtain ⟨p, hp, hw, hle⟩ := hprofiles p' hp'
  refine Or.inl ⟨p, hp, hw, ?_⟩
  unfold bound
  rw [hclaims, hw, tally_put hk.runs.unique hr hid hruns]
  omega

theorem claimCost_congr {r r' : ExecutionRun} (hworker : r'.workerId = r.workerId)
    (hrevision : r'.route.profileRevision = r.route.profileRevision)
    (hunits : r'.route.requiredQuotaUnits = r.route.requiredQuotaUnits) (w : String) :
    claimCost w r' = claimCost w r := by
  unfold claimCost
  rw [hworker, hrevision, hunits]

theorem settledRun_claim (q : QuotaReservationState) (r : ExecutionRun) :
    (settledRun q r).route.profileRevision = r.route.profileRevision ∧
      (settledRun q r).route.requiredQuotaUnits = r.route.requiredQuotaUnits := by
  unfold settledRun
  split <;> exact ⟨rfl, rfl⟩

theorem BoundMoves.heartbeat (hk : Keys s) {l : Lease} {r : ExecutionRun} {o : WorkOrder} {expiresAt : Time}
    (hb : Beating s l r o now) : BoundMoves scope s (beatenDatabase s now expiresAt l r o) := by
  obtain ⟨hrevision, hunits⟩ := settledRun_claim .consumed r
  refine BoundMoves.rewrite hk ((settledRun .consumed r).started now expiresAt) hb.run (settledRun_id .consumed r) rfl
    (claimCost_congr (settledRun_workerId .consumed r) hrevision hunits) fun p hp => ⟨p, hp, rfl, ?_⟩
  have hconsumed : holds p.workerId ((settledRun .consumed r).started now expiresAt) = 0 :=
    holds_of_not (settledRun_not_reserved (by decide) r)
  have := holds_nonneg p.workerId r
  omega

theorem BoundMoves.close (hk : Keys s) (hc : Coherent s) (hq : QuotaOK s) {outcome : Outcome} {l : Lease}
    {r : ExecutionRun} {o : WorkOrder} {w : Worker} {profiles : List RoutingProfile}
    (hcl : Closing P s outcome l r o w profiles) :
    BoundMoves scope s (closedDatabase s now outcome l r o w profiles) := by
  have hb := hc.backed hk hcl.lease hcl.run hcl.order hcl.runId hcl.orderId
  obtain ⟨hrevision, hunits⟩ := settledRun_claim .released r
  set r' := outcome.run now (settledRun .released r) with hr'
  have hroute : r'.route = (settledRun .released r).route := by rw [hr', outcome_run_route]
  have hreleased : ∀ w, holds w r' = 0 := fun w =>
    holds_of_not (by rw [hroute]; exact settledRun_not_reserved (by decide) r)
  refine BoundMoves.rewrite hk r' hcl.run (by rw [hr', outcome_run_id, settledRun_id]) rfl
    (claimCost_congr (by rw [hr', outcome_run_workerId, settledRun_workerId]) (by rw [hroute, hrevision])
      (by rw [hroute, hunits])) fun p' hp' => ?_
  rw [hreleased]
  have hnonneg := holds_nonneg p'.workerId r
  rcases hcl.profiles_cases hq hb.worker with ⟨hreserved, p, hp, hid, hput⟩ | ⟨-, hsame⟩
  · -- the released quota is the revision that the run was counted for
    rw [show (closedDatabase s now outcome l r o w profiles).profiles = profiles from rfl, hput] at hp'
    rcases of_mem_put hp' with rfl | ⟨hp', -⟩
    · refine ⟨p, hp, rfl, ?_⟩
      have hone : holds p.workerId r = 1 := by
        unfold holds
        rw [if_pos ⟨hid.symm, hreserved⟩]
      simp only [RoutingProfile.refunded, hone]
      omega
    · exact ⟨p', hp', rfl, by omega⟩
  · exact ⟨p', hsame ▸ hp', rfl, by omega⟩

theorem BoundMoves.claim (hk : Keys s) {w : Worker} {o : WorkOrder} {q : Service.QuotaClaim} {count : ℕ} {pin : Bool}
    {expiresAt : Time} {profiles : List RoutingProfile} (hcl : Claiming s w o q profiles) (hclaims : scope.claims = true) :
    BoundMoves scope s (claimedDatabase s now expiresAt w o (Service.orderRoute w q count pin now)
      (Service.runRoute o q count pin now) profiles) := by
  set order := Service.orderRoute w q count pin now
  set route := Service.runRoute o q count pin now with hroute
  set r := Repository.activeRun (o.claimed now order) w.workerId now expiresAt route (nextId s.runs) with hr
  have happend : ∀ f, tally f (claimedDatabase s now expiresAt w o order route profiles) = tally f s + f r :=
    fun f => tally_append rfl
  have hholds : ∀ x, holds x r = if w.workerId = x ∧ q.quotaState = .reserved then 1 else 0 := fun x => rfl
  refine ⟨fun p' hp' => ?_, fun x => ?_, fun hno => ?_⟩
  · left
    rw [happend]
    have hcost := claimCost_nonneg p'.workerId r
    rcases hcl.reserves with ⟨hnone, -, hsame⟩ | ⟨p, hp, hid, -, -, -, hstate, hput⟩
    · refine ⟨p', hsame ▸ hp', rfl, ?_⟩
      unfold bound
      rw [happend, hholds, if_neg (by simp [hnone])]
      omega
    · have hp'' : p' ∈ put (p.reserved p.revision o.spec.requiredQuotaUnits) s.profiles := hput ▸ hp'
      rcases of_mem_put hp'' with rfl | ⟨hold, hne⟩
      · -- the claim takes one revision, and one more when it reserves
        refine ⟨p, hp, rfl, ?_⟩
        have hsome : q.profileRevision.isSome = true := by
          by_contra hnone
          rw [Bool.not_eq_true, Option.isSome_eq_false_iff, Option.isNone_iff_eq_none] at hnone
          have hsame := (hcl.unprofiled hnone).symm.trans hput
          have hself : p.reserved p.revision o.spec.requiredQuotaUnits ∈ s.profiles := by
            rw [hsame]
            exact mem_put_self hp rfl
          have heq := hk.profiles.eq_of_key hself hp rfl
          have hrevision := congrArg RoutingProfile.revision heq
          simp only [RoutingProfile.reserved] at hrevision
          omega
        have hpaid : claimCost p.workerId r = if o.spec.requiredQuotaUnits ≠ 0 then 2 else 1 := by
          unfold claimCost
          rw [if_pos ⟨hid.symm, hsome⟩]
          rfl
        have hheld : holds p.workerId r = if o.spec.requiredQuotaUnits ≠ 0 then 1 else 0 := by
          rw [hholds, hstate]
          by_cases hzero : o.spec.requiredQuotaUnits = 0 <;> simp [hzero, hid]
        unfold bound
        simp only [RoutingProfile.reserved, happend, hpaid, hheld]
        split <;> omega
      · refine ⟨p', hold, rfl, ?_⟩
        have hother : w.workerId ≠ p'.workerId := fun he => hne (he.symm.trans hid.symm)
        unfold bound
        rw [happend, hholds, if_neg fun hh => hother hh.1]
        omega
  · rw [happend]
    have := claimCost_nonneg x r
    omega
  · rw [hclaims] at hno
    cases hno

/-- **Every effect moves the bounds by its claims, or is an edit of an idle profile within the limit.** -/
theorem Effect.bound (he : Effect P scope now s s') (hk : Keys s) (hc : Coherent s) (hq : QuotaOK s) :
    BoundMoves scope s s' := by
  cases he with
  | idle => exact .same rfl rfl
  | manifest | insertWorker | updateWorker | createOrder | moveOrder => exact .same rfl rfl
  | insertProfile p hnew _ hfirst hcreates =>
    refine ⟨fun p' hp' => ?_, fun w => le_rfl, fun _ w => rfl⟩
    rcases List.mem_append.1 hp' with hp' | hp'
    · refine Or.inl ⟨p', hp', rfl, ?_⟩
      show Switchboard.bound s p' ≤ Switchboard.bound s p' + (tally (claimCost p'.workerId) s - _)
      exact le_add_of_nonneg_right (sub_self _).ge
    · obtain rfl := List.mem_singleton.1 hp'
      have hidle : Idle s p'.workerId := by
        intro r hr hid hres
        obtain ⟨y, hy, hyid⟩ := hq.profiled r hr hres
        exact hnew y hy (hyid.trans hid)
      refine Or.inr ⟨?_, Or.inr hcreates⟩
      show p'.revision + tally (holds p'.workerId) s ≤ _
      rw [tally_idle hidle, hfirst]
      decide
  | rewriteProfile p p' hp hid hrev _ hidle hedits hlimit =>
    refine ⟨fun x hx => ?_, fun w => le_rfl, fun _ w => rfl⟩
    rcases of_mem_put hx with rfl | ⟨hx, -⟩
    · refine Or.inr ⟨?_, Or.inl hedits⟩
      show x.revision + tally (holds x.workerId) s ≤ _
      rw [hid, tally_idle hidle, hrev]
      omega
    · refine Or.inl ⟨x, hx, rfl, ?_⟩
      show Switchboard.bound s x ≤ Switchboard.bound s x + (tally (claimCost x.workerId) s - _)
      exact le_add_of_nonneg_right (sub_self _).ge
  | claim w o q count pin expiresAt profiles hcl hclaims => exact .claim hk hcl hclaims
  | heartbeat l r o expiresAt hb => exact .heartbeat hk hb
  | close outcome l r o w profiles hcl => exact .close hk hc hq hcl
  | resolve l r o identity selected hr =>
    exact BoundMoves.rewrite hk (Service.resolvedRun identity (P.reuseIdentityHash identity) selected r) hr.run rfl rfl
      (fun _ => rfl) fun p hp => ⟨p, hp, rfl, le_rfl⟩

/-! ## Runs -/

/-- No profile is bound past the limit. -/
def WithinLimit (s : Database) : Prop := ∀ p ∈ s.profiles, bound s p ≤ maxRoutingRevision

/-- What the bounds rest on. -/
structure Accounted (s : Database) : Prop where
  keys : Keys s
  coherent : Coherent s
  quota : QuotaOK s

theorem Effect.accounted (he : Effect P scope now s s') (h : Accounted s) : Accounted s' :=
  ⟨he.keys h.keys, he.coherent h.keys h.coherent, he.quotaOK h.keys h.coherent h.quota⟩

theorem Accounted.init : Accounted Database.init := ⟨Keys.init, Coherent.init, QuotaOK.init⟩

/-- Blocks that claim nothing stay within the limit. -/
theorem Steps.withinLimit {ts : List Time} (hs : Steps P scope ts ss ss') (hno : scope.claims = false)
    (ha : Accounted ss.db) (h : WithinLimit ss.db) : WithinLimit ss'.db := by
  have hboth : Accounted ss'.db ∧ WithinLimit ss'.db := by
    refine hs.invariant (I := fun s => Accounted s ∧ WithinLimit s) ?_ ⟨ha, h⟩
    intro t s s' he hi
    have hm := he.bound hi.1.keys hi.1.coherent hi.1.quota
    refine ⟨he.accounted hi.1, fun p' hp' => ?_⟩
    rcases hm.profiles p' hp' with ⟨p, hp, -, hle⟩ | ⟨hle, -⟩
    · rw [hm.unclaimed hno] at hle
      have := hi.2 p hp
      omega
    · exact hle
  exact hboth.2

/-- Blocks that edit no profile raise the bounds by their claims at most. -/
theorem Steps.bound_le {ts : List Time} (hs : Steps P scope ts ss ss') (hedits : scope.edits = false)
    (hcreates : scope.creates = false) (ha : Accounted ss.db) :
    (∀ w, tally (claimCost w) ss.db ≤ tally (claimCost w) ss'.db) ∧ ∀ p' ∈ ss'.db.profiles, ∃ p ∈ ss.db.profiles,
      p.workerId = p'.workerId ∧
      bound ss'.db p' ≤ bound ss.db p + (tally (claimCost p'.workerId) ss'.db - tally (claimCost p'.workerId) ss.db) := by
  induction hs with
  | nil => exact ⟨fun w => le_rfl, fun p hp => ⟨p, hp, rfl, by omega⟩⟩
  | cons hb rest ih =>
    have hm := hb.effect.bound ha.keys ha.coherent ha.quota
    obtain ⟨hclaims, hprofiles⟩ := ih (hb.effect.accounted ha)
    refine ⟨fun w => (hm.claims w).trans (hclaims w), fun p₂ hp₂ => ?_⟩
    obtain ⟨p₁, hp₁, hid₁, hle₁⟩ := hprofiles p₂ hp₂
    rcases hm.profiles p₁ hp₁ with ⟨p, hp, hid, hle⟩ | ⟨-, hscope⟩
    · refine ⟨p, hp, hid.trans hid₁, ?_⟩
      rw [hid₁] at hle
      omega
    · rw [hedits, hcreates] at hscope
      rcases hscope with h | h <;> cases h

/-- The claim that a call makes leaves head-room: for the claim itself, and for the release of every reservation that is
outstanding on the profile after it. -/
def ClaimWithinLimit (s s' : Database) : Prop :=
  ∀ p ∈ s.profiles, tally (claimCost p.workerId) s < tally (claimCost p.workerId) s' →
    p.revision + Repository.countReservedQuotaRuns p.workerId s +
      (tally (claimCost p.workerId) s' - tally (claimCost p.workerId) s) ≤ maxRoutingRevision

theorem Operation.claims_scope (op : Operation) : op.scope.claims = false ∨
    (op.scope.edits = false ∧ op.scope.creates = false) := by
  cases op <;> first | exact Or.inl rfl | exact Or.inr ⟨rfl, rfl⟩

theorem step_withinLimit (c : Call) (ha : Accounted ss.db) (h : WithinLimit ss.db)
    (hclaim : ClaimWithinLimit ss.db (step P ss c).db) : WithinLimit (step P ss c).db := by
  obtain ⟨_, _, -, -, hs⟩ := step_runs (P := P) ha.keys c
  rcases c.operation.claims_scope with hno | ⟨hedits, hcreates⟩
  · exact hs.withinLimit hno ha h
  · obtain ⟨-, hprofiles⟩ := hs.bound_le hedits hcreates ha
    intro p' hp'
    obtain ⟨p, hp, hid, hle⟩ := hprofiles p' hp'
    have hold := h p hp
    by_cases hmore : tally (claimCost p.workerId) ss.db < tally (claimCost p.workerId) (step P ss c).db
    · have hroom := hclaim p hp hmore
      rw [← tally_holds] at hroom
      rw [← hid] at hle
      exact hle.trans hroom
    · rw [← hid] at hle
      omega

/-! ## Releases -/

/-- `release_run_quota_reservation` succeeds on the run, whatever else changed since the leases were read. -/
def Releasable (s : Database) (r : ExecutionRun) : Prop :=
  ∀ ss : Session Database, ss.db.runs = s.runs → ss.db.orders = s.orders → ss.db.profiles = s.profiles →
    ∃ ss', Repository.releaseRunQuotaReservation r.id r.workOrderId r.workerId ss = .ok (true, ss')

theorem QuotaOK.units_le (h : QuotaOK s) {r : ExecutionRun} (hr : r ∈ s.runs) (hq : r.route.quotaState = .reserved) :
    r.route.reservedQuotaUnits ≤ unitsIn .reserved s r.workerId := by
  rw [← unitsOf_reserved_self hq]
  refine List.single_le_sum ?_ _ (List.mem_map_of_mem hr)
  intro x hx
  obtain ⟨y, hy, rfl⟩ := List.mem_map.1 hx
  exact h.unitsOf_nonneg hy _

/-- **A reservation whose profile has a revision left is released.** -/
theorem Accounted.releasable (ha : Accounted s) {r : ExecutionRun} (hr : r ∈ s.runs)
    (hq : r.route.quotaState = .reserved) {p : RoutingProfile} (hp : p ∈ s.profiles) (hid : p.workerId = r.workerId)
    (hrevision : p.revision < maxRoutingRevision) : Releasable s r := by
  intro ss hruns horders hprofiles
  have hget : Repository.getRun r.id ss.db = some r := by
    unfold Repository.getRun
    rw [hruns]
    exact ha.keys.runs.unique.find?_eq hr (by simp) fun x _ hx => beq_iff_eq.1 hx
  have hpos := ha.quota.positive r hr hq
  have hunits := ha.quota.units_le hr hq
  have hbounded := ha.quota.bounded p hp
  have hrefunded : (Repository.refundRoutingQuota r.workerId r.route.reservedQuotaUnits ss.db).2 = true := by
    show affectedOne _ ss.db.profiles = true
    rw [hprofiles]
    refine affectedOne_of_mem ha.keys.profiles hp ?_ fun x _ hx => ?_
    · rw [hid] at hbounded
      simp only [hid, beq_self_eq_true, Bool.true_and, Bool.and_eq_true, decide_eq_true_eq]
      exact ⟨hrevision, by omega⟩
    · simp only [Bool.and_eq_true, beq_iff_eq] at hx
      exact hx.1.1.trans hid.symm
  set s₁ := ss.push (Repository.refundRoutingQuota r.workerId r.route.reservedQuotaUnits ss.db).1 with hs₁
  have hrun : (Repository.settleRunQuota r.id .released s₁.db).2 = true := by
    show affectedOne _ ss.db.runs = true
    rw [hruns]
    refine affectedOne_of_mem ha.keys.runs.unique hr (by simp [hq]) fun x _ hx => ?_
    simp only [Bool.and_eq_true, beq_iff_eq] at hx
    exact hx.1
  have horder : (Repository.settleOrderQuota r.workOrderId .released
      (Repository.settleRunQuota r.id .released s₁.db).1).2 = true := by
    obtain ⟨o, ho, hoid, hoq⟩ := ha.quota.agrees r hr hq
    show affectedOne _ ss.db.orders = true
    rw [horders]
    refine affectedOne_of_mem ha.keys.orders.unique ho (by simp [hoid, hoq]) fun x _ hx => ?_
    simp only [Bool.and_eq_true, beq_iff_eq] at hx
    exact hx.1.trans hoid.symm
  have hsettled : ∃ ss', Repository.settleReservation r.id r.workOrderId .released s₁ = .ok (true, ss') := by
    unfold Repository.settleReservation
    rw [exec_bind, exec_bind]
    show ∃ ss', Except.ok ((Repository.settleRunQuota r.id .released s₁.db).2 && (Repository.settleOrderQuota
      r.workOrderId .released (Repository.settleRunQuota r.id .released s₁.db).1).2, _) = Except.ok (true, ss')
    rw [hrun, horder]
    exact ⟨_, rfl⟩
  unfold Repository.releaseRunQuotaReservation
  rw [read_bind, hget]
  simp only [hq]
  rw [if_pos hpos, exec_bind, hrefunded, if_pos rfl]
  exact hsettled

/-- Within the limit every reservation has a revision left. -/
theorem WithinLimit.releasable (h : WithinLimit s) (ha : Accounted s) {r : ExecutionRun} (hr : r ∈ s.runs)
    (hq : r.route.quotaState = .reserved) : Releasable s r := by
  obtain ⟨p, hp, hid⟩ := ha.quota.profiled r hr hq
  refine ha.releasable hr hq hp hid ?_
  have hbound := h p hp
  have hcount : 0 < Repository.countReservedQuotaRuns p.workerId s :=
    List.countP_pos_iff.2 ⟨r, hr, by simp [hid, hq]⟩
  unfold bound at hbound
  rw [tally_holds] at hbound
  omega

theorem runCalls_withinLimit (P : Platform) (calls : List Call)
    (h : ∀ i c, calls[i]? = some c → ClaimWithinLimit (runCalls P (calls.take i)).db (runCalls P (calls.take (i + 1))).db)
    (n : ℕ) : Accounted (runCalls P (calls.take n)).db ∧ WithinLimit (runCalls P (calls.take n)).db := by
  induction n with
  | zero => exact ⟨Accounted.init, by simp [WithinLimit, runCalls, Database.init]⟩
  | succ n ih =>
    cases hc : calls[n]? with
    | none =>
      rw [List.take_of_length_le (by rw [List.getElem?_eq_none_iff] at hc; omega),
        ← List.take_of_length_le (List.getElem?_eq_none_iff.1 hc)]
      exact ih
    | some c =>
      have hclaim := h n c hc
      rw [runCalls_take_succ hc] at hclaim ⊢
      obtain ⟨_, _, -, -, hs⟩ := step_runs (P := P) ih.1.keys c
      exact ⟨hs.invariant (fun he hi => he.accounted hi) ih.1, step_withinLimit c ih.1 ih.2 hclaim⟩

/-- **Every reservation stays releasable while the claims leave head-room.** In every run of the service in which each
claim through a routing profile finds the revision of the profile, plus the reservations outstanding on it, plus what the
claim itself needs (two revisions when it reserves quota, one otherwise), within the limit, every run that holds a
reservation can release it, in every state that is reached. -/
theorem runCalls_releasable (P : Platform) (calls : List Call)
    (h : ∀ i c, calls[i]? = some c → ClaimWithinLimit (runCalls P (calls.take i)).db (runCalls P (calls.take (i + 1))).db)
    (n : ℕ) : ∀ r ∈ (runCalls P (calls.take n)).db.runs, r.route.quotaState = .reserved →
      Releasable (runCalls P (calls.take n)).db r := by
  obtain ⟨ha, hlimit⟩ := runCalls_withinLimit P calls h n
  intro r hr hq
  exact hlimit.releasable ha hr hq

instance (s s' : Database) : Decidable (ClaimWithinLimit s s') := by
  unfold ClaimWithinLimit
  infer_instance

/-- A worker with two slots and a profile, and two queued orders that need one unit each. -/
def samplePair : List Call :=
  [⟨sampleEnv 0, .registerWorker { sampleRegistration with maxConcurrency := 2 }⟩,
   ⟨sampleEnv 1, .createRoutingProfile ⟨1, "w", sampleValues⟩⟩,
   ⟨sampleEnv 2, .createWorkOrder { sampleDraft .never with routingPolicy := .cheapestCapable, requiredQuotaUnits := 1 }⟩,
   ⟨sampleEnv 2, .createWorkOrder { sampleDraft .never with routingPolicy := .cheapestCapable, requiredQuotaUnits := 1 }⟩,
   ⟨sampleEnv 3, .approveWorkOrder 1 true⟩,
   ⟨sampleEnv 3, .approveWorkOrder 2 true⟩]

/-- Both orders are claimed, and the first one is cancelled. -/
def sampleClaims : List Call :=
  [⟨sampleEnv 4, .checkout "w"⟩, ⟨sampleEnv 5, .checkout "w"⟩, ⟨sampleEnv 6, .cancelWorkOrder 1 none⟩]

/-- With a new profile the second order still holds a reservation that can be released. -/
theorem runCalls_releasable_sample :
    ∃ r ∈ (runCalls samplePlatform ((samplePair ++ sampleClaims).take 9)).db.runs, r.route.quotaState = .reserved ∧
      Releasable (runCalls samplePlatform ((samplePair ++ sampleClaims).take 9)).db r := by
  have hwithin : ∀ i < 9, ClaimWithinLimit (runCalls samplePlatform ((samplePair ++ sampleClaims).take i)).db
      (runCalls samplePlatform ((samplePair ++ sampleClaims).take (i + 1))).db := by decide +kernel
  have hreserved : (Repository.getRun 2 (runCalls samplePlatform ((samplePair ++ sampleClaims).take 9)).db).map
      (fun r => r.route.quotaState) = some .reserved := by decide +kernel
  obtain ⟨r, hr, hq⟩ := Option.map_eq_some_iff.1 hreserved
  have hmem : r ∈ (runCalls samplePlatform ((samplePair ++ sampleClaims).take 9)).db.runs := List.mem_of_find?_eq_some hr
  refine ⟨r, hmem, hq, ?_⟩
  refine runCalls_releasable samplePlatform (samplePair ++ sampleClaims) (fun i c hc => hwithin i ?_) 9 r hmem hq
  have hlt := (List.getElem?_eq_some_iff.1 hc).1
  exact hlt

/-! ## A reservation that cannot be released -/

/-! Neither a checkout nor a cancellation looks at the states before the current one. -/

theorem oblivious_settleReservation (runId workOrderId : ℕ) (q : QuotaReservationState) :
    Oblivious (Repository.settleReservation runId workOrderId q) :=
  oblivious_bind (oblivious_exec _) fun _ => oblivious_bind (oblivious_exec _) fun _ => oblivious_pure _

theorem oblivious_release (runId workOrderId : ℕ) (workerId : String) :
    Oblivious (Repository.releaseRunQuotaReservation runId workOrderId workerId) := by
  refine oblivious_bind (oblivious_read _) fun run => ?_
  cases run with
  | none => exact oblivious_pure _
  | some run =>
    simp only
    cases run.route.quotaState with
    | notRequired | consumed | released => exact oblivious_pure _
    | reserved =>
      simp only
      split
      · refine oblivious_bind (oblivious_exec _) fun refunded => ?_
        split
        · exact oblivious_settleReservation _ _ _
        · exact oblivious_pure _
      · exact oblivious_settleReservation _ _ _

theorem oblivious_settle (snapshot : LeaseSnapshot) (moveRun moveOrder : Statement) (conflict : String) :
    Oblivious (Service.settleConsumedLease snapshot moveRun moveOrder conflict) :=
  oblivious_bind (oblivious_release _ _ _) fun _ => oblivious_bind (oblivious_exec _) fun _ =>
    oblivious_bind (oblivious_exec _) fun _ => oblivious_bind (oblivious_exec _) fun _ => oblivious_require _ _

theorem oblivious_expire (t : Time) : Oblivious (Service.expireStaleLeases t) := by
  have hloop : ∀ ns, Oblivious (Service.expireLoop t ns) := by
    intro ns
    induction ns with
    | nil => exact oblivious_pure _
    | cons n ns ih =>
      refine oblivious_bind (oblivious_bind (oblivious_exec _) fun consumed => ?_) fun _ =>
        oblivious_bind ih fun _ => oblivious_pure _
      split
      · exact oblivious_bind (oblivious_settle _ _ _ _) fun _ => oblivious_pure _
      · exact oblivious_pure _
  exact oblivious_bind (oblivious_read _) hloop

theorem oblivious_ensureManifests (ms : List (ManifestMetadata × String)) : Oblivious (Repository.ensureManifests ms) := by
  induction ms with
  | nil => exact oblivious_pure _
  | cons m ms ih =>
    refine oblivious_bind (oblivious_bind (oblivious_read _) fun existing => ?_) fun _ => ih
    cases existing with
    | none =>
      exact oblivious_bind (oblivious_read _) fun _ => oblivious_bind (oblivious_require _ _) fun _ => oblivious_exec _
    | some m => exact oblivious_bind (oblivious_require _ _) fun _ => oblivious_pure _

theorem oblivious_mayFail (env : Env) (n : ℕ) (st : ClaimStatement) : Oblivious (Service.mayFail env n st) := by
  unfold Service.mayFail
  split
  · exact oblivious_raise _
  · exact oblivious_pure _

theorem oblivious_claimQuota (env : Env) (n : ℕ) (worker : Worker) (order : WorkOrder)
    (profile : Option RoutingProfile) : Oblivious (Service.claimQuota env n worker order profile) := by
  cases profile with
  | none => exact oblivious_pure _
  | some p =>
    exact oblivious_bind (oblivious_mayFail _ _ _) fun _ =>
      oblivious_bind (oblivious_bind (oblivious_exec _) fun _ => oblivious_pure _) fun _ =>
        oblivious_bind (oblivious_requireSome _ _) fun _ => oblivious_pure _

theorem oblivious_claim (env : Env) (n : ℕ) (worker : Worker) (order : WorkOrder) (profile : Option RoutingProfile)
    (count : ℕ) (pin : Bool) (now : Time) :
    Oblivious (Service.claimRoutedWork env n worker order profile count pin now) := by
  have hinsert : ∀ {α : Type} (taken : Database → Bool) (e : ExecutionError) (st : Database → Database × α),
      Oblivious (read taken >>= fun duplicate => require (!duplicate) e >>= fun _ => exec st) := fun _ _ _ =>
    oblivious_bind (oblivious_read _) fun _ => oblivious_bind (oblivious_require _ _) fun _ => oblivious_exec _
  refine oblivious_attempt ?_
  refine oblivious_bind (oblivious_mayFail _ _ _) fun _ => oblivious_bind (oblivious_exec _) fun _ => ?_
  refine oblivious_bind (oblivious_require _ _) fun _ => oblivious_bind (oblivious_claimQuota _ _ _ _ _) fun quota => ?_
  refine oblivious_bind (oblivious_mayFail _ _ _) fun _ => oblivious_bind (oblivious_exec _) fun _ => ?_
  refine oblivious_bind (oblivious_require _ _) fun _ => oblivious_bind (oblivious_query _) fun _ => ?_
  refine oblivious_bind (oblivious_mayFail _ _ _) fun _ => oblivious_bind (hinsert _ _ _) fun _ => ?_
  exact oblivious_bind (oblivious_mayFail _ _ _) fun _ => oblivious_bind (hinsert _ _ _) fun _ => oblivious_pure _

theorem oblivious_checkout (env : Env) (workerId : String) : Oblivious (Service.checkout P env workerId) := by
  have hloop : ∀ worker candidates n mismatch route,
      Oblivious (Service.checkoutLoop P env worker n mismatch route candidates) := by
    intro worker candidates
    induction candidates with
    | nil => exact fun _ _ _ => oblivious_pure _
    | cons c candidates ih =>
      intro n mismatch route
      refine oblivious_bind (oblivious_read _) fun evaluations => ?_
      refine oblivious_bind (oblivious_requireSome _ _) fun eligibility => ?_
      refine oblivious_bind (oblivious_query _) fun decision => ?_
      cases decision with
      | skip reason => exact ih _ _ _
      | claim profile count =>
        refine oblivious_bind (oblivious_claim _ _ _ _ _ _ _ _) fun result => ?_
        split
        · exact ih _ _ _
        · exact oblivious_pure _
  refine oblivious_bind (oblivious_ensureManifests _) fun _ => oblivious_bind (oblivious_expire _) fun _ => ?_
  refine oblivious_bind (oblivious_read _) fun _ => oblivious_bind (oblivious_require _ _) fun _ => ?_
  refine oblivious_bind (oblivious_exec _) fun _ => oblivious_bind (oblivious_require _ _) fun _ => ?_
  refine oblivious_bind (oblivious_read _) fun _ => oblivious_bind (oblivious_requireSome _ _) fun worker => ?_
  cases Service.unavailableWorkerResult worker with
  | some result => exact oblivious_pure _
  | none => exact oblivious_bind (oblivious_read _) fun _ => hloop _ _ _ _ _

theorem oblivious_cancelWorkOrder (env : Env) (workOrderId : ℕ) (reason : Option String) :
    Oblivious (Service.cancelWorkOrder P env workOrderId reason) := by
  refine oblivious_bind (oblivious_query _) fun order => ?_
  simp only
  split
  · exact oblivious_bind (oblivious_exec _) fun _ => oblivious_bind (oblivious_require _ _) fun _ => oblivious_query _
  · refine oblivious_bind (oblivious_require _ _) fun _ => oblivious_bind (oblivious_read _) fun _ => ?_
    refine oblivious_bind (oblivious_requireSome _ _) fun snapshot => oblivious_bind ?_ fun _ => oblivious_query _
    refine oblivious_bind (oblivious_query _) fun _ => oblivious_bind (oblivious_query _) fun _ => ?_
    refine oblivious_bind (oblivious_exec _) fun _ => oblivious_bind (oblivious_require _ _) fun _ => ?_
    exact oblivious_bind (oblivious_settle _ _ _ _) fun _ => oblivious_query _

theorem step_checkout_db (env : Env) (workerId : String) (ss : Session Database) :
    (step P ss ⟨env, .checkout workerId⟩).db = (step P ⟨ss.db, []⟩ ⟨env, .checkout workerId⟩).db :=
  (oblivious_bind (oblivious_checkout env workerId) fun _ => oblivious_pure ()).commit_db ss

theorem step_cancel_db (env : Env) (workOrderId : ℕ) (reason : Option String) (ss : Session Database) :
    (step P ss ⟨env, .cancelWorkOrder workOrderId reason⟩).db =
      (step P ⟨ss.db, []⟩ ⟨env, .cancelWorkOrder workOrderId reason⟩).db :=
  (oblivious_bind (oblivious_cancelWorkOrder env workOrderId reason) fun _ => oblivious_pure ()).commit_db ss

theorem not_releasable {s : Database} {r : ExecutionRun}
    (h : (Repository.releaseRunQuotaReservation r.id r.workOrderId r.workerId ⟨s, []⟩).toOption.map Prod.fst = some false) :
    ¬ Releasable s r := by
  intro hreleasable
  obtain ⟨ss', hok⟩ := hreleasable ⟨s, []⟩ rfl rfl rfl
  rw [hok] at h
  cases h

/-- Three revisions below the limit both orders are claimed; the cancellation of the first takes the last revision, and
the reservation of the second cannot be released. -/
theorem runCalls_release_blocked :
    ∃ r ∈ (runCalls samplePlatform (sampleReplaced samplePair 2147483643 ++ sampleClaims)).db.runs,
      r.route.quotaState = .reserved ∧
      ¬ Releasable (runCalls samplePlatform (sampleReplaced samplePair 2147483643 ++ sampleClaims)).db r := by
  have hdb := sampleReplaced_db samplePair (by decide +kernel) (by decide +kernel) 2147483643 (by decide)
  rw [runCalls_append]
  generalize runCalls samplePlatform (sampleReplaced samplePair 2147483643) = ss at hdb ⊢
  set s₁ := (step samplePlatform ⟨ss.db, []⟩ ⟨sampleEnv 4, .checkout "w"⟩).db with hs₁
  set s₂ := (step samplePlatform ⟨s₁, []⟩ ⟨sampleEnv 5, .checkout "w"⟩).db with hs₂
  set s₃ := (step samplePlatform ⟨s₂, []⟩ ⟨sampleEnv 6, .cancelWorkOrder 1 none⟩).db with hs₃
  have hlast : (sampleClaims.foldl (step samplePlatform) ss).db = s₃ := by
    have h₁ : (step samplePlatform ss ⟨sampleEnv 4, .checkout "w"⟩).db = s₁ := step_checkout_db _ _ ss
    have h₂ : (step samplePlatform (step samplePlatform ss ⟨sampleEnv 4, .checkout "w"⟩)
        ⟨sampleEnv 5, .checkout "w"⟩).db = s₂ := by rw [step_checkout_db, h₁]
    unfold sampleClaims
    rw [List.foldl_cons, List.foldl_cons, List.foldl_cons, List.foldl_nil, step_cancel_db, h₂]
  rw [hlast]
  rw [hdb] at hs₁
  have hreserved : (Repository.getRun 2 s₃).map (fun r => (r.route.quotaState, r.id, r.workOrderId, r.workerId)) =
      some (.reserved, 2, 2, "w") := by
    rw [hs₃, hs₂, hs₁]
    decide +kernel
  obtain ⟨r, hr, hcolumns⟩ := Option.map_eq_some_iff.1 hreserved
  simp only [Prod.mk.injEq] at hcolumns
  obtain ⟨hq, hid, horder, hworker⟩ := hcolumns
  refine ⟨r, List.mem_of_find?_eq_some hr, hq, not_releasable ?_⟩
  rw [hid, horder, hworker, hs₃, hs₂, hs₁]
  decide +kernel

end Switchboard
