import Switchboard.Proof.Routing
import Switchboard.Proof.Attempts

/-!
# Checkout

A checkout that runs alone at one instant, with no stale lease, records the poll of its worker and
then scans the queued orders in id order against one and the same database.

* `checkout_eq`: the scan is all that is left of it.
* `checkoutLoop_cases`: the scan ends without an assignment, or at an order that it claims.
* `assessRoute_agrees`: an order whose assessment selects another worker is not claimed.
-/

namespace Switchboard

open Table Transaction

variable {P : Platform} {env : Env} {ss ss' : Session Database} {s s' : Database} {t : Time} {workerId : String}

/-! ## Before the scan -/

/-- Without a stale lease nothing is expired. -/
theorem expireStaleLeases_none (h : ∀ l ∈ ss.db.leases, t ≤ l.expiresAt) :
    Service.expireStaleLeases t ss = .ok (⟨[], []⟩, ss) := by
  have hlist : Repository.listStaleLeaseSnapshots t ss.db = [] := by
    unfold Repository.listStaleLeaseSnapshots
    rw [List.map_eq_nil_iff, List.filter_eq_nil_iff]
    intro l hl
    simp only [decide_eq_true_eq, not_lt]
    exact h l hl
  show (read (Repository.listStaleLeaseSnapshots t) >>= fun snapshots => Service.expireLoop t snapshots) ss = _
  rw [read_bind, hlist]
  rfl

theorem getWorker_of_mem (hk : UniqueKeys s.workers) {w : Worker} (hw : w ∈ s.workers) :
    Repository.getWorker w.workerId s = some w := by
  refine hk.find?_eq hw (by simp) ?_
  intro x _ hx
  simpa using hx

theorem polled_unique (h : UniqueKeys s.workers) : UniqueKeys (polled workerId t s).workers := by
  have hkeys : (key ∘ Worker.polledAt workerId t : Worker → String) = key := by
    funext x
    exact polledAt_workerId
  unfold UniqueKeys keys
  rw [polled_workers, List.map_map, hkeys]
  exact h

theorem Keys.polled (hk : Keys s) : Keys (polled workerId t s) := { hk with workers := polled_unique hk.workers }

/-- Every reading of the clock is `t`. -/
def StoppedAt (env : Env) (t : Time) : Prop := ∀ n, env.clock n = t

/-- **A checkout at one instant, with no stale lease, is the scan of the queued orders** after the poll. -/
theorem checkout_eq {s₁ : Session Database} {w : Worker} (hclock : StoppedAt env t) (hk : Keys ss.db)
    (hstale : ∀ l ∈ ss.db.leases, t ≤ l.expiresAt) (hsync : Service.syncTrustedManifests P ss = .ok ((), s₁))
    (hw : w ∈ ss.db.workers) (honline : w.status = .online) :
    Service.checkout P env w.workerId ss =
      Service.checkoutLoop P env (w.polledAt w.workerId t) 0 [] []
        (Repository.listQueuedWorkOrders (polled w.workerId t s₁.db)) (s₁.push (polled w.workerId t s₁.db)) := by
  have hs := syncTrustedManifests_synced hsync
  have hk₁ : UniqueKeys s₁.db.workers := hs.workers ▸ hk.workers
  have hw₁ : w ∈ s₁.db.workers := hs.workers ▸ hw
  have hget : Repository.getWorker w.workerId s₁.db = some w := getWorker_of_mem hk₁ hw₁
  have hexpire : Service.expireStaleLeases t s₁ = .ok (⟨[], []⟩, s₁) :=
    expireStaleLeases_none fun l hl => hstale l (hs.leases ▸ hl)
  have hpolled : (Repository.recordCheckoutPoll w.workerId t s₁.db).2 = true := by
    refine affectedOne_of_mem hk₁ hw₁ (by simp) ?_
    intro x _ hx
    simpa using hx
  have hgetp : Repository.getWorker w.workerId (polled w.workerId t s₁.db) = some (w.polledAt w.workerId t) := by
    have hmem : w.polledAt w.workerId t ∈ (polled w.workerId t s₁.db).workers := by
      rw [polled_workers]
      exact List.mem_map_of_mem hw₁
    have := getWorker_of_mem (polled_unique hk₁) hmem
    rwa [polledAt_workerId] at this
  have hfree : Service.unavailableWorkerResult (w.polledAt w.workerId t) = none := by
    unfold Service.unavailableWorkerResult
    rw [(polledAt_columns _ _ w).1, honline]
  unfold Service.checkout
  rw [bind_of_ok hsync, hclock 0, hclock 1, bind_of_ok hexpire, read_bind, hget, bind_of_ok rfl, exec_bind, hpolled,
    bind_of_ok rfl, read_bind]
  show (requireSome (Repository.getWorker w.workerId (polled w.workerId t s₁.db)) _ >>= _) _ = _
  rw [hgetp, bind_of_ok rfl, hfree]
  rfl

/-! ## The scan -/

/-- One turn of the scan decides to claim the order. -/
def DecidesClaim (P : Platform) (env : Env) (t : Time) (worker : Worker) (s : Database)
    (candidate : WorkOrder × CommandManifest) (profile : Option RoutingProfile) (count : ℕ) : Prop :=
  ∃ eligibility, (Service.routingEligibilities P env (Service.routingRequest candidate.1 candidate.2) t s).find?
      (fun e => e.worker.workerId == worker.workerId) = some eligibility ∧
    Service.decideCandidate worker candidate.1
      (Service.routingEligibilities P env (Service.routingRequest candidate.1 candidate.2) t s) eligibility =
        .ok (.claim profile count)

/-- The scan claims one of the candidates, as it decided, and returns that claim. -/
def ClaimsOne (P : Platform) (env : Env) (t : Time) (worker : Worker) (candidates : List (WorkOrder × CommandManifest))
    (ss ss' : Session Database) (result : CheckoutResult) : Prop :=
  ∃ c ∈ candidates, ∃ profile count i, DecidesClaim P env t worker ss.db c profile count ∧
    Service.claimBlock env i worker c.1 profile count c.1.spec.preferredExecutor.isSome t ss = .ok (result, ss')

theorem claimFailure_unassigned {e : ExecutionError} {result : CheckoutResult}
    (h : Service.claimFailure e = some result) : result.runId = none ∧ result.workOrderId = none := by
  unfold Service.claimFailure at h
  split at h <;> simp only [Option.some.injEq, reduceCtorEq] at h
  all_goals
    subst h
    exact ⟨rfl, rfl⟩

theorem unassigned_result (mismatch route : List String) :
    (Service.unassigned mismatch route).runId = none ∧ (Service.unassigned mismatch route).workOrderId = none := by
  unfold Service.unassigned
  split
  · exact ⟨rfl, rfl⟩
  · split <;> exact ⟨rfl, rfl⟩

/-- **The scan assigns nothing and executes nothing, or it ends with a claim that it decided.** -/
theorem checkoutLoop_cases {worker : Worker} {candidates : List (WorkOrder × CommandManifest)} {n : ℕ}
    {mismatch route : List String} {result : CheckoutResult} (hclock : StoppedAt env t) (hk : Keys ss.db)
    (hc : ∀ c ∈ candidates, c.1 ∈ ss.db.orders)
    (h : Service.checkoutLoop P env worker n mismatch route candidates ss = .ok (result, ss')) :
    (ss' = ss ∧ result.runId = none ∧ result.workOrderId = none) ∨
      ClaimsOne P env t worker candidates ss ss' result := by
  induction candidates generalizing n mismatch route with
  | nil =>
    simp only [Service.checkoutLoop, pure_ok] at h
    obtain ⟨rfl, rfl⟩ := h
    exact Or.inl ⟨rfl, unassigned_result mismatch route⟩
  | cons c candidates ih =>
    obtain ⟨order, manifest⟩ := c
    have hc' : ∀ c ∈ candidates, c.1 ∈ ss.db.orders := fun c hm => hc c (List.mem_cons_of_mem _ hm)
    -- a turn that claims nothing goes on from the same session
    have hnext : ∀ {mismatch route}, Service.checkoutLoop P env worker (n + 1) mismatch route candidates ss =
        .ok (result, ss') → (ss' = ss ∧ result.runId = none ∧ result.workOrderId = none) ∨
          ClaimsOne P env t worker ((order, manifest) :: candidates) ss ss' result := by
      intro mismatch route h
      rcases ih hc' h with hnone | ⟨c, hmem, profile, count, i, hclaim⟩
      · exact Or.inl hnone
      · exact Or.inr ⟨c, List.mem_cons_of_mem _ hmem, profile, count, i, hclaim⟩
    simp only [Service.checkoutLoop, hclock (n + 2), bind_ok, read_ok, requireSome_ok, query_ok] at h
    obtain ⟨_, _, ⟨rfl, rfl⟩, eligibility, _, ⟨hfind, rfl⟩, decision, _, ⟨hdecision, rfl⟩, h⟩ := h
    cases decision with
    | skip reason => exact hnext h
    | claim profile count =>
      simp only [bind_ok] at h
      obtain ⟨res, s₁, hclaim, h⟩ := h
      rcases attempt_ok.1 hclaim with hclaim | ⟨e, -, hfail, rfl⟩
      · obtain ⟨-, hreason⟩ : Block P .claiming t ss s₁ ∧ res.reason = none :=
          claimBlock_block hk (hc _ List.mem_cons_self) rfl hclaim
        rw [if_neg (by rw [hreason]; simp)] at h
        obtain ⟨rfl, rfl⟩ := pure_ok.1 h
        exact Or.inr ⟨(order, manifest), List.mem_cons_self, profile, count, n, ⟨eligibility, hfind, hdecision⟩, hclaim⟩
      · split at h
        · exact hnext h
        · obtain ⟨rfl, rfl⟩ := pure_ok.1 h
          exact Or.inl ⟨rfl, claimFailure_unassigned hfail⟩

/-- A claimed order of the cheapest policy is one whose ranking the worker wins. -/
theorem DecidesClaim.winner {worker : Worker} {c : WorkOrder × CommandManifest} {profile : Option RoutingProfile}
    {count : ℕ} (h : DecidesClaim P env t worker s c profile count)
    (hpolicy : c.1.spec.routingPolicy = .cheapestCapable) :
    ∃ selected rest, rankRoutingCandidates (candidatesFor P env (Service.routingRequest c.1 c.2) t s)
        c.1.spec.requiredQuotaUnits = .ok (selected :: rest) ∧ selected.worker.workerId = worker.workerId ∧
      profile = selected.profile := by
  obtain ⟨eligibility, -, hdecision⟩ := h
  simp only [Service.decideCandidate, hpolicy, except_bind_ok] at hdecision
  obtain ⟨ranked, hranked, hdecision⟩ := hdecision
  cases ranked with
  | nil => simp only [except_pure_ok, reduceCtorEq] at hdecision
  | cons selected rest =>
    simp only at hdecision
    split at hdecision
    · simp only [except_pure_ok, reduceCtorEq] at hdecision
    · rename_i hid
      simp only [except_pure_ok, Service.CandidateDecision.claim.injEq] at hdecision
      exact ⟨selected, rest, hranked, not_not.1 hid, hdecision.1.symm⟩

/-! ## Assessment -/

theorem candidatesFor_congr {request : RoutingEvaluationRequest} (hw : s'.workers = s.workers)
    (hp : s'.profiles = s.profiles) : candidatesFor P env request t s' = candidatesFor P env request t s := by
  unfold candidatesFor Service.routingEligibilities Repository.listWorkersWithProfiles Repository.getRoutingProfile
  rw [hw, hp]

theorem candidatesFor_windows {env' : Env} {request : RoutingEvaluationRequest}
    (hheartbeat : env'.heartbeatFreshnessSeconds = env.heartbeatFreshnessSeconds)
    (hpoll : env'.activePollFreshnessSeconds = env.activePollFreshnessSeconds) :
    candidatesFor P env' request t s = candidatesFor P env request t s := by
  unfold candidatesFor Service.routingEligibilities
  rw [hheartbeat, hpoll]

theorem listQueuedWorkOrders_manifest {c : WorkOrder × CommandManifest}
    (h : c ∈ Repository.listQueuedWorkOrders s) : c.2 ∈ s.manifests ∧ c.2.id = c.1.spec.manifestId := by
  unfold Repository.listQueuedWorkOrders at h
  obtain ⟨o, -, hc⟩ := List.mem_flatMap.1 h
  obtain ⟨m, hm, rfl⟩ := List.mem_map.1 hc
  obtain ⟨hmem, hid⟩ := List.mem_filter.1 hm
  exact ⟨hmem, by simpa using hid⟩

theorem syncTrustedManifests_manifestsOK {u : Unit} (hk : Keys ss.db) (hm : ManifestsOK P ss.db)
    (h : Service.syncTrustedManifests P ss = .ok (u, ss')) : ManifestsOK P ss'.db := by
  obtain ⟨_, -, -, hs⟩ : Runs P .any ⟨fun _ => 0, 0, 0, 0, fun _ _ => none⟩ 0 0 ss ss' :=
    syncTrustedManifests_runs hk h
  exact hs.invariant (fun he hi => he.manifestsOK hi) hm

/-- What the assessment of a queued `CHEAPEST_CAPABLE` order has computed. -/
theorem assessRoute_ok {o : WorkOrder} {a : RouteAssessment} (hclock : StoppedAt env t) (hk : Keys ss.db)
    (ho : o ∈ ss.db.orders) (hpolicy : o.spec.routingPolicy = .cheapestCapable)
    (h : Service.assessRoute P env o.id ss = .ok (a, ss')) :
    Service.syncTrustedManifests P ss = .ok ((), ss') ∧
      ∃ m ranked, Repository.getManifest o.spec.manifestName o.spec.manifestVersion ss'.db = some m ∧
        rankRoutingCandidates (candidatesFor P env (Service.routingRequest o m) t ss.db) o.spec.requiredQuotaUnits =
          .ok ranked ∧ a.selectedWorkerId = ranked.head?.map fun c => c.worker.workerId := by
  unfold Service.assessRoute at h
  simp only [bind_ok, query_ok, require_ok, read_ok, requireSome_ok, hclock 0] at h
  obtain ⟨_, s₁, hsync, order, _, ⟨horder, rfl⟩, _, _, ⟨-, rfl⟩, _, _, ⟨rfl, rfl⟩, m, _, ⟨hm, rfl⟩, _, _,
    ⟨rfl, rfl⟩, h⟩ := h
  have hs := syncTrustedManifests_synced hsync
  obtain ⟨hmem, hid⟩ := requireWorkOrder_ok horder
  obtain rfl : order = o := hk.orders.unique.eq_of_key (hs.orders ▸ hmem) ho hid
  simp only [hpolicy, bind_ok, query_ok, require_ok, pure_ok] at h
  obtain ⟨ranked, _, ⟨hranked, rfl⟩, _, _, ⟨-, rfl⟩, rfl, rfl⟩ := h
  refine ⟨hsync, m, ranked, hm, ?_, rfl⟩
  rw [← candidatesFor_congr hs.workers hs.profiles]
  exact hranked

theorem assessRoute_synced {workOrderId : ℕ} {a : RouteAssessment}
    (h : Service.assessRoute P env workOrderId ss = .ok (a, ss')) : Synced ss.db ss'.db := by
  unfold Service.assessRoute at h
  simp only [bind_ok, query_ok, require_ok, read_ok, requireSome_ok] at h
  obtain ⟨_, s₁, hsync, order, _, ⟨-, rfl⟩, _, _, ⟨-, rfl⟩, _, _, ⟨-, rfl⟩, _, _, ⟨-, rfl⟩, _, _, ⟨-, rfl⟩, h⟩ := h
  have hs := syncTrustedManifests_synced hsync
  cases hp : order.spec.routingPolicy with
  | firstAvailable =>
    simp only [hp, pure_ok] at h
    obtain ⟨-, rfl⟩ := h
    exact hs
  | cheapestCapable =>
    simp only [hp, bind_ok, query_ok, require_ok, pure_ok] at h
    obtain ⟨_, _, ⟨-, rfl⟩, _, _, ⟨-, rfl⟩, -, rfl⟩ := h
    exact hs

/-- The rows under a worker's id, with its profile. -/
theorem listWorkersWithProfiles_mem {wp : Worker × Option RoutingProfile}
    (h : wp ∈ Repository.listWorkersWithProfiles s) :
    wp.1 ∈ s.workers ∧ wp.2 = Repository.getRoutingProfile wp.1.workerId s := by
  unfold Repository.listWorkersWithProfiles at h
  obtain ⟨w, hw, rfl⟩ := List.mem_map.1 h
  exact ⟨(List.mergeSort_perm _ _).mem_iff.1 hw, rfl⟩

/-- The candidates are the eligible rows. -/
theorem mem_candidatesFor {request : RoutingEvaluationRequest} {c : RoutingCandidate} :
    c ∈ candidatesFor P env request t s ↔ c.worker ∈ s.workers ∧
      c.profile = Repository.getRoutingProfile c.worker.workerId s ∧ Eligible P c.worker c.profile request t
        env.heartbeatFreshnessSeconds env.activePollFreshnessSeconds := by
  unfold candidatesFor Service.routingEligibilities
  rw [List.mem_filterMap]
  constructor
  · rintro ⟨e, he, hc⟩
    obtain ⟨wp, hwp, rfl⟩ := List.mem_map.1 he
    obtain ⟨rfl, heligible⟩ := evaluate_candidate.1 hc
    obtain ⟨hmem, hprofile⟩ := listWorkersWithProfiles_mem hwp
    exact ⟨hmem, hprofile, heligible⟩
  · rintro ⟨hmem, hprofile, heligible⟩
    refine ⟨_, List.mem_map.2 ⟨(c.worker, c.profile), ?_, rfl⟩, evaluate_candidate.2 ⟨rfl, heligible⟩⟩
    unfold Repository.listWorkersWithProfiles
    exact List.mem_map.2 ⟨c.worker, (List.mergeSort_perm _ _).mem_iff.2 hmem, by rw [hprofile]⟩

/-- **An eligible worker does not claim an order whose assessment selects another worker.** -/
theorem checkout_not_selected {env' : Env} {o : WorkOrder} {m : CommandManifest} {a : RouteAssessment} {v : Worker}
    {selected : String} {s₁ : Session Database} {result : CheckoutResult} (hk : Keys ss.db) (hm : ManifestsOK P ss.db)
    (hclock : StoppedAt env t) (hclock' : StoppedAt env' t)
    (hheartbeat : env'.heartbeatFreshnessSeconds = env.heartbeatFreshnessSeconds)
    (hpoll : env'.activePollFreshnessSeconds = env.activePollFreshnessSeconds)
    (hstale : ∀ l ∈ ss.db.leases, t ≤ l.expiresAt) (ho : o ∈ ss.db.orders)
    (hpolicy : o.spec.routingPolicy = .cheapestCapable) (hmanifest : manifestOf ss.db o = some m)
    (hassess : Service.assessRoute P env o.id ss = .ok (a, s₁)) (hselected : a.selectedWorkerId = some selected)
    (hv : v ∈ ss.db.workers) (hother : v.workerId ≠ selected)
    (heligible : Eligible P v (Repository.getRoutingProfile v.workerId ss.db) (Service.routingRequest o m) t
      env.heartbeatFreshnessSeconds env.activePollFreshnessSeconds)
    (h : Service.checkout P env' v.workerId ss = .ok (result, ss')) :
    result.workOrderId ≠ some o.id ∧ o ∈ ss'.db.orders := by
  obtain ⟨hsync, m', ranked, hm', hranked, hhead⟩ := assessRoute_ok hclock hk ho hpolicy hassess
  have hs := syncTrustedManifests_synced hsync
  have hm₁ := syncTrustedManifests_manifestsOK hk hm hsync
  have ho₁ : o ∈ s₁.db.orders := hs.orders ▸ ho
  rw [checkout_eq hclock' hk hstale hsync hv heligible.online] at h
  set s₂ := s₁.push (polled v.workerId t s₁.db) with hs₂
  have hk₂ : Keys s₂.db := by
    obtain ⟨_, -, -, hsteps⟩ : Runs P .any env 0 0 ss s₁ := syncTrustedManifests_runs hk hsync
    have hk₁ := hsteps.keys hk
    exact hk₁.polled
  have horders : s₂.db.orders = s₁.db.orders := rfl
  rcases checkoutLoop_cases hclock' hk₂ (fun c hc => listQueuedWorkOrders_mem hc) h with
    ⟨rfl, -, hnone⟩ | ⟨c, hc, profile, count, i, hdecides, hclaim⟩
  · rw [hnone]
    exact ⟨by simp, horders ▸ ho₁⟩
  · obtain ⟨w, q, profiles, -, hclaiming, hdb, -, hresult⟩ :=
      claimBlock_ok hk₂ (listQueuedWorkOrders_mem hc) hclaim
    have hne : c.1 ≠ o := by
      rintro rfl
      obtain ⟨hcm, hcid⟩ := listQueuedWorkOrders_manifest hc
      have hget := hm₁.getManifest hcm hcid ho₁
      obtain rfl : m' = c.2 := by
        rw [hm', Option.some.injEq] at hget
        exact hget
      obtain rfl : m = c.2 := by
        obtain ⟨y, hy, hmem, hid⟩ := hm₁.manifestOf ho₁
        rw [hs.manifestOf hm ho, hmanifest, Option.some.injEq] at hy
        rw [hy]
        exact hm₁.ids.unique.eq_of_key hmem hcm (hid.trans hcid.symm)
      obtain ⟨winner, rest, hwinner, hid, -⟩ := hdecides.winner hpolicy
      -- the claim would be decided by the ranking that the assessment saw
      have hcandidates : candidatesFor P env' (Service.routingRequest c.1 c.2) t s₂.db =
          (candidatesFor P env (Service.routingRequest c.1 c.2) t ss.db).map
            (RoutingCandidate.polledAt v.workerId t) := by
        rw [candidatesFor_windows hheartbeat hpoll, ← candidatesFor_congr hs.workers hs.profiles]
        refine candidatesFor_polled fun wp hwp hwid => ?_
        obtain ⟨hmem, hprofile⟩ := listWorkersWithProfiles_mem hwp
        obtain rfl : wp.1 = v := hk.workers.eq_of_key (hs.workers ▸ hmem) hv hwid
        rw [hprofile]
        unfold Repository.getRoutingProfile
        rw [hs.profiles]
        exact heligible
      rw [hcandidates, rankRoutingCandidates_polledAt, hranked] at hwinner
      cases ranked with
      | nil => simp [Except.map] at hwinner
      | cons x xs =>
        simp only [Except.map, List.map_cons, Except.ok.injEq, List.cons.injEq] at hwinner
        rw [← hwinner.1] at hid
        rw [hselected, List.head?_cons, Option.map_some, Option.some.injEq] at hhead
        refine hother ?_
        rw [hhead]
        exact polledAt_workerId.symm.trans (hid.symm.trans polledAt_workerId)
    have hid : c.1.id ≠ o.id := fun hid =>
      hne (hk₂.orders.unique.eq_of_key hclaiming.order (horders ▸ ho₁) hid)
    rw [hresult, hdb]
    refine ⟨fun h => hid (by simpa using h), mem_put_of_ne (horders ▸ ho₁) fun h => hid h.symm⟩

/-- **Route assessment agrees with checkout.** In a reachable database without a stale lease at `t`, the assessment
of a queued `CHEAPEST_CAPABLE` order at `t` adds manifest snapshots and nothing else; and once it selects a worker,
no other worker that is eligible for the order claims it by a checkout at `t`, whatever faults that checkout meets
and whatever else is queued. -/
theorem runCalls_assessment (P : Platform) (calls : List Call) {t : Time} {env env' : Env} {o : WorkOrder}
    {m : CommandManifest} (hclock : StoppedAt env t) (hclock' : StoppedAt env' t)
    (hheartbeat : env'.heartbeatFreshnessSeconds = env.heartbeatFreshnessSeconds)
    (hpoll : env'.activePollFreshnessSeconds = env.activePollFreshnessSeconds)
    (hstale : ∀ l ∈ (runCalls P calls).db.leases, t ≤ l.expiresAt) (ho : o ∈ (runCalls P calls).db.orders)
    (hpolicy : o.spec.routingPolicy = .cheapestCapable) (hmanifest : manifestOf (runCalls P calls).db o = some m) :
    Synced (runCalls P calls).db (step P (runCalls P calls) ⟨env, .assessRoute o.id⟩).db ∧
    ∀ a s₁ selected, Service.assessRoute P env o.id (runCalls P calls) = .ok (a, s₁) →
      a.selectedWorkerId = some selected →
      ∀ v ∈ (runCalls P calls).db.workers, v.workerId ≠ selected →
        (evaluateRoutingCandidate P v (Repository.getRoutingProfile v.workerId (runCalls P calls).db)
          (Service.routingRequest o m) t env.heartbeatFreshnessSeconds env.activePollFreshnessSeconds).candidate.isSome →
        ∀ result ss', Service.checkout P env' v.workerId (runCalls P calls) = .ok (result, ss') →
          result.workOrderId ≠ some o.id ∧ o ∈ ss'.db.orders := by
  have hk := runCalls_keys P calls
  have hm := runCalls_manifestsOK P calls
  refine ⟨?_, ?_⟩
  · unfold step commit
    split
    · rename_i h
      simp only [Call.transaction, bind_ok, pure_ok] at h
      obtain ⟨a, _, h, -, rfl⟩ := h
      exact assessRoute_synced h
    · exact Synced.refl _
  · intro a s₁ selected hassess hselected v hv hother hcandidate result ss' h
    obtain ⟨c, hc⟩ := Option.isSome_iff_exists.1 hcandidate
    have heligible := (evaluate_candidate.1 hc).2
    exact checkout_not_selected hk hm hclock hclock' hheartbeat hpoll hstale ho hpolicy hmanifest hassess hselected hv
      hother heligible h

/-! ## A preview of two workers -/

def sampleProfile (workerId : String) (cost : ℤ) : RoutingProfileDraft :=
  ⟨1, workerId, ⟨true, cost, 10, 10, none, 0⟩⟩

/-- Two workers that polled, `a` the cheaper one, and one queued order of the cheapest policy. -/
def sampleRouting : List Call :=
  [⟨sampleEnv 0, .registerWorker { sampleRegistration with workerId := "a" }⟩,
   ⟨sampleEnv 0, .registerWorker { sampleRegistration with workerId := "v" }⟩,
   ⟨sampleEnv 1, .createRoutingProfile (sampleProfile "a" 1)⟩,
   ⟨sampleEnv 1, .createRoutingProfile (sampleProfile "v" 2)⟩,
   ⟨sampleEnv 2, .checkout "a"⟩,
   ⟨sampleEnv 2, .checkout "v"⟩,
   ⟨sampleEnv 3, .createWorkOrder { sampleDraft .never with routingPolicy := .cheapestCapable, requiredQuotaUnits := 1 }⟩,
   ⟨sampleEnv 3, .approveWorkOrder 1 true⟩]

/-- The workers that are stored in the order of their ids are listed as they are stored. -/
theorem listWorkersWithProfiles_of_sorted
    (h : s.workers.Pairwise fun a b => decide (a.workerId ≤ b.workerId) = true) :
    Repository.listWorkersWithProfiles s = s.workers.map fun w => (w, Repository.getRoutingProfile w.workerId s) := by
  unfold Repository.listWorkersWithProfiles
  rw [List.mergeSort_of_pairwise h]

/-- The assessment of a queued order of the cheapest policy whose candidates are in order selects the first. -/
theorem assessRoute_of_sorted {s₁ : Session Database} {o : WorkOrder} {m : CommandManifest} {c : RoutingCandidate}
    {cs : List RoutingCandidate} (hclock : StoppedAt env t) (hk : Keys ss.db) (ho : o ∈ ss.db.orders)
    (hqueued : o.status = .queued) (hpolicy : o.spec.routingPolicy = .cheapestCapable)
    (hsync : Service.syncTrustedManifests P ss = .ok ((), s₁))
    (hm : Repository.getManifest o.spec.manifestName o.spec.manifestVersion s₁.db = some m)
    (hcandidates : candidatesFor P env (Service.routingRequest o m) t ss.db = c :: cs)
    (hprofiles : ∀ x ∈ c :: cs, x.profile.isSome)
    (hsorted : (c :: cs).Pairwise fun a b => candidateLe o.spec.requiredQuotaUnits a b = true) :
    ∃ a, Service.assessRoute P env o.id ss = .ok (a, s₁) ∧ a.selectedWorkerId = some c.worker.workerId := by
  have hs := syncTrustedManifests_synced hsync
  have ho₁ : o ∈ s₁.db.orders := hs.orders ▸ ho
  have hk₁ : Keys s₁.db := by
    obtain ⟨_, -, -, hsteps⟩ : Runs P .any env 0 0 ss s₁ := syncTrustedManifests_runs hk hsync
    exact hsteps.keys hk
  have hget : Service.requireWorkOrder o.id s₁.db = .ok o := requireWorkOrder_of_mem hk₁ ho₁ rfl
  have hranked : rankRoutingCandidates (c :: cs) o.spec.requiredQuotaUnits = .ok (c :: cs) := by
    unfold rankRoutingCandidates
    rw [List.mergeSort_of_pairwise hsorted, if_neg]
    rintro ⟨-, hnone⟩
    obtain ⟨x, hx, hxnone⟩ := List.any_eq_true.1 hnone
    have := hprofiles x hx
    simp_all
  have hevaluated : candidatesFor P env (Service.routingRequest o m) t s₁.db = c :: cs := by
    rw [candidatesFor_congr hs.workers hs.profiles, hcandidates]
  unfold candidatesFor at hevaluated
  have hhead : ((c :: cs).head?.all fun c => c.profile.isSome) = true := by
    simpa using hprofiles c List.mem_cons_self
  unfold Service.assessRoute
  rw [bind_of_ok hsync, bind_of_ok (query_ok.2 ⟨hget, rfl⟩), bind_of_ok (require_ok (u := ()).2 ⟨by simp [hqueued], rfl⟩), read_bind,
    hm, bind_of_ok rfl, hclock 0]
  simp only [read_bind, hpolicy, hevaluated]
  rw [bind_of_ok (query_ok.2 ⟨hranked, rfl⟩), bind_of_ok (require_ok (u := ()).2 ⟨hhead, rfl⟩)]
  exact ⟨_, rfl, rfl⟩

theorem samplePlatform_registered : samplePlatform.Registered := by
  have hone : ∀ d ∈ samplePlatform.manifests, d = sampleManifest := by simp [samplePlatform]
  exact ⟨fun d hd d' hd' _ _ => by rw [hone d hd, hone d' hd'], fun d hd d' hd' _ => by rw [hone d hd, hone d' hd']⟩

/-- Two candidates with profiles, in the order of the ranking, the first of them `first`, the second `second`. -/
def rankedPair (units : ℤ) (first second : String) : List RoutingCandidate → Bool
  | [c, v] => c.worker.workerId == first && v.worker.workerId == second && c.profile.isSome && v.profile.isSome &&
      candidateLe units c v
  | _ => false

/-- The assessment selects `a`; `v` is eligible too, and no checkout of `v` takes the order. -/
theorem runCalls_assessment_sample :
    ∃ a s₁ o v, Service.assessRoute samplePlatform (sampleEnv 4) 1 (runCalls samplePlatform sampleRouting) = .ok (a, s₁) ∧
      a.selectedWorkerId = some "a" ∧ Repository.getWorkOrder 1 (runCalls samplePlatform sampleRouting).db = some o ∧
      Repository.getWorker "v" (runCalls samplePlatform sampleRouting).db = some v ∧
      ∀ result ss', Service.checkout samplePlatform (sampleEnv 4) "v" (runCalls samplePlatform sampleRouting) =
        .ok (result, ss') → result.workOrderId ≠ some 1 ∧ o ∈ ss'.db.orders := by
  set ss := runCalls samplePlatform sampleRouting with hss
  have hclock : StoppedAt (sampleEnv 4) 4 := fun _ => rfl
  obtain ⟨o, ho⟩ : ∃ o, Repository.getWorkOrder 1 ss.db = some o :=
    Option.isSome_iff_exists.1 (by rw [hss]; decide +kernel)
  have hcolumns : (Repository.getWorkOrder 1 ss.db).map (fun o =>
      (o.id, o.status, o.spec.routingPolicy, o.spec.requiredQuotaUnits)) =
      some (1, .queued, .cheapestCapable, 1) := by rw [hss]; decide +kernel
  simp only [ho, Option.map_some, Option.some.injEq, Prod.mk.injEq] at hcolumns
  obtain ⟨hid, hqueued, hpolicy, hunits⟩ := hcolumns
  have hmem : o ∈ ss.db.orders := List.mem_of_find?_eq_some ho
  obtain ⟨v, hv⟩ : ∃ v, Repository.getWorker "v" ss.db = some v :=
    Option.isSome_iff_exists.1 (by rw [hss]; decide +kernel)
  have hvid : v.workerId = "v" := by simpa using List.find?_some hv
  have hvmem : v ∈ ss.db.workers := List.mem_of_find?_eq_some hv
  obtain ⟨m, hm⟩ : ∃ m, manifestOf ss.db o = some m :=
    ((runCalls_manifestsOK samplePlatform sampleRouting).manifestOf hmem).imp fun _ h => h.1
  obtain ⟨s₁, hsync, hm₁, hs⟩ : ∃ s₁, Service.syncTrustedManifests samplePlatform ss = .ok ((), s₁) ∧
      ManifestsOK samplePlatform s₁.db ∧ Synced ss.db s₁.db :=
    syncTrustedManifests_ok samplePlatform_registered (runCalls_manifestsOK samplePlatform sampleRouting)
  have hget : Repository.getManifest o.spec.manifestName o.spec.manifestVersion s₁.db = some m := by
    have ho₁ : o ∈ s₁.db.orders := hs.orders ▸ hmem
    obtain ⟨m', hm', hmem', hid'⟩ := hm₁.manifestOf ho₁
    rw [hs.manifestOf (runCalls_manifestsOK samplePlatform sampleRouting) hmem, hm, Option.some.injEq] at hm'
    exact hm' ▸ hm₁.getManifest hmem' hid' ho₁
  -- both workers are accepted, `a` first; their rows are stored in the order of their ids
  have hlist := listWorkersWithProfiles_of_sorted (s := ss.db) (by rw [hss]; decide +kernel)
  have hpair : ((Repository.getWorkOrder 1 ss.db).bind fun o => (manifestOf ss.db o).map fun m =>
      rankedPair 1 "a" "v" (((ss.db.workers.map fun w => (w, Repository.getRoutingProfile w.workerId ss.db)).map fun wp =>
        evaluateRoutingCandidate samplePlatform wp.1 wp.2 (Service.routingRequest o m) 4 60 60).filterMap
          RoutingEligibility.candidate)) = some true := by rw [hss]; decide +kernel
  rw [ho, Option.bind_some, hm, Option.map_some, ← hlist, Option.some.injEq] at hpair
  change rankedPair 1 "a" "v" (candidatesFor samplePlatform (sampleEnv 4) (Service.routingRequest o m) 4 ss.db) = true
    at hpair
  unfold rankedPair at hpair
  split at hpair
  · rename_i c c' hcandidates
    simp only [Bool.and_eq_true, beq_iff_eq] at hpair
    obtain ⟨⟨⟨⟨hc, hc'⟩, hp⟩, hp'⟩, hle⟩ := hpair
    obtain ⟨a, hassess, hselected⟩ := assessRoute_of_sorted hclock
      (runCalls_keys samplePlatform sampleRouting) hmem hqueued hpolicy hsync hget hcandidates (by simp [hp, hp'])
      (by simpa [hunits] using hle)
    obtain ⟨hcmem, hcprofile, heligible⟩ : c'.worker ∈ ss.db.workers ∧ _ ∧ _ :=
      mem_candidatesFor.1 (hcandidates ▸ List.mem_cons_of_mem _ List.mem_cons_self)
    obtain rfl : v = c'.worker :=
      (runCalls_keys samplePlatform sampleRouting).workers.eq_of_key hvmem hcmem (hvid.trans hc'.symm)
    obtain ⟨-, hagree⟩ := runCalls_assessment samplePlatform sampleRouting hclock hclock rfl rfl
      (by rw [← hss]; decide +kernel) hmem hpolicy hm
    refine ⟨a, s₁, o, _, hid ▸ hassess, hselected.trans (by rw [hc]), ho, hv, fun result ss' h => ?_⟩
    have := hagree a s₁ "a" hassess (hselected.trans (by rw [hc])) _ hvmem (by rw [hvid]; decide)
      (by rw [← hcprofile]; exact Option.isSome_iff_exists.2 ⟨_, evaluate_candidate.2 ⟨rfl, heligible⟩⟩)
      result ss' (by rw [hvid]; exact h)
    exact hid ▸ this
  · cases hpair

end Switchboard
