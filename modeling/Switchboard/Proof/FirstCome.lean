import Switchboard.Proof.Checkout
import Switchboard.Proof.Revisions

/-!
# Checkout is first-come

What a checkout that runs alone at one instant assigns, without faults of the database.

* `routesTo`, `claimableOrders`: the queued orders, in id order, that the evaluator and the ranking give to the worker.
* `claimBlock_total`, `claimBlock_blocked`: the claim of such an order succeeds unless the revision of the worker's
  profile is too close to its limit; then it ends the scan.
* `checkoutComplete_iff`: so the first of the claimable orders is assigned, exactly when its claim has that head-room.
-/

namespace Switchboard

open Table Transaction

variable {P : Platform} {env : Env} {ss ss' : Session Database} {s s' : Database} {t : Time} {w : Worker}

/-! ## The claim of one order -/

/-- No statement of a nested claim meets a fault of the database. -/
def NoFault (env : Env) : Prop := ∀ n st, env.fault n st = none

/-- The largest revision at which `reserve_routing_quota` reserves `units`. -/
def reservableRevision (units : ℤ) : ℤ := maxRoutingRevision - (if units ≠ 0 then 2 else 1)

theorem mayFail_noFault (h : NoFault env) (n : ℕ) (st : ClaimStatement) : Service.mayFail env n st ss = .ok ((), ss) := by
  unfold Service.mayFail
  rw [h n st]
  rfl

/-- The profile that the evaluator accepted for `units`. -/
structure Reservable (s : Database) (workerId : String) (units : ℤ) (p : RoutingProfile) : Prop where
  mem : p ∈ s.profiles
  workerId : p.workerId = workerId
  enabled : p.enabled = true
  units : units ≤ p.quotaRemainingUnits
  capacity : p.quotaRemainingUnits ≤ p.quotaCapacityUnits

/-- **An accepted profile is reserved exactly when its revision leaves head-room.** -/
theorem reserveRoutingQuota_eq (hk : UniqueKeys ss.db.profiles) {workerId : String} {units : ℤ} {p : RoutingProfile}
    (h : Reservable ss.db workerId units p) :
    ∃ s₁, Repository.reserveRoutingQuota workerId p.revision units ss =
        .ok (if p.revision ≤ reservableRevision units then some (p.revision + 1) else none, s₁) ∧
      s₁.db.orders = ss.db.orders ∧ s₁.db.runs = ss.db.runs ∧ s₁.db.leases = ss.db.leases := by
  set guard : RoutingProfile → Bool := fun x => x.workerId == workerId && x.enabled && x.revision == p.revision &&
      decide (x.revision ≤ maxRoutingRevision - (if units ≠ 0 then 2 else 1)) && decide (x.quotaRemainingUnits ≥ units) &&
      decide (x.quotaRemainingUnits ≤ x.quotaCapacityUnits) with hguard
  have hupdated : affectedOne guard ss.db.profiles = decide (p.revision ≤ reservableRevision units) := by
    by_cases hrevision : p.revision ≤ reservableRevision units
    · rw [decide_eq_true hrevision]
      refine affectedOne_of_mem hk h.mem ?_ fun x _ hx => ?_
      · simp only [hguard, h.workerId, h.enabled, beq_self_eq_true, Bool.and_true, Bool.and_eq_true, decide_eq_true_eq,
          ge_iff_le]
        exact ⟨⟨⟨trivial, hrevision⟩, h.units⟩, h.capacity⟩
      · simp only [hguard, Bool.and_eq_true, beq_iff_eq] at hx
        exact hx.1.1.1.1.1.trans h.workerId.symm
    · rw [decide_eq_false hrevision]
      by_contra hne
      rw [Bool.not_eq_false] at hne
      obtain ⟨x, hx, hxguard, -⟩ := affectedOne_row hne
      simp only [hguard, Bool.and_eq_true, beq_iff_eq, decide_eq_true_eq] at hxguard
      refine hrevision ?_
      rw [← hxguard.1.1.1.2]
      exact hxguard.1.1.2
  refine ⟨ss.push (updateProfiles guard (RoutingProfile.reserved p.revision units) ss.db).1, ?_, rfl, rfl, rfl⟩
  show Except.ok (if affectedOne guard ss.db.profiles = true then some (p.revision + 1) else none, _) = _
  rw [hupdated]
  simp only [decide_eq_true_eq]
  rfl

/-- What a worker and a queued order must have for the claim of the order to reach its quota. -/
structure Claimable (s : Database) (w : Worker) (o : WorkOrder) (profile : Option RoutingProfile) : Prop where
  worker : w ∈ s.workers
  online : w.status = .online
  free : w.activeRunCount < w.maxConcurrency
  order : o ∈ s.orders
  queued : o.status = .queued
  profile : ∀ p, profile = some p → Reservable s w.workerId o.spec.requiredQuotaUnits p

theorem reserveWorkerCapacity_true (hk : Keys s) (hw : w ∈ s.workers) (honline : w.status = .online)
    (hfree : w.activeRunCount < w.maxConcurrency) : (Repository.reserveWorkerCapacity w.workerId s).2 = true := by
  refine affectedOne_of_mem hk.workers hw ?_ fun x _ hx => ?_
  · simp [honline, hfree]
  · simp only [Bool.and_eq_true, beq_iff_eq] at hx
    exact hx.1.1

/-- The quota part of a claim with head-room. -/
theorem claimQuota_total (hf : NoFault env) (hk : UniqueKeys ss.db.profiles) {o : WorkOrder}
    {profile : Option RoutingProfile} (n : ℕ)
    (hreservable : ∀ p, profile = some p → Reservable ss.db w.workerId o.spec.requiredQuotaUnits p)
    (hroom : ∀ p, profile = some p → p.revision ≤ reservableRevision o.spec.requiredQuotaUnits) :
    ∃ q s₁, Service.claimQuota env n w o profile ss = .ok (q, s₁) ∧ s₁.db.orders = ss.db.orders ∧
      s₁.db.runs = ss.db.runs ∧ s₁.db.leases = ss.db.leases := by
  unfold Service.claimQuota
  cases profile with
  | none => exact ⟨_, ss, rfl, rfl, rfl, rfl⟩
  | some p =>
    obtain ⟨s₁, hreserved, hsame⟩ := reserveRoutingQuota_eq hk (hreservable p rfl)
    rw [if_pos (hroom p rfl)] at hreserved
    simp only
    rw [bind_of_ok (mayFail_noFault hf n _), bind_of_ok hreserved, bind_of_ok rfl]
    exact ⟨_, s₁, rfl, hsame⟩

/-- The claim of an order whose profile is at its limit raises. -/
theorem claimQuota_blocked (hf : NoFault env) (hk : UniqueKeys ss.db.profiles) {o : WorkOrder} {p : RoutingProfile}
    (n : ℕ) (hreservable : Reservable ss.db w.workerId o.spec.requiredQuotaUnits p)
    (hroom : ¬ p.revision ≤ reservableRevision o.spec.requiredQuotaUnits) :
    Service.claimQuota env n w o (some p) ss = .error (.checkoutReservationConflict "routing_reservation_conflict") := by
  obtain ⟨s₁, hreserved, -⟩ := reserveRoutingQuota_eq hk hreservable
  rw [if_neg hroom] at hreserved
  unfold Service.claimQuota
  simp only
  rw [bind_of_ok (mayFail_noFault hf n _), bind_of_ok hreserved]
  rfl

theorem claimQueuedWorkOrder_true (hk : UniqueKeys s.orders) {o : WorkOrder} (ho : o ∈ s.orders)
    (hqueued : o.status = .queued) (route : OrderRoute) :
    (Repository.claimQueuedWorkOrder o.id t route s).2 = true := by
  refine affectedOne_of_mem hk ho ?_ fun x _ hx => ?_
  · simp [hqueued]
  · simp only [Bool.and_eq_true, beq_iff_eq] at hx
    exact hx.1

/-- The number of the next attempt of an order is new, and so are its lease and the id of its run. -/
theorem newAttempt (hc : Coherent s) (hk : Keys s) (ha : AttemptsOK s) {o : WorkOrder} (ho : o ∈ s.orders)
    (hqueued : o.status = .queued) :
    (∀ r ∈ s.runs, ¬ (r.workOrderId = o.id ∧ r.attemptNumber = o.attemptCount + 1)) ∧
      ∀ l ∈ s.leases, ¬ (l.workOrderId = o.id ∨ l.executionRunId = nextId s.runs) := by
  refine ⟨?_, ?_⟩
  · rintro r hr ⟨hid, hnumber⟩
    have hmem : r.attemptNumber ∈ attemptNumbers s o.id :=
      List.mem_map.2 ⟨r, List.mem_filter.2 ⟨hr, by simp [hid]⟩, rfl⟩
    rw [ha.numbers o ho, List.mem_range'] at hmem
    omega
  · intro l hl hor
    obtain ⟨r, x, hb⟩ := hc.lease l hl
    rcases hor with hid | hid
    · obtain rfl : x = o := hk.orders.unique.eq_of_key hb.order ho (hb.orderId.trans hid)
      have hactive := hb.active
      have hstatus := hb.status
      rw [hqueued] at hstatus
      cases hr : r.status <;> rw [hr] at hactive hstatus <;> cases hactive <;> cases hstatus
    · have hlt : r.id < nextId s.runs := lt_nextId hb.run
      rw [hb.runId, hid] at hlt
      exact lt_irrefl _ hlt

theorem createRun_total {o : WorkOrder} {workerId : String} {expiresAt : Time} {route : RunRoute}
    (h : ∀ r ∈ ss.db.runs, ¬ (r.workOrderId = o.id ∧ r.attemptNumber = o.attemptCount)) :
    Repository.createRun o workerId t expiresAt route ss =
      .ok (Repository.activeRun o workerId t expiresAt route (nextId ss.db.runs), ss.push { ss.db with
        runs := ss.db.runs ++ [Repository.activeRun o workerId t expiresAt route (nextId ss.db.runs)] }) := by
  have hnone : (ss.db.runs.any fun r => r.workOrderId == o.id && r.attemptNumber == o.attemptCount) = false := by
    rw [List.any_eq_false]
    intro r hr
    simpa using h r hr
  unfold Repository.createRun
  rw [read_bind, hnone]
  rfl

theorem createLease_total {o : WorkOrder} {run : ExecutionRun} {workerId : String} {expiresAt : Time}
    (h : ∀ l ∈ ss.db.leases, ¬ (l.workOrderId = o.id ∨ l.executionRunId = run.id)) :
    Repository.createLease o run workerId t expiresAt ss =
      .ok (⟨nextId ss.db.leases, o.id, run.id, workerId, expiresAt, t⟩, ss.push { ss.db with
        leases := ss.db.leases ++ [⟨nextId ss.db.leases, o.id, run.id, workerId, expiresAt, t⟩] }) := by
  have hnone : (ss.db.leases.any fun l => l.workOrderId == o.id || l.executionRunId == run.id) = false := by
    rw [List.any_eq_false]
    intro l hl
    simpa using h l hl
  unfold Repository.createLease
  rw [read_bind, hnone]
  rfl

/-- **A claim with head-room succeeds.** -/
theorem claimBlock_total (hf : NoFault env) (hk : Keys ss.db) (hc : Coherent ss.db) (ha : AttemptsOK ss.db)
    {o : WorkOrder} {profile : Option RoutingProfile} (h : Claimable ss.db w o profile)
    (hroom : ∀ p, profile = some p → p.revision ≤ reservableRevision o.spec.requiredQuotaUnits) (n count : ℕ)
    (pin : Bool) : ∃ result ss', Service.claimBlock env n w o profile count pin t ss = .ok (result, ss') := by
  set s₁ := ss.push (Repository.reserveWorkerCapacity w.workerId ss.db).1 with hs₁
  have hprofiles : UniqueKeys s₁.db.profiles := hk.profiles
  have hreservable : ∀ p, profile = some p → Reservable s₁.db w.workerId o.spec.requiredQuotaUnits p := fun p hp =>
    { h.profile p hp with mem := (h.profile p hp).mem }
  obtain ⟨q, s₂, hquota, horders, hruns, hleases⟩ : ∃ q s₂, Service.claimQuota env n w o profile s₁ = .ok (q, s₂) ∧
      s₂.db.orders = s₁.db.orders ∧ s₂.db.runs = s₁.db.runs ∧ s₂.db.leases = s₁.db.leases :=
    claimQuota_total hf hprofiles n hreservable hroom
  have hunique : UniqueKeys s₂.db.orders := horders ▸ hk.orders.unique
  have hmem : o ∈ s₂.db.orders := horders ▸ h.order
  set route := Service.orderRoute w q count pin t with hroute
  have hclaimed := claimQueuedWorkOrder_true (t := t) hunique hmem h.queued route
  obtain ⟨x, hx, hxid, -, hdb⟩ := claimQueuedWorkOrder_ok hclaimed hunique
  obtain rfl : x = o := hunique.eq_of_key hx hmem hxid
  have hget : Service.requireWorkOrder x.id (Repository.claimQueuedWorkOrder x.id t route s₂.db).1 =
      .ok (x.claimed t route) := by
    have hfind : (put (x.claimed t route) s₂.db.orders).find? (fun y => y.id == x.id) = some (x.claimed t route) :=
      (hunique.put _).find?_eq (mem_put_self hmem rfl) (by simp [WorkOrder.claimed]) fun y _ hy => beq_iff_eq.1 hy
    unfold Service.requireWorkOrder Repository.getWorkOrder
    rw [hdb]
    simp only [hfind]
  obtain ⟨hattempt, hlease⟩ := newAttempt hc hk ha h.order h.queued
  unfold Service.claimBlock
  rw [bind_of_ok (mayFail_noFault hf n _), exec_bind, reserveWorkerCapacity_true hk h.worker h.online h.free,
    bind_of_ok (require_ok (u := ()).2 ⟨rfl, rfl⟩), bind_of_ok hquota, bind_of_ok (mayFail_noFault hf n _), exec_bind,
    hclaimed, bind_of_ok (require_ok (u := ()).2 ⟨rfl, rfl⟩), bind_of_ok (query_ok.2 ⟨hget, rfl⟩),
    bind_of_ok (mayFail_noFault hf n _), bind_of_ok (createRun_total ?_), bind_of_ok (mayFail_noFault hf n _),
    bind_of_ok (createLease_total ?_)]
  · exact ⟨_, _, rfl⟩
  · intro l hl hor
    refine hlease l (hleases ▸ hl) (hor.imp_right fun hid => ?_)
    rw [hid]
    exact congrArg nextId hruns
  · intro r hr
    exact hattempt r (hruns ▸ hr)

/-- **A claim without head-room raises the reservation conflict.** -/
theorem claimBlock_blocked (hf : NoFault env) (hk : Keys ss.db) {o : WorkOrder} {p : RoutingProfile}
    (h : Claimable ss.db w o (some p)) (hroom : ¬ p.revision ≤ reservableRevision o.spec.requiredQuotaUnits)
    (n count : ℕ) (pin : Bool) : Service.claimBlock env n w o (some p) count pin t ss =
      .error (.checkoutReservationConflict "routing_reservation_conflict") := by
  set s₁ := ss.push (Repository.reserveWorkerCapacity w.workerId ss.db).1 with hs₁
  have hprofiles : UniqueKeys s₁.db.profiles := hk.profiles
  have hreservable : Reservable s₁.db w.workerId o.spec.requiredQuotaUnits p :=
    { h.profile p rfl with mem := (h.profile p rfl).mem }
  have hquota := claimQuota_blocked hf hprofiles n hreservable hroom
  unfold Service.claimBlock
  rw [bind_of_ok (mayFail_noFault hf n _), exec_bind, reserveWorkerCapacity_true hk h.worker h.online h.free,
    bind_of_ok (require_ok (u := ()).2 ⟨rfl, rfl⟩)]
  exact bind_of_error hquota

/-! ## The orders that go to a worker -/

/-- The evaluator accepts the worker for the order and, for an order of the cheapest policy, the ranking of all the
accepted workers begins with it. -/
def routesTo (P : Platform) (env : Env) (t : Time) (s : Database) (w : Worker) (o : WorkOrder) (m : CommandManifest) :
    Bool :=
  (evaluateRoutingCandidate P w (Repository.getRoutingProfile w.workerId s) (Service.routingRequest o m) t
    env.heartbeatFreshnessSeconds env.activePollFreshnessSeconds).candidate.isSome &&
  match o.spec.routingPolicy with
  | .firstAvailable => true
  | .cheapestCapable =>
    match rankRoutingCandidates (candidatesFor P env (Service.routingRequest o m) t s) o.spec.requiredQuotaUnits with
    | .ok (selected :: _) => selected.worker.workerId == w.workerId
    | _ => false

/-- The queued orders, in id order, that go to the worker. -/
def claimableOrders (P : Platform) (env : Env) (t : Time) (s : Database) (w : Worker) : List WorkOrder :=
  (s.orders.filter fun o => o.status == .queued).filter fun o =>
    match manifestOf s o with
    | some m => routesTo P env t s w o m
    | none => false

theorem routingEligibilities_find (hk : UniqueKeys s.workers) (hw : w ∈ s.workers)
    (request : RoutingEvaluationRequest) :
    (Service.routingEligibilities P env request t s).find? (fun e => e.worker.workerId == w.workerId) =
      some (evaluateRoutingCandidate P w (Repository.getRoutingProfile w.workerId s) request t
        env.heartbeatFreshnessSeconds env.activePollFreshnessSeconds) := by
  unfold Service.routingEligibilities
  have hlist : (w, Repository.getRoutingProfile w.workerId s) ∈ Repository.listWorkersWithProfiles s :=
    List.mem_map.2 ⟨w, (List.mergeSort_perm _ _).mem_iff.2 hw, rfl⟩
  cases hfind : (Repository.listWorkersWithProfiles s).find? (fun wp => wp.1.workerId == w.workerId) with
  | none =>
    have := List.find?_eq_none.1 hfind _ hlist
    simp at this
  | some wp =>
    obtain ⟨hmem, hprofile⟩ := listWorkersWithProfiles_mem (List.mem_of_find?_eq_some hfind)
    have hid : wp.1.workerId = w.workerId := by simpa using List.find?_some hfind
    obtain rfl : wp.1 = w := hk.eq_of_key hmem hw hid
    rw [List.find?_map]
    have hsame : ((fun e : RoutingEligibility => e.worker.workerId == wp.1.workerId) ∘ fun x : Worker × Option RoutingProfile =>
        evaluateRoutingCandidate P x.1 x.2 request t env.heartbeatFreshnessSeconds env.activePollFreshnessSeconds) =
        fun x => x.1.workerId == wp.1.workerId := by
      funext x
      simp only [Function.comp_apply, evaluate_worker.1]
    rw [hsame, hfind, Option.map_some, ← hprofile]

/-- The ranking does not raise: whoever is accepted for the cheapest policy has a profile. -/
theorem rankRoutingCandidates_ok (P : Platform) (env : Env) (t : Time) (s : Database) {o : WorkOrder}
    (m : CommandManifest) (hpolicy : o.spec.routingPolicy = .cheapestCapable) :
    ∃ ranked, rankRoutingCandidates (candidatesFor P env (Service.routingRequest o m) t s) o.spec.requiredQuotaUnits =
      .ok ranked ∧ ∀ c ∈ ranked, c ∈ candidatesFor P env (Service.routingRequest o m) t s := by
  unfold rankRoutingCandidates
  rw [if_neg]
  · exact ⟨_, rfl, fun c hc => (List.mergeSort_perm _ _).mem_iff.1 hc⟩
  · rintro ⟨-, hany⟩
    obtain ⟨c, hc, hnone⟩ := List.any_eq_true.1 hany
    obtain ⟨-, -, heligible⟩ := mem_candidatesFor.1 hc
    obtain ⟨p, hp, -⟩ := heligible.profiled hpolicy
    rw [hp] at hnone
    cases hnone

/-- The profile with which a turn of the scan claims the order. -/
def claimProfile (s : Database) (w : Worker) (o : WorkOrder) : Option RoutingProfile :=
  match o.spec.routingPolicy with
  | .firstAvailable => none
  | .cheapestCapable => Repository.getRoutingProfile w.workerId s

/-- **A turn of the scan claims the order exactly when the order goes to the worker.** -/
theorem decideCandidate_routes (P : Platform) (env : Env) (t : Time) (hk : UniqueKeys s.workers) (hw : w ∈ s.workers)
    (o : WorkOrder) (m : CommandManifest) :
    ∃ decision, Service.decideCandidate w o (Service.routingEligibilities P env (Service.routingRequest o m) t s)
        (evaluateRoutingCandidate P w (Repository.getRoutingProfile w.workerId s) (Service.routingRequest o m) t
          env.heartbeatFreshnessSeconds env.activePollFreshnessSeconds) = .ok decision ∧
      if routesTo P env t s w o m then ∃ count, decision = .claim (claimProfile s w o) count
      else ∃ reason, decision = .skip reason := by
  unfold Service.decideCandidate routesTo claimProfile
  cases hpolicy : o.spec.routingPolicy with
  | firstAvailable =>
    simp only [Bool.and_true]
    cases hc : (evaluateRoutingCandidate P w (Repository.getRoutingProfile w.workerId s) (Service.routingRequest o m) t
        env.heartbeatFreshnessSeconds env.activePollFreshnessSeconds).candidate with
    | none => exact ⟨_, rfl, _, rfl⟩
    | some c => exact ⟨_, rfl, _, rfl⟩
  | cheapestCapable =>
    obtain ⟨ranked, hranked, hmem⟩ := rankRoutingCandidates_ok P env t s m hpolicy
    have hbind : ∀ {β : Type} (f : List RoutingCandidate → Except ExecutionError β),
        (rankRoutingCandidates (candidatesFor P env (Service.routingRequest o m) t s) o.spec.requiredQuotaUnits >>= f) =
          f ranked := by
      intro β f
      rw [hranked]
      rfl
    simp only [hranked]
    unfold candidatesFor at hbind
    rw [hbind]
    cases ranked with
    | nil => exact ⟨_, rfl, by simp⟩
    | cons selected rest =>
      by_cases hid : selected.worker.workerId = w.workerId
      · obtain ⟨hworker, hprofile, heligible⟩ := mem_candidatesFor.1 (hmem selected List.mem_cons_self)
        obtain hsame : selected.worker = w := hk.eq_of_key hworker hw hid
        rw [hsame] at hprofile heligible
        have hcandidate := evaluate_candidate.2 ⟨rfl, heligible⟩
        rw [← hprofile, hcandidate]
        exact ⟨_, by simp [hid]; rfl, by simp [hid]⟩
      · exact ⟨_, by simp [hid]; rfl, by simp [hid]⟩

/-! ## The scan -/

/-- One turn of the scan, for an order that goes to the worker and for one that does not. -/
theorem checkoutLoop_turn (hclock : StoppedAt env t) (hk : UniqueKeys ss.db.workers) (hw : w ∈ ss.db.workers)
    (o : WorkOrder) (m : CommandManifest) (rest : List (WorkOrder × CommandManifest)) (n : ℕ)
    (mismatch route : List String) :
    if routesTo P env t ss.db w o m then
      ∃ count mismatch', Service.checkoutLoop P env w n mismatch route ((o, m) :: rest) ss =
        (Service.claimRoutedWork env n w o (claimProfile ss.db w o) count o.spec.preferredExecutor.isSome t >>= fun result =>
          if result.reason = some "checkout_conflict" then
            Service.checkoutLoop P env w (n + 1) mismatch' (route ++ ["checkout_conflict"]) rest
          else pure result) ss
    else ∃ mismatch' route', Service.checkoutLoop P env w n mismatch route ((o, m) :: rest) ss =
      Service.checkoutLoop P env w (n + 1) mismatch' route' rest ss := by
  obtain ⟨decision, hdecision, hroutes⟩ := decideCandidate_routes P env t hk hw o m
  simp only [Service.checkoutLoop, hclock (n + 2)]
  rw [read_bind, routingEligibilities_find hk hw, bind_of_ok rfl, bind_of_ok (query_ok.2 ⟨hdecision, rfl⟩)]
  split at hroutes
  · obtain ⟨count, rfl⟩ := hroutes
    rename_i hto
    rw [if_pos hto]
    exact ⟨count, _, rfl⟩
  · obtain ⟨reason, rfl⟩ := hroutes
    rename_i hto
    rw [if_neg hto]
    exact ⟨_, _, rfl⟩

/-- Orders that do not go to the worker are passed over. -/
theorem checkoutLoop_skips (hclock : StoppedAt env t) (hk : UniqueKeys ss.db.workers) (hw : w ∈ ss.db.workers)
    {skipped : List (WorkOrder × CommandManifest)}
    (hskip : ∀ c ∈ skipped, routesTo P env t ss.db w c.1 c.2 = false) (rest : List (WorkOrder × CommandManifest)) (n : ℕ)
    (mismatch route : List String) :
    ∃ n' mismatch' route', Service.checkoutLoop P env w n mismatch route (skipped ++ rest) ss =
      Service.checkoutLoop P env w n' mismatch' route' rest ss := by
  induction skipped generalizing n mismatch route with
  | nil => exact ⟨n, mismatch, route, rfl⟩
  | cons c skipped ih =>
    obtain ⟨o, m⟩ := c
    have hturn := checkoutLoop_turn (P := P) hclock hk hw o m (skipped ++ rest) n mismatch route
    rw [if_neg (by simp [hskip (o, m) List.mem_cons_self])] at hturn
    obtain ⟨mismatch', route', hturn⟩ := hturn
    obtain ⟨n', mismatch'', route'', hrest⟩ := ih (fun c hc => hskip c (List.mem_cons_of_mem _ hc)) (n + 1) mismatch' route'
    exact ⟨n', mismatch'', route'', hturn.trans hrest⟩

/-- **The scan of orders none of which goes to the worker assigns nothing.** -/
theorem checkoutLoop_none (hclock : StoppedAt env t) (hk : UniqueKeys ss.db.workers) (hw : w ∈ ss.db.workers)
    {candidates : List (WorkOrder × CommandManifest)}
    (hskip : ∀ c ∈ candidates, routesTo P env t ss.db w c.1 c.2 = false) :
    ∃ result, Service.checkoutLoop P env w 0 [] [] candidates ss = .ok (result, ss) ∧ result.runId = none ∧
      result.workOrderId = none := by
  obtain ⟨n, mismatch, route, hscan⟩ := checkoutLoop_skips hclock hk hw hskip [] 0 [] []
  rw [List.append_nil] at hscan
  exact ⟨Service.unassigned mismatch route, hscan, unassigned_result mismatch route⟩

/-- **The scan reaches the first order that goes to the worker, and ends with its claim** or with its conflict. -/
theorem checkoutLoop_first (hclock : StoppedAt env t) (hk : UniqueKeys ss.db.workers) (hw : w ∈ ss.db.workers)
    {skipped : List (WorkOrder × CommandManifest)} {o : WorkOrder} {m : CommandManifest}
    (hskip : ∀ c ∈ skipped, routesTo P env t ss.db w c.1 c.2 = false) (hroutes : routesTo P env t ss.db w o m = true)
    (rest : List (WorkOrder × CommandManifest)) :
    ∃ n count, ∀ r, (∀ result, r.toOption = some result → result.1.reason ≠ some "checkout_conflict") →
      Service.claimRoutedWork env n w o (claimProfile ss.db w o) count o.spec.preferredExecutor.isSome t ss = r →
      Service.checkoutLoop P env w 0 [] [] (skipped ++ (o, m) :: rest) ss = r := by
  obtain ⟨n, mismatch, route, hscan⟩ := checkoutLoop_skips hclock hk hw hskip ((o, m) :: rest) 0 [] []
  have hturn := checkoutLoop_turn (P := P) hclock hk hw o m rest n mismatch route
  rw [if_pos hroutes] at hturn
  obtain ⟨count, mismatch', hturn⟩ := hturn
  refine ⟨n, count, fun r hreason hclaim => ?_⟩
  rw [hscan, hturn]
  cases r with
  | error e => exact bind_of_error hclaim
  | ok result =>
    rw [bind_of_ok hclaim, if_neg (hreason result rfl)]
    rfl

/-! ## Synchronisation and poll -/

theorem Synced.polled (h : Synced s s') (workerId : String) (t : Time) :
    Synced (polled workerId t s) (polled workerId t s') :=
  ⟨h.manifests, h.orders, by rw [polled_workers, polled_workers, h.workers], h.profiles, h.runs, h.leases⟩

theorem ManifestsOK.polled (h : ManifestsOK P s) (workerId : String) (t : Time) :
    ManifestsOK P (polled workerId t s) := ⟨h.ids, h.names, h.sources, h.orders⟩

theorem claimableOrders_synced (h : Synced s s') (hm : ManifestsOK P s) :
    claimableOrders P env t s' w = claimableOrders P env t s w := by
  unfold claimableOrders
  rw [h.orders]
  refine List.filter_congr fun o ho => ?_
  rw [h.manifestOf hm (List.mem_filter.1 ho).1]
  cases manifestOf s o with
  | none => rfl
  | some m =>
    simp only [routesTo, candidatesFor_congr h.workers h.profiles, Repository.getRoutingProfile, h.profiles]

/-- The scanned list around the first claimable order. -/
theorem listQueuedWorkOrders_split (hm : ManifestsOK P s) {o : WorkOrder} {rest : List WorkOrder}
    (h : claimableOrders P env t s w = o :: rest) :
    ∃ m skipped later, Repository.listQueuedWorkOrders s = skipped ++ (o, m) :: later ∧
      (∀ c ∈ skipped, routesTo P env t s w c.1 c.2 = false) ∧ routesTo P env t s w o m = true ∧ o ∈ s.orders ∧
      o.status = .queued := by
  obtain ⟨before, after, hqueued, hskip, hto, -⟩ := List.filter_eq_cons_iff.1 h
  have hmem : o ∈ s.orders.filter fun o => o.status == .queued := by
    rw [hqueued]
    exact List.mem_append_right _ List.mem_cons_self
  obtain ⟨ho, hstatus⟩ := List.mem_filter.1 hmem
  cases hmanifest : manifestOf s o with
  | none => simp [hmanifest] at hto
  | some m =>
    rw [hmanifest] at hto
    refine ⟨m, before.flatMap fun o => (manifestOf s o).toList.map fun m => (o, m),
      after.flatMap fun o => (manifestOf s o).toList.map fun m => (o, m), ?_, ?_, hto, ho, by simpa using hstatus⟩
    · rw [listQueuedWorkOrders_eq hm, hqueued, List.flatMap_append, List.flatMap_cons, hmanifest]
      rfl
    · intro c hc
      obtain ⟨x, hx, hc⟩ := List.mem_flatMap.1 hc
      obtain ⟨m', hm', rfl⟩ := List.mem_map.1 hc
      have := hskip x hx
      rw [Option.mem_toList.1 hm'] at this
      simpa using this

theorem listQueuedWorkOrders_none (hm : ManifestsOK P s) (h : claimableOrders P env t s w = []) :
    ∀ c ∈ Repository.listQueuedWorkOrders s, routesTo P env t s w c.1 c.2 = false := by
  intro c hc
  rw [listQueuedWorkOrders_eq hm] at hc
  obtain ⟨x, hx, hc⟩ := List.mem_flatMap.1 hc
  obtain ⟨m, hm', rfl⟩ := List.mem_map.1 hc
  have := List.filter_eq_nil_iff.1 h x hx
  rw [Option.mem_toList.1 hm'] at this
  simpa using this

/-! ## Checkout -/

/-- The checkout gives the order to the worker: an assigned run with its lease, and the order assigned. -/
def Assigns (P : Platform) (env : Env) (ss : Session Database) (w : Worker) (o : WorkOrder) : Prop :=
  ∃ result ss', Service.checkout P env w.workerId ss = .ok (result, ss') ∧ result.workOrderId = some o.id ∧
    ∃ r ∈ ss'.db.runs, result.runId = some r.id ∧ r.workOrderId = o.id ∧ r.workerId = w.workerId ∧ r.status = .assigned ∧
      (∃ l ∈ ss'.db.leases, l.executionRunId = r.id ∧ l.workOrderId = o.id ∧ l.workerId = w.workerId) ∧
      ∃ o' ∈ ss'.db.orders, o'.id = o.id ∧ o'.status = .assigned

/-- The checkout assigns nothing, and changes nothing but the worker's poll time and the manifest snapshots. -/
def AssignsNothing (P : Platform) (env : Env) (t : Time) (ss : Session Database) (w : Worker) : Prop :=
  ∃ result ss', Service.checkout P env w.workerId ss = .ok (result, ss') ∧ result.runId = none ∧
    result.workOrderId = none ∧ Synced (polled w.workerId t ss.db) ss'.db

/-- The checkout at `t` assigns the first of the orders that go to the worker, and nothing when there is none. -/
def CheckoutComplete (P : Platform) (env : Env) (t : Time) (ss : Session Database) (w : Worker) : Prop :=
  match claimableOrders P env t (polled w.workerId t ss.db) (w.polledAt w.workerId t) with
  | o :: _ => Assigns P env ss w o
  | [] => AssignsNothing P env t ss w

/-- When the first of the orders that go to the worker follows the cheapest policy, the revision of the worker's profile
is one at which the order's quota can be reserved. -/
def HeadRoom (P : Platform) (env : Env) (t : Time) (s : Database) (w : Worker) : Prop :=
  ∀ o rest p, claimableOrders P env t (polled w.workerId t s) (w.polledAt w.workerId t) = o :: rest →
    o.spec.routingPolicy = .cheapestCapable → Repository.getRoutingProfile w.workerId s = some p →
    p.revision ≤ reservableRevision o.spec.requiredQuotaUnits

/-- What the proofs about a checkout need to know of the database it starts from. -/
structure Sound (P : Platform) (s : Database) : Prop where
  keys : Keys s
  coherent : Coherent s
  attempts : AttemptsOK s
  manifests : ManifestsOK P s

theorem runCalls_sound (P : Platform) (calls : List Call) : Sound P (runCalls P calls).db :=
  ⟨runCalls_keys P calls, runCalls_coherent P calls, runCalls_attemptsOK P calls, runCalls_manifestsOK P calls⟩

/-- The database that the scan reads is as sound as the one before the checkout. -/
theorem Sound.scanned (h : Sound P s) (hs : Synced s s') (hm : ManifestsOK P s') (workerId : String) (t : Time) :
    Sound P (polled workerId t s') := by
  have hk : Keys s' := ⟨hs.orders ▸ h.keys.orders, hs.workers ▸ h.keys.workers, hs.profiles ▸ h.keys.profiles,
    hs.runs ▸ h.keys.runs, hs.leases ▸ h.keys.leases, hs.leases ▸ h.keys.leaseOrder, hs.leases ▸ h.keys.leaseRun⟩
  refine ⟨hk.polled, h.coherent.congr hs.orders hs.runs hs.leases, ?_, hm.polled workerId t⟩
  refine h.attempts.orders hs.runs fun o ho => ⟨o, ?_, rfl, rfl⟩
  rw [← hs.orders]
  exact ho

/-- An order that goes to the worker is one that it can claim. -/
theorem routesTo_claimable {o : WorkOrder} {m : CommandManifest} (hw : w ∈ s.workers)
    (ho : o ∈ s.orders) (hqueued : o.status = .queued) (h : routesTo P env t s w o m = true) :
    Claimable s w o (claimProfile s w o) := by
  unfold routesTo at h
  rw [Bool.and_eq_true] at h
  obtain ⟨c, hc⟩ := Option.isSome_iff_exists.1 h.1
  obtain ⟨-, heligible⟩ := evaluate_candidate.1 hc
  refine ⟨hw, heligible.online, heligible.free, ho, hqueued, ?_⟩
  intro p hp
  unfold claimProfile at hp
  cases hpolicy : o.spec.routingPolicy with
  | firstAvailable => simp [hpolicy] at hp
  | cheapestCapable =>
    simp only [hpolicy] at hp
    obtain ⟨x, hx, hvalid, henabled, -, hunits⟩ := heligible.profiled hpolicy
    obtain rfl : p = x := Option.some.inj (hp.symm.trans hx)
    obtain ⟨hmem, hid⟩ := getRoutingProfile_some hp
    unfold validProfile at hvalid
    simp only [Bool.and_eq_true, decide_eq_true_eq] at hvalid
    exact ⟨hmem, hid, henabled, hunits, hvalid.1.1.2.2⟩

/-- **A checkout alone at `t` is complete exactly when the claim of the first claimable order has head-room.** -/
theorem checkoutComplete_iff (hP : P.Registered) (hs : Sound P ss.db) (hclock : StoppedAt env t) (hf : NoFault env)
    (hstale : ∀ l ∈ ss.db.leases, t ≤ l.expiresAt) (hw : w ∈ ss.db.workers) (honline : w.status = .online) :
    CheckoutComplete P env t ss w ↔ HeadRoom P env t ss.db w := by
  obtain ⟨s₁, hsync, hm₁, hsynced⟩ := syncTrustedManifests_ok hP hs.manifests
  set v := w.polledAt w.workerId t with hv
  set s₂ := s₁.push (polled w.workerId t s₁.db) with hs₂
  have hcheckout := checkout_eq hclock hs.keys hstale hsync hw honline
  have hsound : Sound P s₂.db := hs.scanned hsynced hm₁ w.workerId t
  have hvid : v.workerId = w.workerId := polledAt_workerId
  have hvmem : v ∈ s₂.db.workers := by
    show v ∈ (polled w.workerId t s₁.db).workers
    rw [polled_workers]
    exact List.mem_map_of_mem (hsynced.workers ▸ hw)
  have hclaimable : claimableOrders P env t s₂.db v =
      claimableOrders P env t (polled w.workerId t ss.db) v :=
    claimableOrders_synced (hsynced.polled w.workerId t) (hs.manifests.polled w.workerId t)
  have hprofiles : Repository.getRoutingProfile v.workerId s₂.db = Repository.getRoutingProfile w.workerId ss.db := by
    rw [hvid]
    show s₁.db.profiles.find? _ = ss.db.profiles.find? _
    rw [hsynced.profiles]
  unfold CheckoutComplete HeadRoom
  rw [← hclaimable]
  cases hlist : claimableOrders P env t s₂.db v with
  | nil =>
    obtain ⟨result, hscan, hnone⟩ := checkoutLoop_none (P := P) hclock hsound.keys.workers hvmem
      (listQueuedWorkOrders_none hsound.manifests hlist)
    refine iff_of_true ?_ (by simp)
    exact ⟨result, s₂, hcheckout.trans hscan, hnone.1, hnone.2, hsynced.polled w.workerId t⟩
  | cons o rest =>
    obtain ⟨m, skipped, later, hsplit, hskip, hto, ho, hqueued⟩ := listQueuedWorkOrders_split hsound.manifests hlist
    obtain ⟨n, count, hfirst⟩ := checkoutLoop_first hclock hsound.keys.workers hvmem hskip hto later
    rw [← hsplit] at hfirst
    have hclaim := routesTo_claimable hvmem ho hqueued hto
    have hroom : (∀ o' rest' p, o :: rest = o' :: rest' → o'.spec.routingPolicy = .cheapestCapable →
        Repository.getRoutingProfile w.workerId ss.db = some p → p.revision ≤ reservableRevision o'.spec.requiredQuotaUnits) ↔
        ∀ p, claimProfile s₂.db v o = some p → p.revision ≤ reservableRevision o.spec.requiredQuotaUnits := by
      unfold claimProfile
      rw [hprofiles]
      cases hpolicy : o.spec.routingPolicy with
      | firstAvailable =>
        refine iff_of_true (fun o' rest' p heq hcheap => ?_) (by simp)
        rw [← (List.cons.inj heq).1, hpolicy] at hcheap
        cases hcheap
      | cheapestCapable =>
        refine ⟨fun h p hp => h o rest p rfl hpolicy hp, fun h o' rest' p heq _ hp => ?_⟩
        rw [← (List.cons.inj heq).1]
        exact h p hp
    rw [hroom]
    constructor
    · -- a claim at the limit ends the scan with its conflict
      rintro ⟨result, ss', hok, hassigned, -⟩ p hp
      by_contra hlimit
      rw [hp] at hclaim
      have hblocked := claimBlock_blocked (t := t) hf hsound.keys hclaim hlimit n count o.spec.preferredExecutor.isSome
      have hscan := hfirst (.ok (⟨none, none, some "routing_reservation_conflict", []⟩, s₂)) (by simp [Except.toOption])
        (by rw [hp]; exact attempt_ok.2 (Or.inr ⟨_, hblocked, rfl, rfl⟩))
      have hsame := (hcheckout.trans hscan).symm.trans hok
      cases hsame
      cases hassigned
    · intro hroom
      obtain ⟨result, ss', hblock⟩ := claimBlock_total (t := t) hf hsound.keys hsound.coherent hsound.attempts hclaim hroom n
        count o.spec.preferredExecutor.isSome
      obtain ⟨x, q, profiles, hxid, -, hdb, -, hresult⟩ := claimBlock_ok hsound.keys ho hblock
      have hscan := hfirst (.ok (result, ss')) (by simp [Except.toOption, hresult]) (attempt_ok.2 (Or.inl hblock))
      refine ⟨result, ss', hcheckout.trans hscan, by rw [hresult], ?_⟩
      rw [hdb, hresult]
      exact ⟨_, List.mem_append_right _ (List.mem_singleton.2 rfl), rfl, rfl, hxid.trans hvid, rfl,
        ⟨_, List.mem_append_right _ (List.mem_singleton.2 rfl), rfl, rfl, hxid.trans hvid⟩,
        _, mem_put_self ho rfl, rfl, rfl⟩

def sampleValues : RoutingProfileValues := ⟨true, 1, 10, 10, none, 0⟩

/-- A worker with a profile, and one queued order of the cheapest policy. -/
def sampleQueue : List Call :=
  [⟨sampleEnv 0, .registerWorker sampleRegistration⟩,
   ⟨sampleEnv 1, .createRoutingProfile ⟨1, "w", sampleValues⟩⟩,
   ⟨sampleEnv 2, .createWorkOrder { sampleDraft .never with routingPolicy := .cheapestCapable }⟩,
   ⟨sampleEnv 3, .approveWorkOrder 1 true⟩]

/-- The calls, and then `n` replacements of the profile by its own values. -/
def sampleReplaced (calls : List Call) (n : ℕ) : List Call :=
  calls ++ replacements (sampleEnv 3) "w" sampleValues 1 n

def sampleRow (n : ℕ) : RoutingProfile := ⟨"w", 1, true, 1, 10, 10, none, 0, 1 + n⟩

theorem sampleReplaced_db (calls : List Call) (hprofiles : (runCalls samplePlatform calls).db.profiles = [sampleRow 0])
    (hidle : Repository.countReservedQuotaRuns "w" (runCalls samplePlatform calls).db = 0) (n : ℕ)
    (h : 1 + (n : ℤ) ≤ maxRoutingRevision) :
    (runCalls samplePlatform (sampleReplaced calls n)).db =
      { (runCalls samplePlatform calls).db with profiles := [sampleRow n] } := by
  have hmem : sampleRow 0 ∈ (runCalls samplePlatform calls).db.profiles := by
    rw [hprofiles]
    exact List.mem_singleton.2 rfl
  have hvalues : OwnValues (sampleRow 0) sampleValues ⟨true, 1, 10, 10, none, 0⟩ := ⟨rfl, rfl⟩
  have hchain := foldl_replacements samplePlatform (sampleEnv 3) (runCalls_keys samplePlatform calls) hmem hvalues
    hidle (by decide) n h
  have hput : put ((sampleRow 0).atRevision ((sampleRow 0).revision + n))
      (runCalls samplePlatform calls).db.profiles = [sampleRow n] := by
    rw [hprofiles]
    rfl
  rw [hput] at hchain
  unfold sampleReplaced
  rw [runCalls_append]
  exact hchain

end Switchboard
