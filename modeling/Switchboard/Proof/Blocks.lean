import Switchboard.Proof.Statements

/-!
# Blocks of the service are lifecycle effects

Each nested block of the service that did not raise is one `Effect`, and its statements
keep the transition tables one by one: the guard at the end of a block shows that its
run and its order were active all along.

* `settleConsumedLease_ok`: what follows the deletion of a lease.
* `finishActiveLease_block`, `expireStaleLease_block`: a lease is closed.
* `heartbeatRun_block`, `claimBlock_block`, `resolveReuseCandidate_block`.
-/

namespace Switchboard

open Table Transaction

variable {P : Platform} {scope : Scope} {env : Env} {ss ss' : Session Database}

/-! ## Settling a reservation -/

/-- The orders after the reservation of `r` was settled to `q`. -/
def SettledOrders (q : QuotaReservationState) (s : Database) (r : ExecutionRun) (workOrderId : ℕ)
    (orders : List WorkOrder) : Prop :=
  if r.route.quotaState = .reserved then
    ∃ o ∈ s.orders, o.id = workOrderId ∧ o.route.quotaState = some .reserved ∧
      orders = put (o.withQuotaState q) s.orders
  else orders = s.orders

/-- The statements of a block keep the transition tables when its run and its order are active. -/
def Tracks (r : ExecutionRun) (workOrderId : ℕ) (ss ss' : Session Database) : Prop :=
  r.status.isActive = true → (∀ o ∈ ss.db.orders, o.id = workOrderId → o.status.isActive = true) →
    Grows Allowed ss ss'

theorem settledRun_id (q : QuotaReservationState) (r : ExecutionRun) : (settledRun q r).id = r.id := by
  unfold settledRun; split <;> rfl

theorem settledOrder_id (q : QuotaReservationState) (r : ExecutionRun) (o : WorkOrder) :
    (settledOrder q r o).id = o.id := by
  unfold settledOrder; split <;> rfl

theorem settledRun_workOrderId (q : QuotaReservationState) (r : ExecutionRun) :
    (settledRun q r).workOrderId = r.workOrderId := by
  unfold settledRun; split <;> rfl

theorem settledRun_workerId (q : QuotaReservationState) (r : ExecutionRun) :
    (settledRun q r).workerId = r.workerId := by
  unfold settledRun; split <;> rfl

theorem settledOrder_spec (q : QuotaReservationState) (r : ExecutionRun) (o : WorkOrder) :
    (settledOrder q r o).spec = o.spec := by
  unfold settledOrder; split <;> rfl

/-- The order that a later statement finds under the id is the settled one. -/
theorem SettledOrders.find {q : QuotaReservationState} {s : Database} {r : ExecutionRun} {workOrderId : ℕ}
    {orders : List WorkOrder} (h : SettledOrders q s r workOrderId orders) {o' : WorkOrder} (ho' : o' ∈ orders)
    (hid : o'.id = workOrderId) :
    ∃ o ∈ s.orders, o.id = workOrderId ∧ ReservationAgrees r o ∧ o' = settledOrder q r o ∧
      ∀ x : WorkOrder, x.id = workOrderId → put x orders = put x s.orders := by
  unfold SettledOrders at h
  unfold ReservationAgrees settledOrder
  split at h
  · rename_i hres
    obtain ⟨o, ho, hoid, hq, rfl⟩ := h
    refine ⟨o, ho, hoid, fun _ => hq, ?_, ?_⟩
    · rw [if_pos hres]
      rcases of_mem_put ho' with h | ⟨-, hne⟩
      · exact h
      · exact absurd (hid.trans hoid.symm) hne
    · intro x hx; exact put_put (show o.id = x.id from hoid.trans hx.symm)
  · rename_i hres
    subst h
    exact ⟨o', ho', hid, fun hr => absurd hr hres, by rw [if_neg hres], fun _ _ => rfl⟩

theorem settleReservation_ok {runId workOrderId : ℕ} {q : QuotaReservationState}
    (ho : UniqueKeys ss.db.orders) (hr : UniqueKeys ss.db.runs)
    (h : Repository.settleReservation runId workOrderId q ss = .ok (true, ss')) :
    ∃ r ∈ ss.db.runs, r.id = runId ∧ r.route.quotaState = .reserved ∧
      ∃ o ∈ ss.db.orders, o.id = workOrderId ∧ o.route.quotaState = some .reserved ∧
        ss'.db = { ss.db with
          runs := put (r.withQuotaState q) ss.db.runs, orders := put (o.withQuotaState q) ss.db.orders } ∧
        Tracks r workOrderId ss ss' := by
  unfold Repository.settleReservation at h
  simp only [bind_ok, exec_ok, pure_ok, Bool.and_eq_true] at h
  obtain ⟨_, _, ⟨rfl, rfl⟩, _, _, ⟨rfl, rfl⟩, ⟨h₁, h₂⟩, rfl⟩ := h
  obtain ⟨r, hrm, hrid, hrq, he₁⟩ := settleRunQuota_ok h₁ hr
  simp only [Session.push_db] at h₂ ⊢
  rw [he₁] at h₂ ⊢
  obtain ⟨o, hom, hoid, hoq, he₂⟩ := settleOrderQuota_ok h₂ ho
  refine ⟨r, hrm, hrid, hrq, o, hom, hoid, hoq, he₂, ?_⟩
  intro hract hoact
  refine (Grows.refl.push ?_).push ?_
  · exact allowed_putRun rfl rfl ho hr hrm rfl (RunMoves.of_active hract (Or.inl rfl))
  · rw [he₂]
    exact allowed_putOrder rfl rfl ho (hr.put _) hom rfl (OrderMoves.of_active (hoact o hom hoid) (Or.inl rfl))

theorem put_settledRun_self {q : QuotaReservationState} {t : List ExecutionRun} {r : ExecutionRun}
    (hk : UniqueKeys t) (hr : r ∈ t) (hq : r.route.quotaState ≠ .reserved) : put (settledRun q r) t = t := by
  unfold settledRun; rw [if_neg hq]; exact put_self hk hr

/-- The database once the reservation of `r` was settled to `q`. -/
structure ReservationSettled (q : QuotaReservationState) (workOrderId : ℕ) (r : ExecutionRun)
    (profiles : List RoutingProfile) (ss ss' : Session Database) : Prop where
  run : r ∈ ss.db.runs
  db : ∃ orders, SettledOrders q ss.db r workOrderId orders ∧
    ss'.db = { ss.db with profiles := profiles, runs := put (settledRun q r) ss.db.runs, orders := orders }
  trail : Tracks r workOrderId ss ss'

/-- A run without a reservation is settled as it stands. -/
theorem ReservationSettled.of_not_reserved {q : QuotaReservationState} {workOrderId : ℕ} {r : ExecutionRun}
    (hk : Keys ss.db) (hr : r ∈ ss.db.runs) (hq : r.route.quotaState ≠ .reserved) :
    ReservationSettled q workOrderId r ss.db.profiles ss ss := by
  refine ⟨hr, ⟨ss.db.orders, ?_, ?_⟩, fun _ _ => Grows.refl⟩
  · unfold SettledOrders; rw [if_neg hq]
  · rw [put_settledRun_self hk.runs.unique hr hq]

/-- The two statements on run and order, after `profiles` was or was not refunded. -/
theorem ReservationSettled.of_settle {q : QuotaReservationState} {runId workOrderId : ℕ} {r : ExecutionRun}
    {s₁ : Session Database} {profiles : List RoutingProfile} (hk : Keys ss.db) (hr : r ∈ ss.db.runs)
    (hid : r.id = runId) (hq : r.route.quotaState = .reserved)
    (hs₁ : s₁.db = { ss.db with profiles := profiles }) (hg : Grows Allowed ss s₁)
    (h : Repository.settleReservation runId workOrderId q s₁ = .ok (true, ss')) :
    ReservationSettled q workOrderId r profiles ss ss' := by
  have ho₁ : UniqueKeys s₁.db.orders := by rw [hs₁]; exact hk.orders.unique
  have hr₁ : UniqueKeys s₁.db.runs := by rw [hs₁]; exact hk.runs.unique
  obtain ⟨r', hr', hid', -, o, ho, hoid, hoq, hdb, htr⟩ := settleReservation_ok ho₁ hr₁ h
  rw [hs₁] at hr' ho hdb
  have hrr : r' = r := hk.runs.unique.eq_of_key hr' hr (hid'.trans hid.symm)
  subst hrr
  refine ⟨hr, ⟨put (o.withQuotaState q) ss.db.orders, ?_, ?_⟩, ?_⟩
  · unfold SettledOrders; rw [if_pos hq]; exact ⟨o, ho, hoid, hoq, rfl⟩
  · rw [hdb]; unfold settledRun; rw [if_pos hq]
  · intro hact hoact
    refine hg.trans (htr hact ?_)
    rw [hs₁]; exact hoact

theorem releaseRunQuotaReservation_ok {runId workOrderId : ℕ} {workerId : String} (hk : Keys ss.db)
    (h : Repository.releaseRunQuotaReservation runId workOrderId workerId ss = .ok (true, ss')) :
    ∃ r profiles, r.id = runId ∧ Refunds ss.db r workerId profiles ∧
      ReservationSettled .released workOrderId r profiles ss ss' := by
  unfold Repository.releaseRunQuotaReservation at h
  simp only [bind_ok, read_ok] at h
  obtain ⟨run, _, ⟨hrun, rfl⟩, h⟩ := h
  cases run with
  | none => simp at h
  | some r =>
    obtain ⟨hr, hid⟩ := getRun_some hrun
    by_cases hq : r.route.quotaState = .reserved
    · simp only [hq] at h
      by_cases hu : 0 < r.route.reservedQuotaUnits
      · -- the units go back to the profile first
        simp only [gt_iff_lt, hu, if_true, bind_ok, exec_ok] at h
        obtain ⟨refunded, _, ⟨href, rfl⟩, h⟩ := h
        cases refunded with
        | false => simp at h
        | true =>
          simp only [if_true] at h
          obtain ⟨p, hp, hpid, hcap, he⟩ := refundRoutingQuota_ok href hk.profiles
          rw [he] at h
          refine ⟨r, put (p.refunded r.route.reservedQuotaUnits) ss.db.profiles, hid, ?_, ?_⟩
          · unfold Refunds; rw [if_pos ⟨hq, hu⟩]; exact ⟨p, hp, hpid, hcap, rfl⟩
          · refine ReservationSettled.of_settle hk hr hid hq rfl (Grows.refl.push ?_) h
            exact allowed_same rfl rfl hk.orders.unique hk.runs.unique
      · simp only [gt_iff_lt, hu, if_false] at h
        refine ⟨r, ss.db.profiles, hid, ?_, ReservationSettled.of_settle hk hr hid hq rfl Grows.refl h⟩
        unfold Refunds; rw [if_neg fun hh => hu hh.2]
    · have hss : ss = ss' := by
        cases hq' : r.route.quotaState <;> simp_all
      subst hss
      refine ⟨r, ss.db.profiles, hid, ?_, ReservationSettled.of_not_reserved hk hr hq⟩
      unfold Refunds; rw [if_neg fun hh => hq hh.1]

theorem consumeRunQuotaReservation_ok {runId workOrderId : ℕ} (hk : Keys ss.db)
    (h : Repository.consumeRunQuotaReservation runId workOrderId ss = .ok (true, ss')) :
    ∃ r, r.id = runId ∧ ReservationSettled .consumed workOrderId r ss.db.profiles ss ss' := by
  unfold Repository.consumeRunQuotaReservation at h
  simp only [bind_ok, read_ok] at h
  obtain ⟨run, _, ⟨hrun, rfl⟩, h⟩ := h
  cases run with
  | none => simp at h
  | some r =>
    obtain ⟨hr, hid⟩ := getRun_some hrun
    by_cases hq : r.route.quotaState = .reserved
    · simp only [hq] at h
      exact ⟨r, hid, ReservationSettled.of_settle hk hr hid hq rfl Grows.refl h⟩
    · have hss : ss = ss' := by
        cases hq' : r.route.quotaState <;> simp_all
      subst hss
      exact ⟨r, hid, ReservationSettled.of_not_reserved hk hr hq⟩

/-! ## Closing a lease -/

/-- A row function keeps the id of a run and takes an active run along the table. -/
def RunStep (f : ExecutionRun → ExecutionRun) : Prop :=
  ∀ r, (f r).id = r.id ∧ (r.status.isActive = true → RunMoves r (f r))

/-- A row function keeps the id of an order and takes an active order along the table. -/
def OrderStep (g : WorkOrder → WorkOrder) : Prop :=
  ∀ o, (g o).id = o.id ∧ (o.status.isActive = true → OrderMoves o (g o))

theorem settledRun_status (q : QuotaReservationState) (r : ExecutionRun) :
    (settledRun q r).status = r.status := by
  unfold settledRun; split <;> rfl

theorem settledOrder_status (q : QuotaReservationState) (r : ExecutionRun) (o : WorkOrder) :
    (settledOrder q r o).status = o.status := by
  unfold settledOrder; split <;> rfl

/-- The tail shared by heartbeats and closings: with the reservation settled, the run and the order
move under their guards. -/
theorem moveRecords_ok {q : QuotaReservationState} {workOrderId : ℕ} {r : ExecutionRun}
    {profiles : List RoutingProfile} {s₁ : Session Database} {f : ExecutionRun → ExecutionRun}
    {g : WorkOrder → WorkOrder} (hk : Keys ss.db) (hf : RunStep f) (hg : OrderStep g)
    (hs : ReservationSettled q workOrderId r profiles ss s₁)
    (h₁ : (Repository.finishActiveRun r.id f s₁.db).2 = true)
    (h₂ : (updateOrders (fun o => o.id == workOrderId && o.status.isActive) g
      (Repository.finishActiveRun r.id f s₁.db).1).2 = true) :
    ∃ o ∈ ss.db.orders, o.id = workOrderId ∧ r.status.isActive = true ∧ o.status.isActive = true ∧
      ReservationAgrees r o ∧
      (updateOrders (fun o => o.id == workOrderId && o.status.isActive) g
        (Repository.finishActiveRun r.id f s₁.db).1).1 =
        { ss.db with
          profiles := profiles, runs := put (f (settledRun q r)) ss.db.runs
          orders := put (g (settledOrder q r o)) ss.db.orders } ∧
      Grows Allowed ss ((s₁.push (Repository.finishActiveRun r.id f s₁.db).1).push
        (updateOrders (fun o => o.id == workOrderId && o.status.isActive) g
          (Repository.finishActiveRun r.id f s₁.db).1).1) := by
  obtain ⟨hrm, ⟨orders, hso, hdb⟩, htr⟩ := hs
  have hur : UniqueKeys s₁.db.runs := by rw [hdb]; exact hk.runs.unique.put _
  obtain ⟨r', hr', hid', hact', he₁⟩ := finishActiveRun_ok h₁ hur (fun r => (hf r).1)
  have hrr : r' = settledRun q r := by
    rw [hdb] at hr'
    rcases of_mem_put hr' with h | ⟨-, hne⟩
    · exact h
    · exact absurd (hid'.trans (settledRun_id q r).symm) hne
  subst hrr
  have hract : r.status.isActive = true := by rwa [settledRun_status] at hact'
  have huo : UniqueKeys s₁.db.orders := by
    rw [hdb]
    unfold SettledOrders at hso
    split at hso
    · obtain ⟨o, -, -, -, rfl⟩ := hso; exact hk.orders.unique.put _
    · rw [hso]; exact hk.orders.unique
  rw [he₁] at h₂ ⊢
  obtain ⟨o', ho', hoid', hoact', he₂⟩ := moveActiveOrder_ok h₂ huo (fun o => (hg o).1)
  have ho'' : o' ∈ orders := by simpa only [hdb] using ho'
  obtain ⟨o, ho, hoid, hagr, rfl, hput⟩ := hso.find ho'' hoid'
  have hoact : o.status.isActive = true := by rwa [settledOrder_status] at hoact'
  refine ⟨o, ho, hoid, hract, hoact, hagr, ?_, ?_⟩
  · rw [he₂, hdb]
    have hid : (g (settledOrder q r o)).id = workOrderId := (hg _).1.trans hoid'
    simp only [hput _ hid]
    rw [put_put (show (settledRun q r).id = (f (settledRun q r)).id from (hf _).1.symm)]
  · -- the settled rows are active, so each of the two moves is along the tables
    have hall : ∀ x ∈ ss.db.orders, x.id = workOrderId → x.status.isActive = true := by
      intro x hx hxid
      rw [hk.orders.unique.eq_of_key hx ho (hxid.trans hoid.symm)]; exact hoact
    refine ((htr hract hall).push ?_).push ?_
    · exact allowed_putRun rfl rfl huo hur hr' (hf _).1 ((hf _).2 hact')
    · rw [he₂]
      exact allowed_putOrder rfl rfl huo (hur.put _) ho' (hg _).1 ((hg _).2 hoact')

theorem allowsRunTransition_terminal {s t : ExecutionRunStatus} (hs : s.isActive = true)
    (ht : t.isTerminal = true) : allowsRunTransition s t = true := by
  revert hs ht; cases s <;> cases t <;> decide

theorem allowsWorkOrderTransition_closed {s : WorkOrderStatus} {t : ExecutionRunStatus} (hs : s.isActive = true)
    (ht : t.isTerminal = true) : allowsWorkOrderTransition s t.toWorkOrder = true := by
  revert hs ht; cases s <;> cases t <;> decide

theorem allowsWorkOrderTransition_queued {s : WorkOrderStatus} (hs : s.isActive = true) :
    allowsWorkOrderTransition s .queued = true := by
  revert hs; cases s <;> decide

theorem outcome_run_id (outcome : Outcome) (now : Time) (r : ExecutionRun) : (outcome.run now r).id = r.id := by
  cases outcome <;> rfl

theorem outcome_run_workOrderId (outcome : Outcome) (now : Time) (r : ExecutionRun) :
    (outcome.run now r).workOrderId = r.workOrderId := by
  cases outcome <;> rfl

theorem outcome_run_workerId (outcome : Outcome) (now : Time) (r : ExecutionRun) :
    (outcome.run now r).workerId = r.workerId := by
  cases outcome <;> rfl

theorem outcome_run_route (outcome : Outcome) (now : Time) (r : ExecutionRun) :
    (outcome.run now r).route = r.route := by
  cases outcome <;> rfl

theorem outcome_order_spec (outcome : Outcome) (now : Time) (o : WorkOrder) :
    (outcome.order now o).spec = o.spec := by
  cases outcome <;> rfl

theorem outcome_order_id (outcome : Outcome) (now : Time) (o : WorkOrder) : (outcome.order now o).id = o.id := by
  cases outcome <;> rfl

theorem Outcome.run_step {s : Database} {n : LeaseSnapshot} {outcome : Outcome} {now : Time}
    (h : outcome.Justified P s n) : RunStep (outcome.run now) := by
  intro r
  cases outcome with
  | finish c reuse => exact ⟨rfl, fun ha => .of_active ha (Or.inr (allowsRunTransition_terminal ha h.1))⟩
  | expire => exact ⟨rfl, fun ha => .of_active ha (Or.inr (allowsRunTransition_terminal ha rfl))⟩

theorem Outcome.order_step {s : Database} {n : LeaseSnapshot} {outcome : Outcome} {now : Time}
    (h : outcome.Justified P s n) : OrderStep (outcome.order now) := by
  intro o
  cases outcome with
  | finish c reuse => exact ⟨rfl, fun ha => .of_active ha (Or.inr (allowsWorkOrderTransition_closed ha h.1))⟩
  | expire => exact ⟨rfl, fun ha => .of_active ha (Or.inr (allowsWorkOrderTransition_queued ha))⟩

/-- **Once its lease is deleted, the settling block closes it.** -/
theorem settleConsumedLease_closing (outcome : Outcome) {now : Time} {l : Lease} {conflict : String} {u : Unit}
    (hk : Keys ss.db) (hl : l ∈ ss.db.leases) (hj : outcome.Justified P ss.db l.snapshot)
    (h : Service.settleConsumedLease l.snapshot
      (Repository.finishActiveRun l.snapshot.executionRunId (outcome.run now))
      (updateOrders (fun o => o.id == l.snapshot.workOrderId && o.status.isActive) (outcome.order now)) conflict
      (ss.push { ss.db with leases := remove l.id ss.db.leases }) = .ok (u, ss')) :
    ∃ r o w profiles, Closing P ss.db outcome l r o w profiles ∧
      ss'.db = closedDatabase ss.db now outcome l r o w profiles ∧ Grows Allowed ss ss' := by
  set s₁ := ss.push { ss.db with leases := remove l.id ss.db.leases } with hs₁
  have hk₁ : Keys s₁.db := hk.removeLease l.id
  unfold Service.settleConsumedLease at h
  simp only [bind_ok, exec_ok, require_ok, Bool.and_eq_true] at h
  obtain ⟨quota, s₂, hquota, _, _, ⟨rfl, rfl⟩, _, _, ⟨rfl, rfl⟩, _, _, ⟨rfl, rfl⟩, ⟨⟨⟨hq, hr⟩, ho⟩, hw⟩, rfl⟩ := h
  subst hq
  obtain ⟨r, profiles, hrid, href, hset⟩ := releaseRunQuotaReservation_ok hk₁ hquota
  rw [← hrid] at hr ho hw ⊢
  simp only [Session.push_db] at ho hw ⊢
  obtain ⟨o, hom, hoid, hract, hoact, hagr, hdb, htrail⟩ :=
    moveRecords_ok hk₁ (Outcome.run_step hj) (Outcome.order_step hj) hset hr ho
  rw [hdb] at hw htrail ⊢
  obtain ⟨w, hwm, hwid, hpos, hew⟩ := releaseWorkerCapacity_ok hw hk.workers
  rw [hew]
  refine ⟨r, o, w, profiles, ?_, rfl, ?_⟩
  · exact
      { lease := hl, run := hset.run, order := hom, worker := hwm, runId := hrid, orderId := hoid
        workerId := hwid, runActive := hract, orderActive := hoact, occupied := hpos, agrees := hagr
        refunds := href, justified := hj }
  · have h₀ : Grows Allowed ss s₁ := Grows.refl.push (allowed_same rfl rfl hk.orders.unique hk.runs.unique)
    refine (h₀.trans htrail).push ?_
    exact allowed_same rfl rfl (hk.orders.unique.put _) (hk.runs.unique.put _)

/-- **What a completion or a cancellation that did not raise did**: it closed its lease. -/
theorem finishActiveLease_closing {n : LeaseSnapshot} {completion : ExecutionCompletion}
    {requireLive ownershipError : Bool} {i : ℕ} {run : ExecutionRun} (hk : Keys ss.db)
    (ht : completion.status.isTerminal = true)
    (h : Service.finishActiveLease P env n completion requireLive ownershipError i ss = .ok (run, ss')) :
    ∃ reuse l r o w profiles, l.snapshot = n ∧ Closing P ss.db (.finish completion reuse) l r o w profiles ∧
      ss'.db = closedDatabase ss.db (env.clock i) (.finish completion reuse) l r o w profiles ∧
      Grows Allowed ss ss' := by
  unfold Service.finishActiveLease at h
  simp only [bind_ok, exec_ok, require_ok, query_ok] at h
  obtain ⟨_, _, ⟨hev, rfl⟩, reuse, _, ⟨hreuse, rfl⟩, _, _, ⟨rfl, rfl⟩, _, _, ⟨hcons, rfl⟩, _, _, hsettle, -, rfl⟩ := h
  obtain ⟨l, hl, rfl, -, he⟩ := consumeLease_ok hcons hk.leases.unique
  rw [he] at hsettle
  obtain ⟨r, o, w, profiles, hcl, hdb, htrail⟩ :=
    settleConsumedLease_closing (.finish completion reuse) hk hl ⟨ht, hev, hreuse⟩ hsettle
  exact ⟨reuse, l, r, o, w, profiles, rfl, hcl, hdb, htrail⟩

theorem finishActiveLease_block {n : LeaseSnapshot} {completion : ExecutionCompletion}
    {requireLive ownershipError : Bool} {i : ℕ} {run : ExecutionRun} (hk : Keys ss.db)
    (ht : completion.status.isTerminal = true)
    (h : Service.finishActiveLease P env n completion requireLive ownershipError i ss = .ok (run, ss')) :
    Block P scope (env.clock i) ss ss' := by
  obtain ⟨reuse, l, r, o, w, profiles, -, hcl, hdb, htrail⟩ := finishActiveLease_closing hk ht h
  refine ⟨?_, htrail⟩
  rw [hdb]
  exact Effect.close _ l r o w profiles hcl

/-- What one turn of the expiry loop did: it closed a lease past its deadline, or another call got
there first and nothing changed. -/
theorem expireStaleLease_ok (P : Platform) {n : LeaseSnapshot} {now : Time} {expired : Bool} (hk : Keys ss.db)
    (h : Service.expireStaleLease now n ss = .ok (expired, ss')) :
    Grows Allowed ss ss' ∧ (ss'.db = ss.db ∨ ∃ l r o w profiles, Closing P ss.db .expire l r o w profiles ∧
      l.expiresAt < now ∧ ss'.db = closedDatabase ss.db now .expire l r o w profiles) := by
  unfold Service.expireStaleLease at h
  simp only [bind_ok, exec_ok] at h
  obtain ⟨consumed, _, ⟨hcons, rfl⟩, h⟩ := h
  cases consumed with
  | true =>
    simp only [if_true, bind_ok, pure_ok] at h
    obtain ⟨_, _, hsettle, -, rfl⟩ := h
    obtain ⟨l, hl, rfl, hguard, he⟩ := consumeLease_ok hcons hk.leases.unique
    rw [he] at hsettle
    obtain ⟨r, o, w, profiles, hcl, hdb, htrail⟩ := settleConsumedLease_closing .expire hk hl trivial hsettle
    refine ⟨htrail, Or.inr ⟨l, r, o, w, profiles, hcl, ?_, hdb⟩⟩
    simpa [LeaseGuard.allows] using hguard
  | false =>
    -- the deletion found no row
    simp only [Bool.false_eq_true, if_false, pure_ok] at h
    obtain ⟨-, rfl⟩ := h
    rw [consumeLease_false hcons hk.leases.unique]
    exact ⟨Grows.refl.push (allowed_same rfl rfl hk.orders.unique hk.runs.unique), Or.inl rfl⟩

theorem expireStaleLease_block {n : LeaseSnapshot} {now : Time} {expired : Bool} (hk : Keys ss.db)
    (h : Service.expireStaleLease now n ss = .ok (expired, ss')) :
    Block P scope now ss ss' := by
  obtain ⟨htrail, hdb | ⟨l, r, o, w, profiles, hcl, -, hdb⟩⟩ := expireStaleLease_ok P hk h
  · refine ⟨?_, htrail⟩
    rw [hdb]; exact Effect.idle
  · refine ⟨?_, htrail⟩
    rw [hdb]; exact Effect.close _ l r o w profiles hcl

/-! ## Heartbeats -/

theorem allowsRunTransition_started {s : ExecutionRunStatus} (hs : s.isActive = true) :
    (if s = .assigned then .running else s) = s ∨
      allowsRunTransition s (if s = .assigned then .running else s) = true := by
  revert hs; cases s <;> decide

theorem allowsWorkOrderTransition_started {s : WorkOrderStatus} (hs : s.isActive = true) :
    (if s = .assigned then .running else s) = s ∨
      allowsWorkOrderTransition s (if s = .assigned then .running else s) = true := by
  revert hs; cases s <;> decide

/-- **The statements of a heartbeat, once the lease is renewed.** The order they mark is the one of the
renewed lease. -/
theorem renewedLease_beating {runId workOrderId : ℕ} {workerId : String} {now expiresAt : Time} {s₂ : Session Database}
    (hk : Keys ss.db) (hof : ∀ l ∈ ss.db.leases, l.executionRunId = runId → l.workOrderId = workOrderId)
    (hren : (Repository.renewOwnedLiveLease runId workerId now expiresAt ss.db).2 = true)
    (hquota : Repository.consumeRunQuotaReservation runId workOrderId
      (ss.push (Repository.renewOwnedLiveLease runId workerId now expiresAt ss.db).1) = .ok (true, s₂))
    (hr : (Repository.markActiveRunRunning runId now expiresAt s₂.db).2 = true)
    (ho : (Repository.markActiveWorkOrderRunning workOrderId now
      (Repository.markActiveRunRunning runId now expiresAt s₂.db).1).2 = true) :
    ∃ l r o, Beating ss.db l r o now ∧ l.executionRunId = runId ∧ l.workerId = workerId ∧
      (Repository.markActiveWorkOrderRunning workOrderId now
        (Repository.markActiveRunRunning runId now expiresAt s₂.db).1).1 = beatenDatabase ss.db now expiresAt l r o ∧
      Grows Allowed ss ((s₂.push (Repository.markActiveRunRunning runId now expiresAt s₂.db).1).push
        (Repository.markActiveWorkOrderRunning workOrderId now
          (Repository.markActiveRunRunning runId now expiresAt s₂.db).1).1) := by
  obtain ⟨l, hl, hlid, hlw, hlive, he⟩ := renewOwnedLiveLease_ok hren hk.leases.unique
  rw [he] at hquota
  set s₁ := ss.push { ss.db with leases := put (l.renewed now expiresAt) ss.db.leases } with hs₁
  have hk₁ : Keys s₁.db := hk.renewLease hl _ _
  have h₀ : Grows Allowed ss s₁ := Grows.refl.push (allowed_same rfl rfl hk.orders.unique hk.runs.unique)
  obtain ⟨r, hrid, hset⟩ := consumeRunQuotaReservation_ok hk₁ hquota
  rw [← hrid] at hr ho ⊢
  obtain ⟨o, hom, hoid, hract, hoact, hagr, hdb, htrail⟩ :=
    moveRecords_ok (f := ExecutionRun.started now expiresAt) (g := WorkOrder.started now) hk₁
      (fun r => ⟨rfl, fun ha => .of_active ha (allowsRunTransition_started ha)⟩)
      (fun o => ⟨rfl, fun ha => .of_active ha (allowsWorkOrderTransition_started ha)⟩) hset hr ho
  refine ⟨l, r, o, ?_, hlid.trans hrid.symm, hlw, hdb, h₀.trans htrail⟩
  exact
    { lease := hl, run := hset.run, order := hom, runId := hrid.trans hlid.symm
      orderId := hoid.trans (hof l hl hlid).symm, live := hlive, runActive := hract, orderActive := hoact
      agrees := hagr }

theorem heartbeatRun_block {runId : ℕ} {workerId : String} {run : ExecutionRun} (hk : Keys ss.db)
    (h : Service.heartbeatRun env runId workerId ss = .ok (run, ss')) : Block P scope (env.clock 0) ss ss' := by
  unfold Service.heartbeatRun at h
  simp only [bind_ok, exec_ok, require_ok, query_ok, read_ok, requireSome_ok, Bool.and_eq_true] at h
  obtain ⟨_, _, ⟨-, rfl⟩, _, _, ⟨rfl, rfl⟩, n, _, ⟨hn, rfl⟩, _, _, ⟨-, rfl⟩, _, _, ⟨rfl, rfl⟩, _, _, ⟨hren, rfl⟩,
    quota, s₂, hquota, _, _, ⟨rfl, rfl⟩, _, _, ⟨rfl, rfl⟩, _, _, ⟨⟨⟨hq, hr⟩, ho⟩, rfl⟩, -, rfl⟩ := h
  subst hq
  obtain ⟨l₀, hl₀, hl₀id, rfl⟩ := getLeaseSnapshotForRun_some hn
  have hof : ∀ l ∈ ss.db.leases, l.executionRunId = runId → l.workOrderId = l₀.workOrderId := by
    intro l hl hlid
    rw [hk.lease_of_run hl hl₀ (hlid.trans hl₀id.symm)]
  obtain ⟨l, r, o, hb, -, -, hdb, htrail⟩ := renewedLease_beating hk hof hren hquota hr ho
  refine ⟨?_, htrail⟩
  refine Eq.subst hdb.symm ?_ (motive := fun s => Effect P scope (env.clock 0) ss.db s)
  exact Effect.heartbeat l r o _ hb

/-! ## Claims -/

@[simp] theorem mayFail_ok {n : ℕ} {st : ClaimStatement} {u : Unit} :
    Service.mayFail env n st ss = .ok (u, ss') ↔ env.fault n st = none ∧ ss = ss' := by
  unfold Service.mayFail
  cases env.fault n st <;> simp

theorem reserveRoutingQuota_ok {workerId : String} {revision units : ℤ} {v : ℤ} (hk : Keys ss.db)
    (h : Repository.reserveRoutingQuota workerId revision units ss = .ok (some v, ss')) :
    ∃ p ∈ ss.db.profiles, p.workerId = workerId ∧ units ≤ p.quotaRemainingUnits ∧
      p.quotaRemainingUnits ≤ p.quotaCapacityUnits ∧
      ss' = ss.push { ss.db with profiles := put (p.reserved p.revision units) ss.db.profiles } := by
  unfold Repository.reserveRoutingQuota at h
  simp only [bind_ok, exec_ok, pure_ok] at h
  obtain ⟨_, _, ⟨rfl, rfl⟩, hv, rfl⟩ := h
  have hone : (updateProfiles
      (fun p => p.workerId == workerId && p.enabled && p.revision == revision &&
        decide (p.revision ≤ maxRoutingRevision - (if units ≠ 0 then 2 else 1)) &&
        decide (p.quotaRemainingUnits ≥ units) && decide (p.quotaRemainingUnits ≤ p.quotaCapacityUnits))
      (RoutingProfile.reserved revision units) ss.db).2 = true := by
    by_contra hne
    rw [if_neg hne] at hv; cases hv
  obtain ⟨p, hp, hguard, he⟩ := updateProfiles_ok hone hk.profiles fun _ => rfl
  simp only [Bool.and_eq_true, beq_iff_eq, decide_eq_true_eq, ge_iff_le] at hguard
  obtain ⟨⟨⟨⟨⟨hid, -⟩, hrev⟩, -⟩, hunits⟩, hcap⟩ := hguard
  refine ⟨p, hp, hid, hunits, hcap, ?_⟩
  rw [he, hrev]

theorem claimQuota_ok {n : ℕ} {worker : Worker} {order : WorkOrder} {profile : Option RoutingProfile}
    {q : Service.QuotaClaim} (hk : Keys ss.db)
    (h : Service.claimQuota env n worker order profile ss = .ok (q, ss')) :
    ∃ profiles, Reserves ss.db worker.workerId order q profiles ∧
      (q.profileRevision = none → profiles = ss.db.profiles) ∧ ss'.db = { ss.db with profiles := profiles } ∧
      Grows Allowed ss ss' := by
  unfold Service.claimQuota at h
  cases profile with
  | none =>
    simp only [pure_ok] at h
    obtain ⟨rfl, rfl⟩ := h
    exact ⟨ss.db.profiles, Or.inl ⟨rfl, rfl, rfl⟩, fun _ => rfl, rfl, Grows.refl⟩
  | some profile =>
    simp only [bind_ok, mayFail_ok, requireSome_ok, pure_ok] at h
    obtain ⟨_, _, ⟨-, rfl⟩, _, _, hres, v, _, ⟨rfl, rfl⟩, rfl, rfl⟩ := h
    obtain ⟨p, hp, hid, hunits, hcap, rfl⟩ := reserveRoutingQuota_ok hk hres
    exact ⟨_, Or.inr ⟨p, hp, hid, hunits, hcap, rfl, rfl, rfl⟩, by simp, rfl,
      Grows.refl.push (allowed_same rfl rfl hk.orders.unique hk.runs.unique)⟩

theorem createRun_ok {o : WorkOrder} {workerId : String} {now expiresAt : Time} {route : RunRoute}
    {run : ExecutionRun} (h : Repository.createRun o workerId now expiresAt route ss = .ok (run, ss')) :
    (∀ r ∈ ss.db.runs, r.workOrderId = o.id → r.attemptNumber ≠ o.attemptCount) ∧
      run = Repository.activeRun o workerId now expiresAt route (nextId ss.db.runs) ∧
      ss' = ss.push { ss.db with runs := ss.db.runs ++ [run] } := by
  unfold Repository.createRun at h
  simp only [bind_ok, read_ok, require_ok, exec_ok] at h
  obtain ⟨_, _, ⟨rfl, rfl⟩, _, _, ⟨hdup, rfl⟩, rfl, rfl⟩ := h
  refine ⟨?_, rfl, rfl⟩
  intro r hr hid hatt
  simp only [Bool.not_eq_true', List.any_eq_false, Bool.and_eq_true, beq_iff_eq] at hdup
  exact hdup r hr ⟨hid, hatt⟩

theorem createLease_ok {o : WorkOrder} {run : ExecutionRun} {workerId : String} {now expiresAt : Time} {l : Lease}
    (h : Repository.createLease o run workerId now expiresAt ss = .ok (l, ss')) :
    (∀ x ∈ ss.db.leases, x.workOrderId ≠ o.id ∧ x.executionRunId ≠ run.id) ∧
      ss' = ss.push { ss.db with
        leases := ss.db.leases ++ [⟨nextId ss.db.leases, o.id, run.id, workerId, expiresAt, now⟩] } := by
  unfold Repository.createLease at h
  simp only [bind_ok, read_ok, require_ok, exec_ok] at h
  obtain ⟨_, _, ⟨rfl, rfl⟩, _, _, ⟨hdup, rfl⟩, rfl, rfl⟩ := h
  refine ⟨?_, rfl⟩
  intro x hx
  simp only [Bool.not_eq_true', List.any_eq_false, Bool.or_eq_true, beq_iff_eq, not_or] at hdup
  exact hdup x hx

/-- **A claim that did not raise took one queued order, one slot and the order's quota together.** -/
theorem claimBlock_ok {n : ℕ} {worker : Worker} {order : WorkOrder} {profile : Option RoutingProfile}
    {count : ℕ} {pin : Bool} {now : Time} {result : CheckoutResult} (hk : Keys ss.db)
    (horder : order ∈ ss.db.orders)
    (h : Service.claimBlock env n worker order profile count pin now ss = .ok (result, ss')) :
    ∃ w q profiles, w.workerId = worker.workerId ∧ Claiming ss.db w order q profiles ∧
      ss'.db = claimedDatabase ss.db now (now + seconds env.leaseSeconds) w order
        (Service.orderRoute w q count pin now) (Service.runRoute order q count pin now) profiles ∧
      Grows Allowed ss ss' ∧ result = ⟨some (nextId ss.db.runs), some order.id, none, []⟩ := by
  unfold Service.claimBlock at h
  simp only [bind_ok, mayFail_ok, exec_ok, require_ok, query_ok, pure_ok] at h
  obtain ⟨_, _, ⟨-, rfl⟩, _, _, ⟨rfl, rfl⟩, _, _, ⟨hw, rfl⟩, q, s₂, hquota, _, _, ⟨-, rfl⟩, _, _, ⟨rfl, rfl⟩, _, _,
    ⟨hclaim, rfl⟩, o', _, ⟨ho', rfl⟩, _, _, ⟨-, rfl⟩, run, _, hrun, _, _, ⟨-, rfl⟩, l, _, hlease, rfl, rfl⟩ := h
  obtain ⟨w, hwm, hwid, hfree, hew⟩ := reserveWorkerCapacity_ok hw hk.workers
  rw [hew] at hquota
  set s₁ := ss.push { ss.db with workers := put w.slotReserved ss.db.workers } with hs₁
  have hk₁ : Keys s₁.db :=
    ⟨hk.orders, hk.workers.put _, hk.profiles, hk.runs, hk.leases, hk.leaseOrder, hk.leaseRun⟩
  obtain ⟨profiles, hres, hunprofiled, hdb₂, htr₂⟩ := claimQuota_ok hk₁ hquota
  have huo₂ : UniqueKeys s₂.db.orders := by rw [hdb₂]; exact hk.orders.unique
  have hur₂ : UniqueKeys s₂.db.runs := by rw [hdb₂]; exact hk.runs.unique
  obtain ⟨o, hom, hoid, hqueued, heo⟩ := claimQueuedWorkOrder_ok hclaim huo₂
  have hoo : o = order := by
    rw [hdb₂] at hom
    exact hk.orders.unique.eq_of_key hom horder hoid
  subst hoo
  simp only [Session.push_db] at ho' hrun
  rw [heo] at ho' hrun
  obtain ⟨ho'm, ho'id⟩ := requireWorkOrder_ok ho'
  -- the refreshed row is the claimed one
  have ho'eq : o' = o.claimed now (Service.orderRoute worker q count pin now) := by
    rcases of_mem_put ho'm with h | ⟨-, hne⟩
    · exact h
    · exact absurd ho'id hne
  subst ho'eq
  obtain ⟨hatt, hruneq, rfl⟩ := createRun_ok hrun
  obtain ⟨hun, rfl⟩ := createLease_ok hlease
  simp only [Session.push_db] at hun hatt hruneq ⊢
  have hroute : Service.orderRoute worker q count pin now = Service.orderRoute w q count pin now := by
    unfold Service.orderRoute; rw [hwid]
  have hrunid : run.id = nextId s₂.db.runs := by rw [hruneq]; rfl
  have hruns : nextId s₂.db.runs = nextId ss.db.runs := by rw [hdb₂]; rfl
  refine ⟨w, q, profiles, hwid, ?_, ?_, ?_, ?_⟩
  · exact
      { worker := hwm, order := horder, queued := hqueued, free := hfree
        attempt := by rw [hdb₂] at hatt; exact hatt
        unleased := by rw [hrunid, hdb₂] at hun; exact hun
        reserves := by rw [hwid]; exact hres
        unprofiled := hunprofiled }
  · simp only [hruneq, hdb₂, hroute, ← hwid]
    rfl
  · have h₀ : Grows Allowed ss s₁ := Grows.refl.push (allowed_same rfl rfl hk.orders.unique hk.runs.unique)
    refine (((h₀.trans htr₂).push ?_).push ?_).push ?_
    · refine allowed_putOrder rfl rfl huo₂ hur₂ hom rfl ⟨Or.inr ?_, fun ht => ?_⟩
      · rw [hqueued]; rfl
      · rw [hqueued] at ht; cases ht
    · exact allowed_appendRun rfl rfl (huo₂.put _) hur₂ hrunid
    · have hnew : ∀ x ∈ s₂.db.runs, key x ≠ key run := by
        intro x hx
        have hlt : x.id < nextId s₂.db.runs := lt_nextId hx
        rw [key_run, key_run, hrunid]; omega
      simp only [Session.push_db]
      exact allowed_same rfl rfl (huo₂.put _) (hur₂.append hnew)
  · rw [hrunid, hruns]; rfl

theorem claimBlock_block {n : ℕ} {worker : Worker} {order : WorkOrder} {profile : Option RoutingProfile}
    {count : ℕ} {pin : Bool} {now : Time} {result : CheckoutResult} (hk : Keys ss.db)
    (horder : order ∈ ss.db.orders) (hclaims : scope.claims = true)
    (h : Service.claimBlock env n worker order profile count pin now ss = .ok (result, ss')) :
    Block P scope now ss ss' ∧ result.reason = none := by
  obtain ⟨w, q, profiles, -, hc, hdb, htr, rfl⟩ := claimBlock_ok hk horder h
  refine ⟨⟨?_, htr⟩, rfl⟩
  rw [hdb]
  exact Effect.claim w order q count pin _ profiles hc hclaims

/-! ## Candidate lookups -/

theorem resolveReuseCandidate_block {runId : ℕ} {workerId : String} {identity : ReuseIdentity}
    {identityHash : String} {result : ReuseCandidateResult} (hk : Keys ss.db) (hs : scope.resolves runId = true)
    (h : Service.resolveReuseCandidate P env runId workerId identity identityHash ss = .ok (result, ss')) :
    Block P scope (env.clock 0) ss ss' := by
  unfold Service.resolveReuseCandidate at h
  simp only [bind_ok, require_ok, read_ok, requireSome_ok, query_ok, exec_ok, pure_ok, Bool.and_eq_true,
    beq_iff_eq, bne_iff_ne, ne_eq] at h
  obtain ⟨_, _, ⟨rfl, rfl⟩, _, _, ⟨rfl, rfl⟩, l, _, ⟨hl, rfl⟩, _, _, ⟨⟨rfl, -⟩, rfl⟩, o, _, ⟨ho, rfl⟩, _, _,
    ⟨hpolicy, rfl⟩, _, _, ⟨hvalid, rfl⟩, _, _, ⟨rfl, rfl⟩, _, _, ⟨rfl, rfl⟩, _, _, ⟨hupd, rfl⟩, -, rfl⟩ := h
  obtain ⟨hlm, rfl⟩ := getLeaseForRun_some hl
  obtain ⟨hom, hoid⟩ := requireWorkOrder_ok ho
  obtain ⟨r, hrm, hrid, hact, he⟩ := finishActiveRun_ok hupd hk.runs.unique fun _ => rfl
  rw [← hrid] at he ⊢
  have hres : Resolving P ss.db (env.clock 0) l r o identity
      (Service.selectReuseCandidate P o l.workerId identity (P.reuseIdentityHash identity) r.id (env.clock 0) ss.db) :=
    { lease := hlm, run := hrm, order := hom, runId := hrid, orderId := hoid, runActive := hact
      policy := hpolicy, valid := hvalid, chosen := rfl }
  constructor
  · exact Eq.subst he.symm (Effect.resolve l r o identity _ hres (hrid ▸ hs))
      (motive := fun s => Effect P scope (env.clock 0) ss.db s)
  · refine Grows.refl.push (Eq.subst he.symm ?_ (motive := fun s => Allowed ss.db s))
    exact allowed_putRun rfl rfl hk.orders.unique hk.runs.unique hrm rfl (.of_active hact (Or.inl rfl))

/-! ## Single statements -/

theorem transitionUnleased_block {workOrderId : ℕ} {statuses : List WorkOrderStatus} {f : WorkOrder → WorkOrder}
    {conflict : String} {o' : WorkOrder} {now : Time}
    (h : Service.transitionUnleased workOrderId statuses f conflict ss = .ok (o', ss')) (hk : Keys ss.db)
    (hid : ∀ o, (f o).id = o.id) (hmove : ∀ o : WorkOrder, o.status ∈ statuses → UnleasedMove o (f o)) :
    Block P scope now ss ss' := by
  unfold Service.transitionUnleased at h
  simp only [bind_ok, exec_ok, require_ok, query_ok] at h
  obtain ⟨_, _, ⟨rfl, rfl⟩, _, _, ⟨hupd, rfl⟩, -, rfl⟩ := h
  obtain ⟨o, hom, -, hst, he⟩ := transitionUnleasedWorkOrder_ok hid hupd hk.orders.unique
  have hm := hmove o hst
  rw [he]
  refine ⟨Effect.moveOrder o (f o) hom hm, Grows.refl.push ?_⟩
  refine allowed_putOrder rfl rfl hk.orders.unique hk.runs.unique hom hm.id ⟨Or.inr hm.allowed, fun ht => ?_⟩
  -- no transition leaves a terminal state
  have hallowed := hm.allowed
  unfold allowsWorkOrderTransition at hallowed
  revert hallowed ht
  cases o.status <;> simp [WorkOrderStatus.isTerminal, workOrderTransitions]

/-- The snapshot of a manifest is found, or made under the next id. -/
theorem ensureManifest_ok {metadata : ManifestMetadata} {digest : String} {m : CommandManifest}
    (h : Repository.ensureManifest metadata digest ss = .ok (m, ss')) :
    (Repository.getManifest metadata.name metadata.version ss.db = some m ∧ m.digest = digest ∧ ss' = ss) ∨
      (Repository.getManifest metadata.name metadata.version ss.db = none ∧
        m = ⟨nextId ss.db.manifests, metadata, digest⟩ ∧
        ss' = ss.push { ss.db with manifests := ss.db.manifests ++ [m] }) := by
  unfold Repository.ensureManifest at h
  simp only [bind_ok, read_ok] at h
  obtain ⟨existing, _, ⟨hget, rfl⟩, h⟩ := h
  cases existing with
  | some m₀ =>
    simp only [bind_ok, require_ok, pure_ok, Bool.and_eq_true, beq_iff_eq] at h
    obtain ⟨_, _, ⟨⟨hdigest, -⟩, rfl⟩, rfl, rfl⟩ := h
    exact Or.inl ⟨hget, hdigest, rfl⟩
  | none =>
    simp only [bind_ok, read_ok, require_ok, exec_ok] at h
    obtain ⟨_, _, ⟨-, rfl⟩, _, _, ⟨-, rfl⟩, rfl, rfl⟩ := h
    exact Or.inr ⟨hget, rfl, rfl⟩

theorem ensureManifest_block {metadata : ManifestMetadata} {digest : String} {m : CommandManifest} {now : Time}
    (hk : Keys ss.db) (hsource : ∃ d ∈ P.manifests, metadata = d.metadata ∧ digest = P.manifestDigest d)
    (h : Repository.ensureManifest metadata digest ss = .ok (m, ss')) : Block P scope now ss ss' := by
  rcases ensureManifest_ok h with ⟨-, -, rfl⟩ | ⟨hfresh, rfl, rfl⟩
  · exact ⟨Effect.idle, Grows.refl⟩
  · exact ⟨Effect.manifest _ ⟨rfl, hfresh, hsource⟩,
      Grows.refl.push (allowed_same rfl rfl hk.orders.unique hk.runs.unique)⟩

/-- The manifest is stored under the name and the version of its definition. -/
theorem ensureManifest_mem {metadata : ManifestMetadata} {digest : String} {m : CommandManifest}
    (h : Repository.ensureManifest metadata digest ss = .ok (m, ss')) :
    m ∈ ss'.db.manifests ∧ m.metadata.name = metadata.name ∧ m.metadata.version = metadata.version ∧
      m.digest = digest := by
  rcases ensureManifest_ok h with ⟨hget, hdigest, rfl⟩ | ⟨-, rfl, rfl⟩
  · have hname := List.find?_some hget
    simp only [Bool.and_eq_true, beq_iff_eq] at hname
    exact ⟨List.mem_of_find?_eq_some hget, hname.1, hname.2, hdigest⟩
  · exact ⟨List.mem_append_right _ List.mem_cons_self, rfl, rfl, rfl⟩

theorem updateWorkers_block {p : Worker → Bool} {f : Worker → Worker} {now : Time}
    (h : (updateWorkers p f ss.db).2 = true) (hk : Keys ss.db) (hid : ∀ w, (f w).workerId = w.workerId)
    (hcount : ∀ w, (f w).activeRunCount = w.activeRunCount) :
    Block P scope now ss (ss.push (updateWorkers p f ss.db).1) := by
  obtain ⟨w, hw, -, he⟩ := updateWorkers_ok h hk.workers hid
  rw [he]
  exact ⟨Effect.updateWorker w (f w) hw (hid w) (hcount w),
    Grows.refl.push (allowed_same rfl rfl hk.orders.unique hk.runs.unique)⟩

end Switchboard
