import Switchboard.Spec.Lifecycle

/-!
# Guarded statements, row by row

With unique ids, a guarded statement that reported exactly one affected row wrote that
row and nothing else. The lemmas here turn each report into the row it is about, and
say which statements keep the transition tables.
-/

namespace Switchboard

open Table Transaction

variable {s : Database}

theorem Keys.lease_of_run (hk : Keys s) {l l' : Lease} (hl : l ∈ s.leases) (hl' : l' ∈ s.leases)
    (h : l.executionRunId = l'.executionRunId) : l = l' :=
  List.inj_on_of_nodup_map hk.leaseRun hl hl' h

theorem Keys.lease_of_order (hk : Keys s) {l l' : Lease} (hl : l ∈ s.leases) (hl' : l' ∈ s.leases)
    (h : l.workOrderId = l'.workOrderId) : l = l' :=
  List.inj_on_of_nodup_map hk.leaseOrder hl hl' h

theorem Keys.removeLease (hk : Keys s) (id : ℕ) : Keys { s with leases := remove id s.leases } :=
  ⟨hk.orders, hk.workers, hk.profiles, hk.runs, hk.leases.remove _, nodup_map_remove _ hk.leaseOrder,
    nodup_map_remove _ hk.leaseRun⟩

theorem Keys.renewLease (hk : Keys s) {l : Lease} (hl : l ∈ s.leases) (now expiresAt : Time) :
    Keys { s with leases := put (l.renewed now expiresAt) s.leases } :=
  ⟨hk.orders, hk.workers, hk.profiles, hk.runs, hk.leases.put _,
    nodup_map_put (r := l.renewed now expiresAt) hk.leases.unique hl rfl rfl hk.leaseOrder,
    nodup_map_put (r := l.renewed now expiresAt) hk.leases.unique hl rfl rfl hk.leaseRun⟩

/-! ## Reads by id -/

theorem getRun_some {runId : ℕ} {r : ExecutionRun} (h : Repository.getRun runId s = some r) :
    r ∈ s.runs ∧ r.id = runId :=
  ⟨List.mem_of_find?_eq_some h, by simpa using List.find?_some h⟩

theorem getWorkOrder_some {workOrderId : ℕ} {o : WorkOrder}
    (h : Repository.getWorkOrder workOrderId s = some o) : o ∈ s.orders ∧ o.id = workOrderId :=
  ⟨List.mem_of_find?_eq_some h, by simpa using List.find?_some h⟩

theorem getWorker_some {workerId : String} {w : Worker} (h : Repository.getWorker workerId s = some w) :
    w ∈ s.workers ∧ w.workerId = workerId :=
  ⟨List.mem_of_find?_eq_some h, by simpa using List.find?_some h⟩

theorem getRoutingProfile_some {workerId : String} {p : RoutingProfile}
    (h : Repository.getRoutingProfile workerId s = some p) : p ∈ s.profiles ∧ p.workerId = workerId :=
  ⟨List.mem_of_find?_eq_some h, by simpa using List.find?_some h⟩

theorem getLeaseForRun_some {runId : ℕ} {l : Lease} (h : Repository.getLeaseForRun runId s = some l) :
    l ∈ s.leases ∧ l.executionRunId = runId :=
  ⟨List.mem_of_find?_eq_some h, by simpa using List.find?_some h⟩

theorem getLeaseSnapshotForRun_some {runId : ℕ} {n : LeaseSnapshot}
    (h : Repository.getLeaseSnapshotForRun runId s = some n) :
    ∃ l ∈ s.leases, l.executionRunId = runId ∧ l.snapshot = n := by
  unfold Repository.getLeaseSnapshotForRun at h
  obtain ⟨l, hl, rfl⟩ := Option.map_eq_some_iff.1 h
  obtain ⟨hm, hid⟩ := getLeaseForRun_some hl
  exact ⟨l, hm, hid, rfl⟩

theorem requireRun_ok {runId : ℕ} {r : ExecutionRun} (h : Service.requireRun runId s = .ok r) :
    r ∈ s.runs ∧ r.id = runId := by
  unfold Service.requireRun at h
  split at h
  · rename_i hr; cases h; exact getRun_some hr
  · cases h

theorem requireWorkOrder_ok {workOrderId : ℕ} {o : WorkOrder}
    (h : Service.requireWorkOrder workOrderId s = .ok o) : o ∈ s.orders ∧ o.id = workOrderId := by
  unfold Service.requireWorkOrder at h
  split at h
  · rename_i ho; cases h; exact getWorkOrder_some ho
  · cases h

theorem requireRun_of_mem (hk : Keys s) {r : ExecutionRun} {runId : ℕ} (hr : r ∈ s.runs) (hid : r.id = runId) :
    Service.requireRun runId s = .ok r := by
  subst hid
  have hfind : s.runs.find? (fun x => x.id == r.id) = some r :=
    hk.runs.unique.find?_eq hr (by simp) fun x _ hx => beq_iff_eq.1 hx
  unfold Service.requireRun Repository.getRun
  rw [hfind]

theorem requireWorkOrder_of_mem (hk : Keys s) {o : WorkOrder} {workOrderId : ℕ} (ho : o ∈ s.orders)
    (hid : o.id = workOrderId) : Service.requireWorkOrder workOrderId s = .ok o := by
  subst hid
  have hfind : s.orders.find? (fun x => x.id == o.id) = some o :=
    hk.orders.unique.find?_eq ho (by simp) fun x _ hx => beq_iff_eq.1 hx
  unfold Service.requireWorkOrder Repository.getWorkOrder
  rw [hfind]

/-! ## The row behind a report -/

theorem updateOrders_ok {p : WorkOrder → Bool} {f : WorkOrder → WorkOrder}
    (h : (updateOrders p f s).2 = true) (hk : UniqueKeys s.orders) (hid : ∀ o, (f o).id = o.id) :
    ∃ o ∈ s.orders, p o = true ∧ (updateOrders p f s).1 = { s with orders := put (f o) s.orders } := by
  obtain ⟨o, ho, hp, he⟩ := updateWhere_row hk h hid
  exact ⟨o, ho, hp, by simp only [updateOrders]; rw [he]⟩

theorem updateWorkers_ok {p : Worker → Bool} {f : Worker → Worker}
    (h : (updateWorkers p f s).2 = true) (hk : UniqueKeys s.workers) (hid : ∀ w, (f w).workerId = w.workerId) :
    ∃ w ∈ s.workers, p w = true ∧ (updateWorkers p f s).1 = { s with workers := put (f w) s.workers } := by
  obtain ⟨w, hw, hp, he⟩ := updateWhere_row hk h hid
  exact ⟨w, hw, hp, by simp only [updateWorkers]; rw [he]⟩

theorem updateProfiles_ok {p : RoutingProfile → Bool} {f : RoutingProfile → RoutingProfile}
    (h : (updateProfiles p f s).2 = true) (hk : UniqueKeys s.profiles)
    (hid : ∀ x, (f x).workerId = x.workerId) :
    ∃ x ∈ s.profiles, p x = true ∧ (updateProfiles p f s).1 = { s with profiles := put (f x) s.profiles } := by
  obtain ⟨x, hx, hp, he⟩ := updateWhere_row hk h hid
  exact ⟨x, hx, hp, by simp only [updateProfiles]; rw [he]⟩

theorem updateRuns_ok {p : ExecutionRun → Bool} {f : ExecutionRun → ExecutionRun}
    (h : (updateRuns p f s).2 = true) (hk : UniqueKeys s.runs) (hid : ∀ r, (f r).id = r.id) :
    ∃ r ∈ s.runs, p r = true ∧ (updateRuns p f s).1 = { s with runs := put (f r) s.runs } := by
  obtain ⟨r, hr, hp, he⟩ := updateWhere_row hk h hid
  exact ⟨r, hr, hp, by simp only [updateRuns]; rw [he]⟩

theorem updateLeases_ok {p : Lease → Bool} {f : Lease → Lease}
    (h : (updateLeases p f s).2 = true) (hk : UniqueKeys s.leases) (hid : ∀ l, (f l).id = l.id) :
    ∃ l ∈ s.leases, p l = true ∧ (updateLeases p f s).1 = { s with leases := put (f l) s.leases } := by
  obtain ⟨l, hl, hp, he⟩ := updateWhere_row hk h hid
  exact ⟨l, hl, hp, by simp only [updateLeases]; rw [he]⟩

/-- The lease that `consume_lease` deleted is the one of the snapshot, and its deadline
passed the guard. -/
theorem consumeLease_ok {n : LeaseSnapshot} {now : Time} {g : LeaseGuard}
    (h : (Repository.consumeLease n now g s).2 = true) (hk : UniqueKeys s.leases) :
    ∃ l ∈ s.leases, l.snapshot = n ∧ g.allows l.expiresAt now = true ∧
      (Repository.consumeLease n now g s).1 = { s with leases := remove l.id s.leases } := by
  obtain ⟨l, hl, hp, he⟩ := deleteWhere_row hk h
  simp only [Bool.and_eq_true, beq_iff_eq] at hp
  obtain ⟨⟨⟨⟨h₁, h₂⟩, h₃⟩, h₄⟩, h₅⟩ := hp
  refine ⟨l, hl, ?_, h₅, ?_⟩
  · unfold Lease.snapshot; rw [h₁, h₂, h₃, h₄]
  · simp only [Repository.consumeLease, deleteLeases] at he ⊢; rw [he]; rfl

/-- A deletion that reported no row left the leases alone. -/
theorem consumeLease_false {n : LeaseSnapshot} {now : Time} {g : LeaseGuard}
    (h : (Repository.consumeLease n now g s).2 = false) (hk : UniqueKeys s.leases) :
    (Repository.consumeLease n now g s).1 = s := by
  have hnone : ∀ l ∈ s.leases, (l.id == n.id && l.workOrderId == n.workOrderId &&
      l.executionRunId == n.executionRunId && l.workerId == n.workerId && g.allows l.expiresAt now) = false := by
    intro l hl
    by_contra hp
    rw [Bool.not_eq_false] at hp
    have hone := affectedOne_of_mem (p := fun l => l.id == n.id && l.workOrderId == n.workOrderId &&
      l.executionRunId == n.executionRunId && l.workerId == n.workerId && g.allows l.expiresAt now) hk hl hp ?_
    · exact absurd (h.symm.trans hone) (by decide)
    · intro x _ hx
      simp only [Bool.and_eq_true, beq_iff_eq] at hx hp
      exact hx.1.1.1.1.trans hp.1.1.1.1.symm
  simp only [Repository.consumeLease, deleteLeases]
  rw [deleteWhere_eq_self hnone]

theorem settleRunQuota_ok {runId : ℕ} {q : QuotaReservationState}
    (h : (Repository.settleRunQuota runId q s).2 = true) (hk : UniqueKeys s.runs) :
    ∃ r ∈ s.runs, r.id = runId ∧ r.route.quotaState = .reserved ∧
      (Repository.settleRunQuota runId q s).1 = { s with runs := put (r.withQuotaState q) s.runs } := by
  obtain ⟨r, hr, hp, he⟩ := updateRuns_ok h hk fun _ => rfl
  simp only [Bool.and_eq_true, beq_iff_eq] at hp
  exact ⟨r, hr, hp.1, hp.2, he⟩

theorem settleOrderQuota_ok {workOrderId : ℕ} {q : QuotaReservationState}
    (h : (Repository.settleOrderQuota workOrderId q s).2 = true) (hk : UniqueKeys s.orders) :
    ∃ o ∈ s.orders, o.id = workOrderId ∧ o.route.quotaState = some .reserved ∧
      (Repository.settleOrderQuota workOrderId q s).1 = { s with orders := put (o.withQuotaState q) s.orders } := by
  obtain ⟨o, ho, hp, he⟩ := updateOrders_ok h hk fun _ => rfl
  simp only [Bool.and_eq_true, beq_iff_eq] at hp
  exact ⟨o, ho, hp.1, hp.2, he⟩

theorem refundRoutingQuota_ok {workerId : String} {units : ℤ}
    (h : (Repository.refundRoutingQuota workerId units s).2 = true) (hk : UniqueKeys s.profiles) :
    ∃ p ∈ s.profiles, p.workerId = workerId ∧ p.quotaRemainingUnits ≤ p.quotaCapacityUnits - units ∧
      (Repository.refundRoutingQuota workerId units s).1 = { s with profiles := put (p.refunded units) s.profiles } := by
  obtain ⟨p, hm, hp, he⟩ := updateProfiles_ok h hk fun _ => rfl
  simp only [Bool.and_eq_true, beq_iff_eq, decide_eq_true_eq] at hp
  exact ⟨p, hm, hp.1.1, hp.2, he⟩

theorem releaseWorkerCapacity_ok {workerId : String}
    (h : (Repository.releaseWorkerCapacity workerId s).2 = true) (hk : UniqueKeys s.workers) :
    ∃ w ∈ s.workers, w.workerId = workerId ∧ 0 < w.activeRunCount ∧
      (Repository.releaseWorkerCapacity workerId s).1 = { s with workers := put w.slotReleased s.workers } := by
  obtain ⟨w, hw, hp, he⟩ := updateWorkers_ok h hk fun _ => rfl
  simp only [Bool.and_eq_true, beq_iff_eq, decide_eq_true_eq] at hp
  exact ⟨w, hw, hp.1, hp.2, he⟩

theorem reserveWorkerCapacity_ok {workerId : String}
    (h : (Repository.reserveWorkerCapacity workerId s).2 = true) (hk : UniqueKeys s.workers) :
    ∃ w ∈ s.workers, w.workerId = workerId ∧ w.activeRunCount < w.maxConcurrency ∧
      (Repository.reserveWorkerCapacity workerId s).1 = { s with workers := put w.slotReserved s.workers } := by
  obtain ⟨w, hw, hp, he⟩ := updateWorkers_ok h hk fun _ => rfl
  simp only [Bool.and_eq_true, beq_iff_eq, decide_eq_true_eq] at hp
  exact ⟨w, hw, hp.1.1, hp.2, he⟩

theorem finishActiveRun_ok {runId : ℕ} {f : ExecutionRun → ExecutionRun}
    (h : (Repository.finishActiveRun runId f s).2 = true) (hk : UniqueKeys s.runs) (hid : ∀ r, (f r).id = r.id) :
    ∃ r ∈ s.runs, r.id = runId ∧ r.status.isActive = true ∧
      (Repository.finishActiveRun runId f s).1 = { s with runs := put (f r) s.runs } := by
  obtain ⟨r, hr, hp, he⟩ := updateRuns_ok h hk hid
  simp only [Bool.and_eq_true, beq_iff_eq] at hp
  exact ⟨r, hr, hp.1, hp.2, he⟩

/-- The statements that move an active order share one guard. -/
theorem moveActiveOrder_ok {workOrderId : ℕ} {f : WorkOrder → WorkOrder}
    (h : (updateOrders (fun o => o.id == workOrderId && o.status.isActive) f s).2 = true)
    (hk : UniqueKeys s.orders) (hid : ∀ o, (f o).id = o.id) :
    ∃ o ∈ s.orders, o.id = workOrderId ∧ o.status.isActive = true ∧
      (updateOrders (fun o => o.id == workOrderId && o.status.isActive) f s).1 =
        { s with orders := put (f o) s.orders } := by
  obtain ⟨o, ho, hp, he⟩ := updateOrders_ok h hk hid
  simp only [Bool.and_eq_true, beq_iff_eq] at hp
  exact ⟨o, ho, hp.1, hp.2, he⟩

theorem claimQueuedWorkOrder_ok {workOrderId : ℕ} {now : Time} {route : OrderRoute}
    (h : (Repository.claimQueuedWorkOrder workOrderId now route s).2 = true) (hk : UniqueKeys s.orders) :
    ∃ o ∈ s.orders, o.id = workOrderId ∧ o.status = .queued ∧
      (Repository.claimQueuedWorkOrder workOrderId now route s).1 =
        { s with orders := put (o.claimed now route) s.orders } := by
  obtain ⟨o, ho, hp, he⟩ := updateOrders_ok h hk fun _ => rfl
  simp only [Bool.and_eq_true, beq_iff_eq] at hp
  exact ⟨o, ho, hp.1, hp.2, he⟩

theorem transitionUnleasedWorkOrder_ok {workOrderId : ℕ} {statuses : List WorkOrderStatus}
    {f : WorkOrder → WorkOrder} (hid : ∀ o, (f o).id = o.id)
    (h : (Repository.transitionUnleasedWorkOrder workOrderId statuses f s).2 = true) (hk : UniqueKeys s.orders) :
    ∃ o ∈ s.orders, o.id = workOrderId ∧ o.status ∈ statuses ∧
      (Repository.transitionUnleasedWorkOrder workOrderId statuses f s).1 =
        { s with orders := put (f o) s.orders } := by
  obtain ⟨o, ho, hp, he⟩ := updateOrders_ok h hk hid
  simp only [Bool.and_eq_true, beq_iff_eq, decide_eq_true_eq] at hp
  exact ⟨o, ho, hp.1, hp.2, he⟩

theorem renewOwnedLiveLease_ok {runId : ℕ} {workerId : String} {now expiresAt : Time}
    (h : (Repository.renewOwnedLiveLease runId workerId now expiresAt s).2 = true) (hk : UniqueKeys s.leases) :
    ∃ l ∈ s.leases, l.executionRunId = runId ∧ l.workerId = workerId ∧ now ≤ l.expiresAt ∧
      (Repository.renewOwnedLiveLease runId workerId now expiresAt s).1 =
        { s with leases := put (l.renewed now expiresAt) s.leases } := by
  obtain ⟨l, hl, hp, he⟩ := updateLeases_ok h hk fun _ => rfl
  simp only [Bool.and_eq_true, beq_iff_eq, decide_eq_true_eq, ge_iff_le] at hp
  exact ⟨l, hl, hp.1.1, hp.1.2, hp.2, he⟩

/-! ## Transition tables -/

theorem OrderMoves.refl (o : WorkOrder) : OrderMoves o o := ⟨Or.inl rfl, fun _ => rfl⟩

theorem RunMoves.refl (r : ExecutionRun) : RunMoves r r := ⟨Or.inl rfl, fun _ => rfl⟩

theorem OrderMoves.of_active {o o' : WorkOrder} (ha : o.status.isActive = true)
    (h : o'.status = o.status ∨ allowsWorkOrderTransition o.status o'.status = true) : OrderMoves o o' := by
  refine ⟨h, fun ht => ?_⟩
  rw [WorkOrderStatus.not_active_of_terminal ht] at ha; cases ha

theorem RunMoves.of_active {r r' : ExecutionRun} (ha : r.status.isActive = true)
    (h : r'.status = r.status ∨ allowsRunTransition r.status r'.status = true) : RunMoves r r' := by
  refine ⟨h, fun ht => ?_⟩
  rw [ExecutionRunStatus.not_active_of_terminal ht] at ha; cases ha

theorem allowed_same {s' : Database} (heo : s'.orders = s.orders) (her : s'.runs = s.runs)
    (ho : UniqueKeys s.orders) (hr : UniqueKeys s.runs) : Allowed s s' := by
  refine ⟨?_, ?_⟩
  · rw [heo]; exact RowsMove.refl ho OrderMoves.refl
  · rw [her]; exact RowsMove.refl hr RunMoves.refl

theorem allowed_putOrder {s' : Database} {o o' : WorkOrder} (heo : s'.orders = put o' s.orders)
    (her : s'.runs = s.runs) (ho : UniqueKeys s.orders) (hr : UniqueKeys s.runs) (hmem : o ∈ s.orders)
    (hid : o'.id = o.id) (hm : OrderMoves o o') : Allowed s s' := by
  refine ⟨?_, ?_⟩
  · rw [heo]; exact RowsMove.put ho OrderMoves.refl hmem hid.symm hm
  · rw [her]; exact RowsMove.refl hr RunMoves.refl

theorem allowed_putRun {s' : Database} {r r' : ExecutionRun} (heo : s'.orders = s.orders)
    (her : s'.runs = put r' s.runs) (ho : UniqueKeys s.orders) (hr : UniqueKeys s.runs) (hmem : r ∈ s.runs)
    (hid : r'.id = r.id) (hm : RunMoves r r') : Allowed s s' := by
  refine ⟨?_, ?_⟩
  · rw [heo]; exact RowsMove.refl ho OrderMoves.refl
  · rw [her]; exact RowsMove.put hr RunMoves.refl hmem hid.symm hm

theorem allowed_appendOrder {s' : Database} {o : WorkOrder} (heo : s'.orders = s.orders ++ [o])
    (her : s'.runs = s.runs) (ho : UniqueKeys s.orders) (hr : UniqueKeys s.runs)
    (hid : o.id = nextId s.orders) : Allowed s s' := by
  refine ⟨?_, ?_⟩
  · rw [heo]
    exact RowsMove.append ho OrderMoves.refl fun x hx => Nat.ne_of_lt (lt_of_lt_of_eq (lt_nextId hx) hid.symm)
  · rw [her]; exact RowsMove.refl hr RunMoves.refl

theorem allowed_appendRun {s' : Database} {r : ExecutionRun} (heo : s'.orders = s.orders)
    (her : s'.runs = s.runs ++ [r]) (ho : UniqueKeys s.orders) (hr : UniqueKeys s.runs)
    (hid : r.id = nextId s.runs) : Allowed s s' := by
  refine ⟨?_, ?_⟩
  · rw [heo]; exact RowsMove.refl ho OrderMoves.refl
  · rw [her]
    exact RowsMove.append hr RunMoves.refl fun x hx => Nat.ne_of_lt (lt_of_lt_of_eq (lt_nextId hx) hid.symm)

end Switchboard
