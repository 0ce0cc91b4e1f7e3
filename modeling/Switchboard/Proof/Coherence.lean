import Switchboard.Proof.Runs

/-!
# Leases, runs and orders move together

* `Effect.coherent`: every effect keeps leases, active runs and active orders in
  correspondence.
* `runCalls_leaseCoherent`: in every reachable database an order is assigned or running
  exactly when one lease names it, and that lease's run is its only active run.
-/

namespace Switchboard

open Table Transaction

variable {P : Platform} {scope : Scope} {s s' : Database} {now : Time}

theorem Coherent.init : Coherent Database.init := by
  constructor <;> simp [Database.init]

/-- The rows behind a lease are the ones its ids name. -/
theorem Coherent.backed (hc : Coherent s) (hk : Keys s) {l : Lease} {r : ExecutionRun} {o : WorkOrder}
    (hl : l ∈ s.leases) (hr : r ∈ s.runs) (ho : o ∈ s.orders) (hrid : r.id = l.executionRunId)
    (hoid : o.id = l.workOrderId) : Backed s l r o := by
  obtain ⟨r₁, o₁, hb⟩ := hc.lease l hl
  have hr₁ : r₁ = r := hk.runs.unique.eq_of_key hb.run hr (hb.runId.trans hrid.symm)
  have ho₁ : o₁ = o := hk.orders.unique.eq_of_key hb.order ho (hb.orderId.trans hoid.symm)
  subst hr₁; subst ho₁
  exact hb

/-- An active run of an order is the one its lease names. -/
theorem Coherent.active_run_leased (hc : Coherent s) (hk : Keys s) {r : ExecutionRun} (hr : r ∈ s.runs)
    (ha : r.status.isActive = true) :
    ∃ l o, l ∈ s.leases ∧ Backed s l r o := by
  obtain ⟨l, hl, hid⟩ := hc.run r hr ha
  obtain ⟨r₁, o, hb⟩ := hc.lease l hl
  have hrr : r₁ = r := hk.runs.unique.eq_of_key hb.run hr (hb.runId.trans hid)
  subst hrr
  exact ⟨l, o, hl, hb⟩

/-- An order has at most one active run. -/
theorem Coherent.active_unique (hc : Coherent s) (hk : Keys s) {r r' : ExecutionRun} (hr : r ∈ s.runs)
    (hr' : r' ∈ s.runs) (ha : r.status.isActive = true) (ha' : r'.status.isActive = true)
    (h : r'.workOrderId = r.workOrderId) : r' = r := by
  obtain ⟨l, o, hl, hb⟩ := hc.active_run_leased hk hr ha
  obtain ⟨l', o', hl', hb'⟩ := hc.active_run_leased hk hr' ha'
  have hll : l' = l := by
    refine hk.lease_of_order hl' hl ?_
    rw [← hb'.orderId, ← hb.orderId, ← hb'.ofOrder, ← hb.ofOrder, h]
  subst hll
  exact hk.runs.unique.eq_of_key hr' hr (hb'.runId.trans hb.runId.symm)

/-- The order of an active run is active. -/
theorem Coherent.order_active (hc : Coherent s) (hk : Keys s) {r : ExecutionRun} {o : WorkOrder} (hr : r ∈ s.runs)
    (ho : o ∈ s.orders) (ha : r.status.isActive = true) (hid : o.id = r.workOrderId) :
    o.status = r.status.toWorkOrder := by
  obtain ⟨l, o', hl, hb⟩ := hc.active_run_leased hk hr ha
  have hoo : o' = o := hk.orders.unique.eq_of_key hb.order ho (hb.ofOrder.symm.trans hid.symm)
  subst hoo
  exact hb.status

/-- Only orders, runs and leases matter. -/
theorem Coherent.congr (hc : Coherent s) (ho : s'.orders = s.orders) (hr : s'.runs = s.runs)
    (hl : s'.leases = s.leases) : Coherent s' := by
  constructor
  · intro l hm
    obtain ⟨r, o, hb⟩ := hc.lease l (hl ▸ hm)
    exact ⟨r, o, { hb with run := hr ▸ hb.run, order := ho ▸ hb.order }⟩
  · rw [hr, hl]; exact hc.run
  · rw [ho, hl]; exact hc.order
  · rw [hr]; exact hc.started
  · rw [hr, ho]; exact hc.runOrder

theorem Coherent.createOrder (hc : Coherent s) {o : WorkOrder} (hst : o.status = .pendingApproval) :
    Coherent { s with orders := s.orders ++ [o] } := by
  refine ⟨?_, hc.run, ?_, hc.started, ?_⟩
  · intro l hl
    obtain ⟨r, o', hb⟩ := hc.lease l hl
    exact ⟨r, o', { hb with order := List.mem_append_left _ hb.order }⟩
  · intro x hx ha
    rcases List.mem_append.1 hx with hx | hx
    · exact hc.order x hx ha
    · rw [List.mem_singleton.1 hx, hst] at ha; cases ha
  · intro r hr
    obtain ⟨x, hx, hid⟩ := hc.runOrder r hr
    exact ⟨x, List.mem_append_left _ hx, hid⟩

theorem Coherent.moveOrder (hc : Coherent s) (hk : Keys s) {o o' : WorkOrder} (ho : o ∈ s.orders)
    (hm : UnleasedMove o o') : Coherent { s with orders := put o' s.orders } := by
  refine ⟨?_, hc.run, ?_, hc.started, ?_⟩
  · intro l hl
    obtain ⟨r, x, hb⟩ := hc.lease l hl
    refine ⟨r, x, { hb with order := mem_put_of_ne hb.order ?_ }⟩
    -- a leased order is active, the moved one is not
    intro he
    have hxo : x = o := hk.orders.unique.eq_of_key hb.order ho (he.trans hm.id)
    have hact : x.status.isActive = true := by
      rw [hb.status, ExecutionRunStatus.toWorkOrder_isActive]; exact hb.active
    rw [hxo, hm.unleased] at hact; cases hact
  · intro x hx ha
    rcases of_mem_put hx with rfl | ⟨hx, -⟩
    · rw [hm.target] at ha; cases ha
    · exact hc.order x hx ha
  · intro r hr
    obtain ⟨x, hx, hid⟩ := hc.runOrder r hr
    obtain ⟨x', hx', hid'⟩ := exists_mem_put (r := o') hx
    exact ⟨x', hx', Eq.trans hid' hid⟩

theorem Coherent.claim (hc : Coherent s) {w : Worker} {o : WorkOrder} {q : Service.QuotaClaim}
    {profiles : List RoutingProfile} {expiresAt : Time} {order : OrderRoute} {route : RunRoute}
    (h : Claiming s w o q profiles) : Coherent (claimedDatabase s now expiresAt w o order route profiles) := by
  have hclaimed : o.claimed now order ∈ (claimedDatabase s now expiresAt w o order route profiles).orders :=
    mem_put_self h.order rfl
  refine ⟨?_, ?_, ?_, ?_, ?_⟩
  · intro l hl
    rcases List.mem_append.1 hl with hl | hl
    · obtain ⟨r, x, hb⟩ := hc.lease l hl
      have hne : x.id ≠ o.id := fun he => (h.unleased l hl).1 (hb.orderId.symm.trans he)
      exact ⟨r, x, { hb with run := List.mem_append_left _ hb.run, order := mem_put_of_ne hb.order hne }⟩
    · rw [List.mem_singleton.1 hl]
      exact ⟨_, _, ⟨List.mem_append_right _ (List.mem_singleton.2 rfl), hclaimed, rfl, rfl, rfl, rfl, rfl, rfl⟩⟩
  · intro r hr ha
    rcases List.mem_append.1 hr with hr | hr
    · obtain ⟨l, hl, hid⟩ := hc.run r hr ha
      exact ⟨l, List.mem_append_left _ hl, hid⟩
    · rw [List.mem_singleton.1 hr]
      exact ⟨_, List.mem_append_right _ (List.mem_singleton.2 rfl), rfl⟩
  · intro x hx ha
    rcases of_mem_put hx with rfl | ⟨hx, -⟩
    · exact ⟨_, List.mem_append_right _ (List.mem_singleton.2 rfl), rfl⟩
    · obtain ⟨l, hl, hid⟩ := hc.order x hx ha
      exact ⟨l, List.mem_append_left _ hl, hid⟩
  · intro r hr
    rcases List.mem_append.1 hr with hr | hr
    · exact hc.started r hr
    · rw [List.mem_singleton.1 hr]; exact Or.inl rfl
  · intro r hr
    rcases List.mem_append.1 hr with hr | hr
    · obtain ⟨x, hx, hid⟩ := hc.runOrder r hr
      obtain ⟨x', hx', hid'⟩ := exists_mem_put (r := o.claimed now order) hx
      exact ⟨x', hx', Eq.trans hid' hid⟩
    · rw [List.mem_singleton.1 hr]; exact ⟨_, hclaimed, rfl⟩

theorem settledRun_started_status (q : QuotaReservationState) (r : ExecutionRun) (now e : Time) :
    ((settledRun q r).started now e).status = if r.status = .assigned then .running else r.status := by
  simp only [ExecutionRun.started, settledRun_status]

theorem settledOrder_started_status (q : QuotaReservationState) (r : ExecutionRun) (o : WorkOrder) (now : Time) :
    ((settledOrder q r o).started now).status = if o.status = .assigned then .running else o.status := by
  simp only [WorkOrder.started, settledOrder_status]

theorem started_active {s : ExecutionRunStatus} (h : s.isActive = true) :
    (if s = .assigned then ExecutionRunStatus.running else s).isActive = true := by
  revert h; cases s <;> decide

theorem started_orderActive {s : WorkOrderStatus} (h : s.isActive = true) :
    (if s = .assigned then .running else s : WorkOrderStatus).isActive = true := by
  revert h; cases s <;> decide

theorem started_toWorkOrder {s : ExecutionRunStatus} (h : s.isActive = true) :
    (if s.toWorkOrder = .assigned then WorkOrderStatus.running else s.toWorkOrder) =
      (if s = .assigned then ExecutionRunStatus.running else s).toWorkOrder := by
  revert h; cases s <;> decide

/-- Writing a run that keeps its order and worker, an order and a lease that all stay active together. -/
theorem Coherent.putActive (hc : Coherent s) (hk : Keys s) {l : Lease} {r : ExecutionRun} {o : WorkOrder}
    (l' : Lease) (r' : ExecutionRun) (o' : WorkOrder) (hb : Backed s l r o) (hl : l ∈ s.leases) (hlid : l'.id = l.id) (hlrun : l'.executionRunId = l.executionRunId)
    (hlorder : l'.workOrderId = l.workOrderId) (hlworker : l'.workerId = l.workerId) (hrid : r'.id = r.id)
    (hrorder : r'.workOrderId = r.workOrderId) (hrworker : r'.workerId = r.workerId) (hoid : o'.id = o.id)
    (hact : r'.status.isActive = true) (hst : o'.status = r'.status.toWorkOrder) :
    Coherent { s with leases := put l' s.leases, runs := put r' s.runs, orders := put o' s.orders } := by
  have hl' : l' ∈ put l' s.leases := mem_put_self hl hlid.symm
  have hr' : r' ∈ put r' s.runs := mem_put_self hb.run hrid.symm
  have ho' : o' ∈ put o' s.orders := mem_put_self hb.order hoid.symm
  -- a lease of the old table reappears with the same ids
  have hkeep : ∀ x ∈ s.leases, ∃ x' ∈ put l' s.leases, x'.executionRunId = x.executionRunId ∧
      x'.workOrderId = x.workOrderId := by
    intro x hx
    by_cases he : x.id = l'.id
    · have hxl : x = l := hk.leases.unique.eq_of_key hx hl (he.trans hlid)
      exact ⟨l', hl', by rw [hxl]; exact ⟨hlrun, hlorder⟩⟩
    · exact ⟨x, mem_put_of_ne hx he, rfl, rfl⟩
  refine ⟨?_, ?_, ?_, ?_, ?_⟩
  · intro x hx
    rcases of_mem_put hx with rfl | ⟨hx, hne⟩
    · exact ⟨r', o', ⟨hr', ho', hrid.trans (hb.runId.trans hlrun.symm), hoid.trans (hb.orderId.trans hlorder.symm),
        hrorder.trans (hb.ofOrder.trans hoid.symm), hrworker.trans (hb.worker.trans hlworker.symm), hact, hst⟩⟩
    · obtain ⟨r₁, o₁, hb₁⟩ := hc.lease x hx
      have hxl : x ≠ l := fun he => hne (he ▸ hlid.symm)
      refine ⟨r₁, o₁, { hb₁ with run := mem_put_of_ne hb₁.run ?_, order := mem_put_of_ne hb₁.order ?_ }⟩
      · intro he
        exact hxl (hk.lease_of_run hx hl (hb₁.runId.symm.trans ((he.trans hrid).trans hb.runId)))
      · intro he
        exact hxl (hk.lease_of_order hx hl (hb₁.orderId.symm.trans ((he.trans hoid).trans hb.orderId)))
  · intro x hx ha
    rcases of_mem_put hx with rfl | ⟨hx, -⟩
    · exact ⟨l', hl', hlrun.trans (hb.runId.symm.trans hrid.symm)⟩
    · obtain ⟨y, hy, hid⟩ := hc.run x hx ha
      obtain ⟨y', hy', hrun, -⟩ := hkeep y hy
      exact ⟨y', hy', hrun.trans hid⟩
  · intro x hx ha
    rcases of_mem_put hx with rfl | ⟨hx, -⟩
    · exact ⟨l', hl', hlorder.trans (hb.orderId.symm.trans hoid.symm)⟩
    · obtain ⟨y, hy, hid⟩ := hc.order x hx ha
      obtain ⟨y', hy', -, horder⟩ := hkeep y hy
      exact ⟨y', hy', horder.trans hid⟩
  · intro x hx
    rcases of_mem_put hx with rfl | ⟨hx, -⟩
    · exact Or.inl hact
    · exact hc.started x hx
  · intro x hx
    rcases of_mem_put hx with rfl | ⟨hx, -⟩
    · exact ⟨o', ho', hoid.trans (hb.ofOrder.symm.trans hrorder.symm)⟩
    · obtain ⟨y, hy, hid⟩ := hc.runOrder x hx
      obtain ⟨y', hy', hid'⟩ := exists_mem_put (r := o') hy
      exact ⟨y', hy', Eq.trans hid' hid⟩

theorem Coherent.heartbeat (hc : Coherent s) (hk : Keys s) {l : Lease} {r : ExecutionRun} {o : WorkOrder}
    {expiresAt : Time} (h : Beating s l r o now) : Coherent (beatenDatabase s now expiresAt l r o) := by
  have hb := hc.backed hk h.lease h.run h.order h.runId h.orderId
  have hrid := settledRun_id .consumed r
  have hoid := settledOrder_id .consumed r o
  refine hc.putActive hk (l.renewed now expiresAt) _ _ hb h.lease rfl rfl rfl rfl hrid
    (settledRun_workOrderId _ _) (settledRun_workerId _ _) hoid ?_ ?_
  · rw [settledRun_started_status]; exact started_active h.runActive
  · rw [settledOrder_started_status, settledRun_started_status, hb.status]
    exact started_toWorkOrder h.runActive

theorem Coherent.resolve (hc : Coherent s) (hk : Keys s) {l : Lease} {r : ExecutionRun} {o : WorkOrder}
    {identity : ReuseIdentity} {hash : String} {selected : Option ReuseCandidate}
    (h : Resolving P s now l r o identity selected) :
    Coherent { s with runs := put (Service.resolvedRun identity hash selected r) s.runs } := by
  have hb := hc.backed hk h.lease h.run h.order h.runId h.orderId
  have hc' := hc.putActive hk l (Service.resolvedRun identity hash selected r) o hb h.lease
    rfl rfl rfl rfl rfl rfl rfl rfl h.runActive hb.status
  rwa [put_self hk.leases.unique h.lease, put_self hk.orders.unique h.order] at hc'

/-- The row that an outcome leaves on its run is terminal; the order is no longer active. -/
theorem Closing.run_terminal {outcome : Outcome} {l : Lease} {r : ExecutionRun} {o : WorkOrder} {w : Worker}
    {profiles : List RoutingProfile} (h : Closing P s outcome l r o w profiles) (r₀ : ExecutionRun) :
    (outcome.run now r₀).status.isTerminal = true := by
  cases outcome with
  | finish c reuse => exact h.justified.1
  | expire => rfl

theorem Closing.order_inactive {outcome : Outcome} {l : Lease} {r : ExecutionRun} {o : WorkOrder} {w : Worker}
    {profiles : List RoutingProfile} (h : Closing P s outcome l r o w profiles) (o₀ : WorkOrder) :
    (outcome.order now o₀).status.isActive = false := by
  cases outcome with
  | finish c reuse =>
    apply WorkOrderStatus.not_active_of_terminal
    have ht : c.status.isTerminal = true := h.justified.1
    rw [← ExecutionRunStatus.toWorkOrder_isTerminal] at ht
    exact ht
  | expire => rfl

theorem Coherent.close (hc : Coherent s) (hk : Keys s) {outcome : Outcome} {l : Lease} {r : ExecutionRun}
    {o : WorkOrder} {w : Worker} {profiles : List RoutingProfile} (h : Closing P s outcome l r o w profiles) :
    Coherent (closedDatabase s now outcome l r o w profiles) := by
  set r' := outcome.run now (settledRun .released r) with hr'
  set o' := outcome.order now (settledOrder .released r o) with ho'
  have hrid : r'.id = r.id := by rw [hr', outcome_run_id, settledRun_id]
  have hoid : o'.id = o.id := by rw [ho', outcome_order_id, settledOrder_id]
  have hrt : r'.status.isTerminal = true := h.run_terminal _
  have hra : r'.status.isActive = false := ExecutionRunStatus.not_active_of_terminal hrt
  have hoa : o'.status.isActive = false := h.order_inactive _
  have hne : ∀ x ∈ s.leases, x ≠ l → x ∈ remove l.id s.leases := by
    intro x hx hxl
    exact mem_remove.2 ⟨hx, fun he => hxl (hk.leases.unique.eq_of_key hx h.lease he)⟩
  refine ⟨?_, ?_, ?_, ?_, ?_⟩
  · intro x hx
    obtain ⟨hx, hxne⟩ := mem_remove.1 hx
    have hxl : x ≠ l := fun he => hxne (he ▸ rfl)
    obtain ⟨r₁, o₁, hb⟩ := hc.lease x hx
    refine ⟨r₁, o₁, { hb with run := mem_put_of_ne hb.run ?_, order := mem_put_of_ne hb.order ?_ }⟩
    · intro he
      exact hxl (hk.lease_of_run hx h.lease (hb.runId.symm.trans ((Eq.trans he hrid).trans h.runId)))
    · intro he
      exact hxl (hk.lease_of_order hx h.lease (hb.orderId.symm.trans ((Eq.trans he hoid).trans h.orderId)))
  · intro x hx ha
    rcases of_mem_put hx with rfl | ⟨hx, hxne⟩
    · rw [hra] at ha; cases ha
    · obtain ⟨y, hy, hid⟩ := hc.run x hx ha
      refine ⟨y, hne y hy fun he => hxne ?_, hid⟩
      exact (hid.symm.trans (by rw [he, ← h.runId])).trans hrid.symm
  · intro x hx ha
    rcases of_mem_put hx with rfl | ⟨hx, hxne⟩
    · rw [hoa] at ha; cases ha
    · obtain ⟨y, hy, hid⟩ := hc.order x hx ha
      refine ⟨y, hne y hy fun he => hxne ?_, hid⟩
      exact (hid.symm.trans (by rw [he, ← h.orderId])).trans hoid.symm
  · intro x hx
    rcases of_mem_put hx with rfl | ⟨hx, -⟩
    · exact Or.inr hrt
    · exact hc.started x hx
  · have hworder : r'.workOrderId = r.workOrderId := by rw [hr', outcome_run_workOrderId, settledRun_workOrderId]
    have hkeep : ∀ x ∈ s.runs, ∃ y ∈ put o' s.orders, y.id = x.workOrderId := by
      intro x hx
      obtain ⟨y, hy, hid⟩ := hc.runOrder x hx
      obtain ⟨y', hy', hid'⟩ := exists_mem_put (r := o') hy
      exact ⟨y', hy', Eq.trans hid' hid⟩
    intro x hx
    rcases of_mem_put hx with rfl | ⟨hx, -⟩
    · rw [hworder]; exact hkeep r h.run
    · exact hkeep x hx

/-- **Every effect keeps leases, active runs and active orders in correspondence.** -/
theorem Effect.coherent (h : Effect P scope now s s') (hk : Keys s) (hc : Coherent s) : Coherent s' := by
  cases h with
  | idle => exact hc
  | manifest | insertWorker | updateWorker | insertProfile | rewriteProfile => exact hc.congr rfl rfl rfl
  | createOrder o hid hst => exact hc.createOrder hst
  | moveOrder o o' ho hm => exact hc.moveOrder hk ho hm
  | claim w o q count pin expiresAt profiles h => exact hc.claim h
  | heartbeat l r o expiresAt h => exact hc.heartbeat hk h
  | close outcome l r o w profiles h => exact hc.close hk h
  | resolve l r o identity selected h => exact hc.resolve hk h

theorem runCalls_coherent (P : Platform) (calls : List Call) : Coherent (runCalls P calls).db :=
  runCalls_invariant Coherent.init (fun he hk hc => he.coherent hk hc) calls

/-! ## Every reachable database -/

/-- The leases that name an order. -/
def leasesOf (s : Database) (o : WorkOrder) : List Lease := s.leases.filter fun l => l.workOrderId == o.id

/-- `l` is the lease of the leased order `o`: its run is the order's only active one. -/
structure HoldsOrder (s : Database) (o : WorkOrder) (l : Lease) (r : ExecutionRun) : Prop where
  run : r ∈ s.runs
  runId : r.id = l.executionRunId
  ofOrder : r.workOrderId = o.id
  worker : r.workerId = l.workerId
  status : o.status = r.status.toWorkOrder
  active : r.status = .assigned ∨ r.status = .running
  others : ∀ r' ∈ s.runs, r'.workOrderId = o.id → r' ≠ r → r'.status.isTerminal = true

/-- An order is assigned or running exactly when one lease names it, and then that lease's run is
the order's only active run; otherwise no lease names it and all its runs are terminal. -/
structure LeaseCoherent (s : Database) : Prop where
  leased : ∀ o ∈ s.orders, (o.status = .assigned ∨ o.status = .running) ↔ ∃ l, leasesOf s o = [l]
  holds : ∀ o ∈ s.orders, ∀ l, leasesOf s o = [l] → ∃ r, HoldsOrder s o l r
  unleased : ∀ o ∈ s.orders, ¬(o.status = .assigned ∨ o.status = .running) →
    leasesOf s o = [] ∧ ∀ r ∈ s.runs, r.workOrderId = o.id → r.status.isTerminal = true

theorem WorkOrderStatus.isActive_iff {st : WorkOrderStatus} :
    st.isActive = true ↔ st = .assigned ∨ st = .running := by
  cases st <;> simp [WorkOrderStatus.isActive]

theorem ExecutionRunStatus.isActive_iff {st : ExecutionRunStatus} :
    st.isActive = true ↔ st = .assigned ∨ st = .running := by
  cases st <;> simp [ExecutionRunStatus.isActive]

theorem leasesOf_eq_singleton (hk : Keys s) {o : WorkOrder} {l : Lease} :
    leasesOf s o = [l] ↔ l ∈ s.leases ∧ l.workOrderId = o.id := by
  have hnd : (leasesOf s o).Nodup := (List.Nodup.of_map _ hk.leaseOrder).filter _
  constructor
  · intro h
    have hm : l ∈ leasesOf s o := by rw [h]; exact List.mem_singleton.2 rfl
    obtain ⟨hl, hid⟩ := List.mem_filter.1 hm
    exact ⟨hl, beq_iff_eq.1 hid⟩
  · rintro ⟨hl, hid⟩
    refine List.perm_singleton.1 ((List.perm_ext_iff_of_nodup hnd (List.nodup_singleton l)).2 fun x => ?_)
    rw [List.mem_singleton]
    constructor
    · intro hx
      obtain ⟨hx, hxid⟩ := List.mem_filter.1 hx
      exact hk.lease_of_order hx hl ((beq_iff_eq.1 hxid).trans hid.symm)
    · rintro rfl; exact List.mem_filter.2 ⟨hl, beq_iff_eq.2 hid⟩

theorem Coherent.leaseCoherent (hc : Coherent s) (hk : Keys s) : LeaseCoherent s := by
  have hleased : ∀ o ∈ s.orders, ∀ l ∈ s.leases, l.workOrderId = o.id → ∃ r, Backed s l r o := by
    intro o ho l hl hid
    obtain ⟨r, o₁, hb⟩ := hc.lease l hl
    have hoo : o₁ = o := hk.orders.unique.eq_of_key hb.order ho (hb.orderId.trans hid)
    subst hoo
    exact ⟨r, hb⟩
  have hactive : ∀ {l r o}, Backed s l r o → o.status = .assigned ∨ o.status = .running := by
    intro l r o hb
    rw [← WorkOrderStatus.isActive_iff, hb.status, ExecutionRunStatus.toWorkOrder_isActive]; exact hb.active
  refine ⟨?_, ?_, ?_⟩
  · intro o ho
    constructor
    · intro ha
      obtain ⟨l, hl, hid⟩ := hc.order o ho (WorkOrderStatus.isActive_iff.2 ha)
      exact ⟨l, (leasesOf_eq_singleton hk).2 ⟨hl, hid⟩⟩
    · rintro ⟨l, hl⟩
      obtain ⟨hl, hid⟩ := (leasesOf_eq_singleton hk).1 hl
      obtain ⟨r, hb⟩ := hleased o ho l hl hid
      exact hactive hb
  · intro o ho l hl
    obtain ⟨hl, hid⟩ := (leasesOf_eq_singleton hk).1 hl
    obtain ⟨r, hb⟩ := hleased o ho l hl hid
    refine ⟨r, hb.run, hb.runId, hb.ofOrder, hb.worker, hb.status, ExecutionRunStatus.isActive_iff.1 hb.active, ?_⟩
    intro r' hr' hid' hne
    rcases hc.started r' hr' with ha | ht
    · exfalso
      obtain ⟨l', o', hl', hb'⟩ := hc.active_run_leased hk hr' ha
      have hll : l' = l :=
        hk.lease_of_order hl' hl (hb'.orderId.symm.trans (hb'.ofOrder.symm.trans (hid'.trans hid.symm)))
      subst hll
      exact hne (hk.runs.unique.eq_of_key hr' hb.run (hb'.runId.trans hb.runId.symm))
    · exact ht
  · intro o ho hna
    refine ⟨?_, ?_⟩
    · rw [leasesOf, List.filter_eq_nil_iff]
      intro l hl hid
      obtain ⟨r, hb⟩ := hleased o ho l hl (beq_iff_eq.1 hid)
      exact hna (hactive hb)
    · intro r hr hid
      rcases hc.started r hr with ha | ht
      · exfalso
        obtain ⟨l, o', hl, hb⟩ := hc.active_run_leased hk hr ha
        have hoo : o' = o := hk.orders.unique.eq_of_key hb.order ho (hb.ofOrder.symm.trans hid)
        subst hoo
        exact hna (hactive hb)
      · exact ht

/-- **Lease, run and order are coherent in every reachable database**, whatever operations were
called, in whatever order, and however each of them ended. -/
theorem runCalls_leaseCoherent (P : Platform) (calls : List Call) : LeaseCoherent (runCalls P calls).db :=
  (runCalls_coherent P calls).leaseCoherent (runCalls_keys P calls)

end Switchboard
