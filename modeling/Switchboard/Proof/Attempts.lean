import Switchboard.Proof.Coherence

/-!
# Attempt numbering

* `AttemptsOK`: the runs of an order, by id, are its attempts `1, 2, …` up to the
  order's counter, and an active run is the last of them.
* `Effect.attemptsOK`: every effect preserves it.
* `runCalls_attempts`: it holds in every reachable state, whatever faults hit the
  nested claims.
-/

namespace Switchboard

open Table Transaction

variable {P : Platform} {scope : Scope} {s s' : Database} {now : Time}

/-- The attempt numbers of an order's runs, in the order of the run ids. -/
def attemptNumbers (s : Database) (workOrderId : ℕ) : List ℕ :=
  (s.runs.filter fun r => r.workOrderId == workOrderId).map ExecutionRun.attemptNumber

/-- The attempts of every order are numbered without a gap, and only the last can be active. -/
structure AttemptsOK (s : Database) : Prop where
  numbers : ∀ o ∈ s.orders, attemptNumbers s o.id = List.range' 1 o.attemptCount
  latest : ∀ r ∈ s.runs, r.status.isActive = true → ∀ o ∈ s.orders, o.id = r.workOrderId →
    r.attemptNumber = o.attemptCount

theorem AttemptsOK.init : AttemptsOK Database.init := by
  constructor <;> simp [Database.init]

theorem attemptNumbers_congr {n : ℕ} (h : s'.runs = s.runs) : attemptNumbers s' n = attemptNumbers s n := by
  unfold attemptNumbers; rw [h]

/-- A keyed write that keeps a run's order and number keeps the numbering. -/
theorem attemptNumbers_put {n : ℕ} (hk : Keys s) {r r' : ExecutionRun} (hr : r ∈ s.runs) (hid : r'.id = r.id)
    (hw : r'.workOrderId = r.workOrderId) (hn : r'.attemptNumber = r.attemptNumber)
    (h : s'.runs = put r' s.runs) : attemptNumbers s' n = attemptNumbers s n := by
  have hcol := map_put hk.runs.unique hr hid.symm (fun r : ExecutionRun => (r.workOrderId, r.attemptNumber))
    (by rw [hw, hn])
  have hnum : ∀ t : List ExecutionRun, (t.filter fun r => r.workOrderId == n).map ExecutionRun.attemptNumber =
      ((t.map fun r => (r.workOrderId, r.attemptNumber)).filter fun c => c.1 == n).map Prod.snd := by
    intro t
    rw [List.filter_map, List.map_map]
    rfl
  unfold attemptNumbers
  rw [h, hnum, hnum, hcol]

theorem attemptNumbers_append {n : ℕ} {r : ExecutionRun} (h : s'.runs = s.runs ++ [r]) :
    attemptNumbers s' n = attemptNumbers s n ++ if r.workOrderId = n then [r.attemptNumber] else [] := by
  unfold attemptNumbers
  rw [h, List.filter_append, List.map_append, List.filter_singleton]
  congr 1
  by_cases hn : r.workOrderId = n
  · simp [hn]
  · rw [if_neg hn, beq_false_of_ne hn]; rfl

/-- The orders keep their ids and counters and the runs are the same. -/
theorem AttemptsOK.orders (h : AttemptsOK s) (hr : s'.runs = s.runs)
    (ho : ∀ o' ∈ s'.orders, ∃ o ∈ s.orders, o'.id = o.id ∧ o'.attemptCount = o.attemptCount) : AttemptsOK s' := by
  constructor
  · intro o' ho'
    obtain ⟨o, hom, hid, hcount⟩ := ho o' ho'
    rw [attemptNumbers_congr hr, hid, hcount]
    exact h.numbers o hom
  · intro r hrm hact o' ho' hid'
    obtain ⟨o, hom, hid, hcount⟩ := ho o' ho'
    rw [hcount]
    exact h.latest r (hr ▸ hrm) hact o hom (hid.symm.trans hid')

/-- The rows of an active run and of its order were rewritten, ids, numbers and counters apart. -/
theorem AttemptsOK.rewrite (h : AttemptsOK s) (hk : Keys s) {r : ExecutionRun} (r' : ExecutionRun) (hr : r ∈ s.runs)
    (hid : r'.id = r.id) (hw : r'.workOrderId = r.workOrderId) (hn : r'.attemptNumber = r.attemptNumber)
    (hact : r.status.isActive = true) (hruns : s'.runs = put r' s.runs)
    (ho : ∀ o' ∈ s'.orders, ∃ o ∈ s.orders, o'.id = o.id ∧ o'.attemptCount = o.attemptCount) : AttemptsOK s' := by
  constructor
  · intro o' ho'
    obtain ⟨o, hom, hoid, hcount⟩ := ho o' ho'
    rw [attemptNumbers_put hk hr hid hw hn hruns, hoid, hcount]
    exact h.numbers o hom
  · intro x hx hxact o' ho' hxid
    obtain ⟨o, hom, hoid, hcount⟩ := ho o' ho'
    rw [hruns] at hx
    rcases of_mem_put hx with rfl | ⟨hx, -⟩
    · rw [hn, hcount]
      exact h.latest r hr hact o hom (hoid.symm.trans (hxid.trans hw))
    · rw [hcount]; exact h.latest x hx hxact o hom (hoid.symm.trans hxid)

theorem orders_put_attempts {o o' : WorkOrder} (ho : o ∈ s.orders) (hid : o'.id = o.id)
    (hcount : o'.attemptCount = o.attemptCount) :
    ∀ x ∈ put o' s.orders, ∃ y ∈ s.orders, x.id = y.id ∧ x.attemptCount = y.attemptCount := by
  intro x hx
  rcases of_mem_put hx with rfl | ⟨hx, -⟩
  · exact ⟨o, ho, hid, hcount⟩
  · exact ⟨x, hx, rfl, rfl⟩

/-- A new order has no run yet. -/
theorem AttemptsOK.createOrder (h : AttemptsOK s) (hc : Coherent s) {o : WorkOrder} (hid : o.id = nextId s.orders)
    (hcount : o.attemptCount = 0) : AttemptsOK { s with orders := s.orders ++ [o] } := by
  have hnone : ∀ r ∈ s.runs, r.workOrderId ≠ o.id := by
    intro r hr he
    obtain ⟨x, hx, hxid⟩ := hc.runOrder r hr
    have hlt := lt_nextId hx
    rw [key_order, hxid, he, hid] at hlt
    exact absurd hlt (lt_irrefl _)
  constructor
  · intro x hx
    rcases List.mem_append.1 hx with hx | hx
    · exact h.numbers x hx
    · rw [List.mem_singleton.1 hx, hcount]
      unfold attemptNumbers
      rw [List.filter_eq_nil_iff.2 (by simpa using hnone)]
      rfl
  · intro r hr hact x hx hxid
    rcases List.mem_append.1 hx with hx | hx
    · exact h.latest r hr hact x hx hxid
    · rw [List.mem_singleton.1 hx] at hxid; exact absurd hxid.symm (hnone r hr)

/-- A claim counts one more attempt and gives its number to the new run. -/
theorem AttemptsOK.claim (h : AttemptsOK s) (hk : Keys s) (hc : Coherent s) {w : Worker} {o : WorkOrder}
    {q : Service.QuotaClaim} {profiles : List RoutingProfile} {expiresAt : Time} {order : OrderRoute} {route : RunRoute}
    (hcl : Claiming s w o q profiles) : AttemptsOK (claimedDatabase s now expiresAt w o order route profiles) := by
  set s' := claimedDatabase s now expiresAt w o order route profiles with hs'
  set r := Repository.activeRun (o.claimed now order) w.workerId now expiresAt route (nextId s.runs) with hr
  have happ : ∀ n, attemptNumbers s' n = attemptNumbers s n ++ if o.id = n then [o.attemptCount + 1] else [] :=
    fun n => attemptNumbers_append (r := r) rfl
  constructor
  · intro x hx
    rw [happ]
    rcases of_mem_put hx with rfl | ⟨hx, hne⟩
    · have hold := h.numbers o hcl.order
      show attemptNumbers s o.id ++ (if o.id = o.id then [o.attemptCount + 1] else []) =
        List.range' 1 (o.attemptCount + 1)
      rw [if_pos rfl, hold, List.range'_concat]
      simp [Nat.add_comm]
    · rw [if_neg (fun he => hne he.symm), List.append_nil]
      exact h.numbers x hx
  · intro x hx hxact y hy hyid
    rcases List.mem_append.1 hx with hx | hx
    · rcases of_mem_put hy with rfl | ⟨hy, -⟩
      · -- the order was queued, so none of its older runs is active
        have hst := hc.order_active hk hx hcl.order hxact hyid
        rw [hcl.queued] at hst
        rw [← ExecutionRunStatus.toWorkOrder_isActive, ← hst] at hxact
        cases hxact
      · exact h.latest x hx hxact y hy hyid
    · rw [List.mem_singleton.1 hx] at hyid ⊢
      rcases of_mem_put hy with rfl | ⟨hy, hne⟩
      · rfl
      · exact absurd hyid hne

theorem settledOrder_attemptCount (q : QuotaReservationState) (r : ExecutionRun) (o : WorkOrder) :
    (settledOrder q r o).attemptCount = o.attemptCount := by
  unfold settledOrder; split <;> rfl

theorem outcome_order_attemptCount (outcome : Outcome) (o : WorkOrder) :
    (outcome.order now o).attemptCount = o.attemptCount := by
  cases outcome <;> rfl

theorem settledRun_attemptNumber (q : QuotaReservationState) (r : ExecutionRun) :
    (settledRun q r).attemptNumber = r.attemptNumber := by
  unfold settledRun; split <;> rfl

theorem outcome_run_attemptNumber (outcome : Outcome) (r : ExecutionRun) :
    (outcome.run now r).attemptNumber = r.attemptNumber := by
  cases outcome <;> rfl

/-- **Every effect keeps the numbering.** -/
theorem Effect.attemptsOK (he : Effect P scope now s s') (hk : Keys s) (hc : Coherent s) (h : AttemptsOK s) :
    AttemptsOK s' := by
  cases he with
  | idle => exact h
  | manifest | insertWorker | updateWorker | insertProfile | rewriteProfile =>
    exact h.orders rfl fun o ho => ⟨o, ho, rfl, rfl⟩
  | createOrder o hid _ hattempts => exact h.createOrder hc hid hattempts
  | moveOrder o o' ho hm => exact h.orders rfl (orders_put_attempts ho hm.id hm.attempts)
  | claim w o q count pin expiresAt profiles hcl => exact h.claim hk hc hcl
  | heartbeat l r o expiresAt hb =>
    refine h.rewrite hk ((settledRun .consumed r).started now expiresAt) hb.run (settledRun_id .consumed r)
      (settledRun_workOrderId .consumed r) (settledRun_attemptNumber .consumed r) hb.runActive rfl ?_
    exact orders_put_attempts hb.order (settledOrder_id .consumed r o) (settledOrder_attemptCount .consumed r o)
  | close outcome l r o w profiles hcl =>
    refine h.rewrite hk (outcome.run now (settledRun .released r)) hcl.run ?_ ?_ ?_ hcl.runActive rfl ?_
    · rw [outcome_run_id, settledRun_id]
    · rw [outcome_run_workOrderId, settledRun_workOrderId]
    · rw [outcome_run_attemptNumber, settledRun_attemptNumber]
    · refine orders_put_attempts hcl.order ?_ ?_
      · rw [outcome_order_id, settledOrder_id]
      · rw [outcome_order_attemptCount, settledOrder_attemptCount]
  | resolve l r o identity selected hr =>
    exact h.rewrite hk (Service.resolvedRun identity (P.reuseIdentityHash identity) selected r) hr.run rfl rfl rfl
      hr.runActive rfl fun o ho => ⟨o, ho, rfl, rfl⟩

theorem runCalls_attemptsOK (P : Platform) (calls : List Call) : AttemptsOK (runCalls P calls).db := by
  have h : Coherent (runCalls P calls).db ∧ AttemptsOK (runCalls P calls).db :=
    runCalls_invariant (I := fun s => Coherent s ∧ AttemptsOK s) ⟨Coherent.init, AttemptsOK.init⟩
      (fun he hk hi => ⟨he.coherent hk hi.1, he.attemptsOK hk hi.1 hi.2⟩) calls
  exact h.2

/-- **Attempts are numbered `1, 2, …` without a gap, a duplicate or a reordering.** The runs are in id
order, those of an order carry the numbers up to its `attempt_count`, and only the one that carries
the highest number can be active. -/
theorem runCalls_attempts (P : Platform) (calls : List Call) :
    Ordered (runCalls P calls).db.runs ∧
    ∀ o ∈ (runCalls P calls).db.orders,
      attemptNumbers (runCalls P calls).db o.id = List.range' 1 o.attemptCount ∧
      ∀ r ∈ (runCalls P calls).db.runs, r.workOrderId = o.id → r.status.isActive = true →
        r.attemptNumber = o.attemptCount := by
  have h := runCalls_attemptsOK P calls
  refine ⟨(runCalls_keys P calls).runs, fun o ho => ⟨h.numbers o ho, fun r hr hid hact => ?_⟩⟩
  exact h.latest r hr hact o ho hid.symm

end Switchboard
