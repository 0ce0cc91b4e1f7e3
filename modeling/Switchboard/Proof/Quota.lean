import Switchboard.Proof.Coherence

/-!
# Quota balances

* `QuotaOK`: remaining and reserved units stay within capacity, and a reservation
  belongs to an active run whose order agrees.
* `Effect.quotaOK`: every effect preserves it.
-/

namespace Switchboard

open Table Transaction

variable {P : Platform} {scope : Scope} {s s' : Database} {now : Time}

/-! ## Units by state -/

/-- The units that a run holds in state `q` for a worker. -/
def unitsOf (q : QuotaReservationState) (workerId : String) (r : ExecutionRun) : ℤ :=
  if r.workerId = workerId ∧ r.route.quotaState = q then r.route.reservedQuotaUnits else 0

/-- The sum of `route_reserved_quota_units` over the worker's runs in state `q`. -/
def unitsIn (q : QuotaReservationState) (s : Database) (workerId : String) : ℤ :=
  (s.runs.map (unitsOf q workerId)).sum

/-- Remaining, reserved and consumed units of a profile. -/
def balance (s : Database) (p : RoutingProfile) : ℤ :=
  p.quotaRemainingUnits + unitsIn .reserved s p.workerId + unitsIn .consumed s p.workerId

theorem unitsIn_congr {q : QuotaReservationState} {workerId : String} (h : s'.runs = s.runs) :
    unitsIn q s' workerId = unitsIn q s workerId := by
  unfold unitsIn; rw [h]

theorem unitsIn_put {q : QuotaReservationState} {workerId : String} (hk : UniqueKeys s.runs) {r r' : ExecutionRun}
    (hr : r ∈ s.runs) (hid : r'.id = r.id) (h : s'.runs = put r' s.runs) :
    unitsIn q s' workerId = unitsIn q s workerId - unitsOf q workerId r + unitsOf q workerId r' := by
  unfold unitsIn; rw [h]; exact sum_put hk hr hid.symm _

theorem unitsIn_append {q : QuotaReservationState} {workerId : String} {r : ExecutionRun}
    (h : s'.runs = s.runs ++ [r]) : unitsIn q s' workerId = unitsIn q s workerId + unitsOf q workerId r := by
  unfold unitsIn; rw [h]; simp

theorem unitsOf_congr {q : QuotaReservationState} {workerId : String} {r r' : ExecutionRun}
    (hw : r'.workerId = r.workerId) (hr : r'.route = r.route) : unitsOf q workerId r' = unitsOf q workerId r := by
  unfold unitsOf; rw [hw, hr]

theorem unitsIn_reserved_idle {workerId : String} (h : Idle s workerId) : unitsIn .reserved s workerId = 0 := by
  unfold unitsIn
  apply List.sum_eq_zero
  intro x hx
  obtain ⟨r, hr, rfl⟩ := List.mem_map.1 hx
  unfold unitsOf
  rw [if_neg]
  rintro ⟨hid, hq⟩
  exact h r hr hid hq

/-! ## The invariant -/

/-- What the balances rest on. -/
structure QuotaOK (s : Database) : Prop where
  nonneg : ∀ p ∈ s.profiles, 0 ≤ p.quotaRemainingUnits
  bounded : ∀ p ∈ s.profiles, p.quotaRemainingUnits + unitsIn .reserved s p.workerId ≤ p.quotaCapacityUnits
  active : ∀ r ∈ s.runs, r.route.quotaState = .reserved → r.status.isActive = true
  agrees : ∀ r ∈ s.runs, r.route.quotaState = .reserved →
    ∃ o ∈ s.orders, o.id = r.workOrderId ∧ o.route.quotaState = some .reserved
  positive : ∀ r ∈ s.runs, r.route.quotaState = .reserved → 0 < r.route.reservedQuotaUnits
  profiled : ∀ r ∈ s.runs, r.route.quotaState = .reserved → ∃ p ∈ s.profiles, p.workerId = r.workerId
  units : ∀ o ∈ s.orders, 0 ≤ o.spec.requiredQuotaUnits

theorem QuotaOK.init : QuotaOK Database.init := by
  constructor <;> simp [Database.init]

/-- Nothing but profiles, runs and orders matters. -/
theorem QuotaOK.congr (h : QuotaOK s) (hp : s'.profiles = s.profiles) (hr : s'.runs = s.runs)
    (ho : s'.orders = s.orders) : QuotaOK s' := by
  constructor
  · rw [hp]; exact h.nonneg
  · intro p hm; rw [unitsIn_congr hr]; exact h.bounded p (hp ▸ hm)
  · rw [hr]; exact h.active
  · rw [hr, ho]; exact h.agrees
  · rw [hr]; exact h.positive
  · rw [hr, hp]; exact h.profiled
  · rw [ho]; exact h.units

/-- New profiles with sound balances, runs and orders as before. -/
theorem QuotaOK.profiles (h : QuotaOK s) {profiles : List RoutingProfile}
    (hp : ∀ p ∈ profiles, p ∈ s.profiles ∨
      (0 ≤ p.quotaRemainingUnits ∧ p.quotaRemainingUnits ≤ p.quotaCapacityUnits ∧ Idle s p.workerId))
    (hkept : ∀ p ∈ s.profiles, ∃ p' ∈ profiles, p'.workerId = p.workerId) :
    QuotaOK { s with profiles := profiles } := by
  refine ⟨?_, ?_, h.active, h.agrees, h.positive, ?_, h.units⟩
  · intro p hm
    rcases hp p hm with hm | ⟨h₀, -, -⟩
    · exact h.nonneg p hm
    · exact h₀
  · intro p hm
    show p.quotaRemainingUnits + unitsIn .reserved s p.workerId ≤ p.quotaCapacityUnits
    rcases hp p hm with hm | ⟨-, h₁, hidle⟩
    · exact h.bounded p hm
    · rw [unitsIn_reserved_idle hidle]; omega
  · intro r hr hq
    obtain ⟨p, hpm, hid⟩ := h.profiled r hr hq
    obtain ⟨p', hp', hid'⟩ := hkept p hpm
    exact ⟨p', hp', hid'.trans hid⟩

theorem QuotaOK.createOrder (h : QuotaOK s) {o : WorkOrder} (hu : 0 ≤ o.spec.requiredQuotaUnits) :
    QuotaOK { s with orders := s.orders ++ [o] } := by
  refine ⟨h.nonneg, h.bounded, h.active, ?_, h.positive, h.profiled, ?_⟩
  · intro r hr hq
    obtain ⟨x, hx, hid, hxq⟩ := h.agrees r hr hq
    exact ⟨x, List.mem_append_left _ hx, hid, hxq⟩
  · intro x hx
    rcases List.mem_append.1 hx with hx | hx
    · exact h.units x hx
    · rw [List.mem_singleton.1 hx]; exact hu

theorem QuotaOK.moveOrder (h : QuotaOK s) (hk : Keys s) {o o' : WorkOrder} (ho : o ∈ s.orders)
    (hm : UnleasedMove o o') : QuotaOK { s with orders := put o' s.orders } := by
  refine ⟨h.nonneg, h.bounded, h.active, ?_, h.positive, h.profiled, ?_⟩
  · intro r hr hq
    obtain ⟨x, hx, hid, hxq⟩ := h.agrees r hr hq
    by_cases he : x.id = o'.id
    · have hxo : x = o := hk.orders.unique.eq_of_key hx ho (he.trans hm.id)
      refine ⟨o', mem_put_self hx he, he.symm.trans hid, ?_⟩
      rw [hm.route, ← hxo]; exact hxq
    · exact ⟨x, mem_put_of_ne hx he, hid, hxq⟩
  · intro x hx
    rcases of_mem_put hx with rfl | ⟨hx, -⟩
    · rw [hm.spec]; exact h.units o ho
    · exact h.units x hx

/-! ## Settling -/

theorem settledRun_not_reserved {q : QuotaReservationState} (hq : q ≠ .reserved) (r : ExecutionRun) :
    (settledRun q r).route.quotaState ≠ .reserved := by
  unfold settledRun
  split
  · exact hq
  · assumption

theorem settledRun_units (q : QuotaReservationState) (r : ExecutionRun) :
    (settledRun q r).route.reservedQuotaUnits = r.route.reservedQuotaUnits := by
  unfold settledRun; split <;> rfl

theorem unitsOf_reserved_settled {q : QuotaReservationState} (hq : q ≠ .reserved) (w : String) (r : ExecutionRun) :
    unitsOf .reserved w (settledRun q r) = 0 := by
  unfold unitsOf; rw [if_neg fun h => settledRun_not_reserved hq r h.2]

theorem unitsOf_consumed_consumed (w : String) (r : ExecutionRun) :
    unitsOf .consumed w (settledRun .consumed r) = unitsOf .consumed w r + unitsOf .reserved w r := by
  unfold unitsOf
  rw [settledRun_workerId, settledRun_units]
  unfold settledRun
  by_cases hw : r.workerId = w
  · by_cases hq : r.route.quotaState = .reserved
    · simp [hw, hq, ExecutionRun.withQuotaState]
    · simp [hw, hq]
  · simp [hw]

theorem unitsOf_consumed_released (w : String) (r : ExecutionRun) :
    unitsOf .consumed w (settledRun .released r) = unitsOf .consumed w r := by
  unfold unitsOf
  rw [settledRun_workerId, settledRun_units]
  unfold settledRun
  by_cases hq : r.route.quotaState = .reserved
  · simp [hq, ExecutionRun.withQuotaState]
  · simp [hq]

/-- The rows of an active run and its order were rewritten, and the run no longer holds a reservation. -/
theorem QuotaOK.settle (h : QuotaOK s) (hk : Keys s) (hc : Coherent s) {r : ExecutionRun} {o : WorkOrder}
    (r' : ExecutionRun) (o' : WorkOrder) {profiles : List RoutingProfile} (hr : r ∈ s.runs) (ho : o ∈ s.orders) (hact : r.status.isActive = true)
    (hof : r.workOrderId = o.id) (hrid : r'.id = r.id) (hoid : o'.id = o.id) (hspec : o'.spec = o.spec)
    (hq : r'.route.quotaState ≠ .reserved)
    (hnonneg : ∀ p ∈ profiles, 0 ≤ p.quotaRemainingUnits)
    (hbounded : ∀ p ∈ profiles, p.quotaRemainingUnits +
      unitsIn .reserved { s with runs := put r' s.runs } p.workerId ≤ p.quotaCapacityUnits)
    (hkept : ∀ p ∈ s.profiles, ∃ p' ∈ profiles, p'.workerId = p.workerId)
    (hs' : s'.profiles = profiles ∧ s'.runs = put r' s.runs ∧ s'.orders = put o' s.orders) : QuotaOK s' := by
  obtain ⟨hsp, hsr, hso⟩ := hs'
  -- a run that still holds a reservation is another run, of another order
  have hother : ∀ x ∈ s'.runs, x.route.quotaState = .reserved → x ∈ s.runs ∧ x.id ≠ r.id := by
    intro x hx hxq
    rw [hsr] at hx
    rcases of_mem_put hx with rfl | ⟨hx, hne⟩
    · exact absurd hxq hq
    · exact ⟨hx, fun he => hne (Eq.trans he hrid.symm)⟩
  refine ⟨?_, ?_, ?_, ?_, ?_, ?_, ?_⟩
  · rw [hsp]; exact hnonneg
  · intro p hp
    rw [hsp] at hp
    rw [unitsIn_congr (s := { s with runs := put r' s.runs }) hsr]
    exact hbounded p hp
  · intro x hx hxq
    exact h.active x (hother x hx hxq).1 hxq
  · intro x hx hxq
    obtain ⟨hxm, hxne⟩ := hother x hx hxq
    obtain ⟨y, hy, hid, hyq⟩ := h.agrees x hxm hxq
    refine ⟨y, ?_, hid, hyq⟩
    rw [hso]
    refine mem_put_of_ne hy fun he => hxne ?_
    have hsame : x.workOrderId = r.workOrderId := hid.symm.trans ((Eq.trans he hoid).trans hof.symm)
    rw [hc.active_unique hk hr hxm hact (h.active x hxm hxq) hsame]
  · intro x hx hxq
    exact h.positive x (hother x hx hxq).1 hxq
  · intro x hx hxq
    obtain ⟨p, hp, hid⟩ := h.profiled x (hother x hx hxq).1 hxq
    obtain ⟨p', hp', hid'⟩ := hkept p hp
    rw [hsp]
    exact ⟨p', hp', hid'.trans hid⟩
  · intro x hx
    rw [hso] at hx
    rcases of_mem_put hx with rfl | ⟨hx, -⟩
    · rw [hspec]; exact h.units o ho
    · exact h.units x hx

/-- A reservation counts a positive number of units. -/
theorem QuotaOK.unitsOf_nonneg (h : QuotaOK s) {r : ExecutionRun} (hr : r ∈ s.runs) (w : String) :
    0 ≤ unitsOf .reserved w r := by
  unfold unitsOf
  split
  · rename_i hq; exact le_of_lt (h.positive r hr hq.2)
  · exact le_rfl

theorem QuotaOK.heartbeat (h : QuotaOK s) (hk : Keys s) (hc : Coherent s) {l : Lease} {r : ExecutionRun}
    {o : WorkOrder} {expiresAt : Time} (hb : Beating s l r o now) :
    QuotaOK (beatenDatabase s now expiresAt l r o) := by
  have hof := (hc.backed hk hb.lease hb.run hb.order hb.runId hb.orderId).ofOrder
  refine h.settle hk hc ((settledRun .consumed r).started now expiresAt) ((settledOrder .consumed r o).started now)
    hb.run hb.order hb.runActive hof (settledRun_id _ _) (settledOrder_id _ _ _) (settledOrder_spec _ _ _)
    (settledRun_not_reserved (by decide) r) h.nonneg ?_ (fun p hp => ⟨p, hp, rfl⟩) ⟨rfl, rfl, rfl⟩
  intro p hp
  set r' := (settledRun .consumed r).started now expiresAt with hr'
  have hnew : unitsOf .reserved p.workerId r' = 0 := unitsOf_reserved_settled (by decide) _ _
  have hrid : r'.id = r.id := settledRun_id .consumed r
  rw [unitsIn_put (s := s) hk.runs.unique hb.run hrid rfl, hnew]
  have hold := h.bounded p hp
  have hpos := h.unitsOf_nonneg hb.run p.workerId
  omega

theorem unitsOf_reserved_self {r : ExecutionRun} (hq : r.route.quotaState = .reserved) :
    unitsOf .reserved r.workerId r = r.route.reservedQuotaUnits := by
  unfold unitsOf; rw [if_pos ⟨rfl, hq⟩]

theorem unitsOf_other {q : QuotaReservationState} {w : String} {r : ExecutionRun} (h : r.workerId ≠ w) :
    unitsOf q w r = 0 := by
  unfold unitsOf; rw [if_neg fun hh => h hh.1]

theorem unitsOf_not {q : QuotaReservationState} {w : String} {r : ExecutionRun} (h : r.route.quotaState ≠ q) :
    unitsOf q w r = 0 := by
  unfold unitsOf; rw [if_neg fun hh => h hh.2]

/-- Closing gives a reservation back to the run's own worker, and otherwise leaves the profiles alone. -/
theorem Closing.profiles_cases (h : QuotaOK s) {outcome : Outcome} {l : Lease} {r : ExecutionRun} {o : WorkOrder}
    {w : Worker} {profiles : List RoutingProfile} (hcl : Closing P s outcome l r o w profiles)
    (hworker : r.workerId = l.workerId) :
    (r.route.quotaState = .reserved ∧ ∃ p ∈ s.profiles, p.workerId = r.workerId ∧
      profiles = put (p.refunded r.route.reservedQuotaUnits) s.profiles) ∨
    (r.route.quotaState ≠ .reserved ∧ profiles = s.profiles) := by
  have href := hcl.refunds
  unfold Refunds at href
  by_cases hq : r.route.quotaState = .reserved
  · rw [if_pos ⟨hq, h.positive r hcl.run hq⟩] at href
    obtain ⟨p, hp, hid, -, he⟩ := href
    exact Or.inl ⟨hq, p, hp, hid.trans hworker.symm, he⟩
  · rw [if_neg fun hh => hq hh.1] at href
    exact Or.inr ⟨hq, href⟩

theorem QuotaOK.close (h : QuotaOK s) (hk : Keys s) (hc : Coherent s) {outcome : Outcome} {l : Lease}
    {r : ExecutionRun} {o : WorkOrder} {w : Worker} {profiles : List RoutingProfile}
    (hcl : Closing P s outcome l r o w profiles) : QuotaOK (closedDatabase s now outcome l r o w profiles) := by
  have hb := hc.backed hk hcl.lease hcl.run hcl.order hcl.runId hcl.orderId
  set r' := outcome.run now (settledRun .released r) with hr'
  have hrid : r'.id = r.id := by rw [hr', outcome_run_id, settledRun_id]
  have hroute : r'.route = (settledRun .released r).route := by rw [hr', outcome_run_route]
  have hnew : ∀ w, unitsOf .reserved w r' = 0 := by
    intro w
    rw [unitsOf_congr (by rw [hr', outcome_run_workerId]) hroute]
    exact unitsOf_reserved_settled (by decide) _ _
  have hcases := hcl.profiles_cases h hb.worker
  refine h.settle hk hc r' (outcome.order now (settledOrder .released r o)) hcl.run hcl.order hcl.runActive
    hb.ofOrder hrid ?_ ?_ ?_ ?_ ?_ ?_ ⟨rfl, rfl, rfl⟩
  · rw [outcome_order_id, settledOrder_id]
  · rw [outcome_order_spec, settledOrder_spec]
  · rw [hroute]; exact settledRun_not_reserved (by decide) r
  · intro x hx
    rcases hcases with ⟨hq, p, hp, -, rfl⟩ | ⟨-, rfl⟩
    · rcases of_mem_put hx with rfl | ⟨hx, -⟩
      · have h₀ := h.nonneg p hp
        have hpos := h.positive r hcl.run hq
        simp only [RoutingProfile.refunded]; omega
      · exact h.nonneg x hx
    · exact h.nonneg x hx
  · intro x hx
    rw [unitsIn_put (s := s) hk.runs.unique hcl.run hrid rfl, hnew]
    rcases hcases with ⟨hq, p, hp, hid, rfl⟩ | ⟨hq, rfl⟩
    · rcases of_mem_put hx with rfl | ⟨hx, hne⟩
      · -- what leaves the reserved sum is what came back
        have hold := h.bounded p hp
        have hself := unitsOf_reserved_self hq
        rw [← hid] at hself
        simp only [RoutingProfile.refunded]
        omega
      · have hne' : r.workerId ≠ x.workerId := fun he => hne (he.symm.trans hid.symm)
        rw [unitsOf_other hne']
        have hold := h.bounded x hx
        omega
    · rw [unitsOf_not hq]
      have hold := h.bounded x hx
      omega
  · intro p hp
    rcases hcases with ⟨-, x, -, -, rfl⟩ | ⟨-, rfl⟩
    · exact exists_mem_put hp
    · exact ⟨p, hp, rfl⟩

/-! ## Claims -/

/-- A claim takes the order's units from its worker's profile, or needs none. -/
theorem Claiming.profiles_cases {w : Worker} {o : WorkOrder} {q : Service.QuotaClaim} {profiles : List RoutingProfile}
    (hcl : Claiming s w o q profiles) :
    (q.quotaState = .notRequired ∧ profiles = s.profiles) ∨
    ∃ p ∈ s.profiles, p.workerId = w.workerId ∧ o.spec.requiredQuotaUnits ≤ p.quotaRemainingUnits ∧
      q.reservedQuotaUnits = o.spec.requiredQuotaUnits ∧
      q.quotaState = (if o.spec.requiredQuotaUnits ≠ 0 then .reserved else .notRequired) ∧
      profiles = put (p.reserved p.revision o.spec.requiredQuotaUnits) s.profiles := by
  rcases hcl.reserves with ⟨hq, -, he⟩ | ⟨p, hp, hid, hu, -, hr, hq, he⟩
  · exact Or.inl ⟨hq, he⟩
  · exact Or.inr ⟨p, hp, hid, hu, hr, hq, he⟩

/-- The run of a claim holds exactly the units taken from the profile. -/
theorem unitsOf_claimed {r : ExecutionRun} {q : Service.QuotaClaim} {u : ℤ}
    (hu : r.route.reservedQuotaUnits = q.reservedQuotaUnits) (hs : r.route.quotaState = q.quotaState)
    (hq : q.reservedQuotaUnits = u) (hst : q.quotaState = (if u ≠ 0 then .reserved else .notRequired)) :
    unitsOf .reserved r.workerId r = u := by
  unfold unitsOf
  rw [hu, hs, hst, hq]
  by_cases h0 : u = 0
  · simp [h0]
  · simp [h0]

theorem QuotaOK.claim (h : QuotaOK s) (hk : Keys s) (hc : Coherent s) {w : Worker} {o : WorkOrder}
    {q : Service.QuotaClaim} {profiles : List RoutingProfile} {expiresAt : Time} {count : ℕ} {pin : Bool}
    (hcl : Claiming s w o q profiles) :
    QuotaOK (claimedDatabase s now expiresAt w o (Service.orderRoute w q count pin now)
      (Service.runRoute o q count pin now) profiles) := by
  set order := Service.orderRoute w q count pin now with horder
  set r := Repository.activeRun (o.claimed now order) w.workerId now expiresAt
    (Service.runRoute o q count pin now) (nextId s.runs) with hr
  set s' := claimedDatabase s now expiresAt w o order (Service.runRoute o q count pin now) profiles with hs'
  have hruns : s'.runs = s.runs ++ [r] := rfl
  have hcases := hcl.profiles_cases
  -- the order of an older reservation is active, the claimed one was queued
  have hagrees : ∀ x ∈ s.runs, x.route.quotaState = .reserved →
      ∃ y ∈ s'.orders, y.id = x.workOrderId ∧ y.route.quotaState = some .reserved := by
    intro x hx hxq
    obtain ⟨y, hy, hid, hyq⟩ := h.agrees x hx hxq
    refine ⟨y, mem_put_of_ne hy fun he => ?_, hid, hyq⟩
    have hyo : y = o := hk.orders.unique.eq_of_key hy hcl.order he
    have hst := hc.order_active hk hx hy (h.active x hx hxq) hid
    have hact := h.active x hx hxq
    rw [← ExecutionRunStatus.toWorkOrder_isActive, ← hst, hyo, hcl.queued] at hact
    cases hact
  have hbound : ∀ x ∈ profiles, 0 ≤ x.quotaRemainingUnits ∧
      x.quotaRemainingUnits + unitsIn .reserved s' x.workerId ≤ x.quotaCapacityUnits := by
    intro x hx
    rw [unitsIn_append hruns]
    rcases hcases with ⟨hq, rfl⟩ | ⟨p, hp, hid, hu, hunits, hq, rfl⟩
    · rw [unitsOf_not (r := r) (by rw [show r.route.quotaState = q.quotaState from rfl, hq]; decide)]
      have h₀ := h.nonneg x hx
      have h₁ := h.bounded x hx
      omega
    · rcases of_mem_put hx with rfl | ⟨hx, hne⟩
      · have hself := unitsOf_claimed (r := r) rfl rfl hunits hq
        have hrw : r.workerId = p.workerId := hid.symm
        rw [hrw] at hself
        have h₁ := h.bounded p hp
        simp only [RoutingProfile.reserved]
        omega
      · have hne' : r.workerId ≠ x.workerId := fun he => hne (he.symm.trans hid.symm)
        rw [unitsOf_other hne']
        have h₀ := h.nonneg x hx
        have h₁ := h.bounded x hx
        omega
  have hkept : ∀ p ∈ s.profiles, ∃ p' ∈ profiles, p'.workerId = p.workerId := by
    intro p hp
    rcases hcases with ⟨-, rfl⟩ | ⟨x, -, -, -, -, -, rfl⟩
    · exact ⟨p, hp, rfl⟩
    · exact exists_mem_put hp
  -- the reservation of the new run
  have hnew : r.route.quotaState = .reserved →
      0 < r.route.reservedQuotaUnits ∧ ∃ p ∈ s.profiles, p.workerId = r.workerId := by
    intro hrq
    have hrq' : q.quotaState = .reserved := hrq
    rcases hcases with ⟨hq, -⟩ | ⟨p, hp, hid, -, hunits, hq, -⟩
    · rw [hq] at hrq'; cases hrq'
    · refine ⟨?_, p, hp, hid⟩
      have hnn := h.units o hcl.order
      have hne : o.spec.requiredQuotaUnits ≠ 0 := by
        intro h0; rw [hq, h0] at hrq'; simp at hrq'
      show 0 < q.reservedQuotaUnits
      omega
  refine ⟨fun p hp => (hbound p hp).1, fun p hp => (hbound p hp).2, ?_, ?_, ?_, ?_, ?_⟩
  · intro x hx hxq
    rcases List.mem_append.1 hx with hx | hx
    · exact h.active x hx hxq
    · rw [List.mem_singleton.1 hx]; rfl
  · intro x hx hxq
    rcases List.mem_append.1 hx with hx | hx
    · exact hagrees x hx hxq
    · rw [List.mem_singleton.1 hx] at hxq ⊢
      exact ⟨o.claimed now order, mem_put_self hcl.order rfl, rfl, congrArg some hxq⟩
  · intro x hx hxq
    rcases List.mem_append.1 hx with hx | hx
    · exact h.positive x hx hxq
    · rw [List.mem_singleton.1 hx] at hxq ⊢; exact (hnew hxq).1
  · have hprof : ∀ x ∈ s'.runs, x.route.quotaState = .reserved → ∃ p ∈ s.profiles, p.workerId = x.workerId := by
      intro x hx hxq
      rcases List.mem_append.1 hx with hx | hx
      · exact h.profiled x hx hxq
      · rw [List.mem_singleton.1 hx] at hxq ⊢; exact (hnew hxq).2
    intro x hx hxq
    obtain ⟨p, hp, hid⟩ := hprof x hx hxq
    obtain ⟨p', hp', hid'⟩ := hkept p hp
    exact ⟨p', hp', hid'.trans hid⟩
  · intro x hx
    rcases of_mem_put hx with rfl | ⟨hx, -⟩
    · exact h.units o hcl.order
    · exact h.units x hx

theorem QuotaOK.resolve (h : QuotaOK s) (hk : Keys s) {l : Lease} {r : ExecutionRun} {o : WorkOrder}
    {identity : ReuseIdentity} {hash : String} {selected : Option ReuseCandidate}
    (hr : Resolving P s now l r o identity selected) :
    QuotaOK { s with runs := put (Service.resolvedRun identity hash selected r) s.runs } := by
  set r' := Service.resolvedRun identity hash selected r with hr'
  have hsum : ∀ w, unitsIn .reserved { s with runs := put r' s.runs } w = unitsIn .reserved s w := by
    intro w
    have hrid : r'.id = r.id := rfl
    have hunits : unitsOf .reserved w r' = unitsOf .reserved w r := unitsOf_congr rfl rfl
    rw [unitsIn_put (s := s) hk.runs.unique hr.run hrid rfl, hunits]
    omega
  -- every run is an old one up to its reuse columns
  have hold : ∀ x ∈ put r' s.runs, ∃ y ∈ s.runs, y.route = x.route ∧ y.status = x.status ∧
      y.workOrderId = x.workOrderId ∧ y.workerId = x.workerId := by
    intro x hx
    rcases of_mem_put hx with rfl | ⟨hx, -⟩
    · exact ⟨r, hr.run, rfl, rfl, rfl, rfl⟩
    · exact ⟨x, hx, rfl, rfl, rfl, rfl⟩
  refine ⟨h.nonneg, ?_, ?_, ?_, ?_, ?_, h.units⟩
  · intro p hp; rw [hsum]; exact h.bounded p hp
  · intro x hx hxq
    obtain ⟨y, hy, hroute, hst, -, -⟩ := hold x hx
    rw [← hst]; exact h.active y hy (hroute ▸ hxq)
  · intro x hx hxq
    obtain ⟨y, hy, hroute, -, hord, -⟩ := hold x hx
    rw [← hord]; exact h.agrees y hy (hroute ▸ hxq)
  · intro x hx hxq
    obtain ⟨y, hy, hroute, -, -, -⟩ := hold x hx
    rw [← hroute]; exact h.positive y hy (hroute ▸ hxq)
  · intro x hx hxq
    obtain ⟨y, hy, hroute, -, -, hw⟩ := hold x hx
    rw [← hw]; exact h.profiled y hy (hroute ▸ hxq)

/-- **Every effect keeps the balances sound.** -/
theorem Effect.quotaOK (he : Effect P scope now s s') (hk : Keys s) (hc : Coherent s) (h : QuotaOK s) :
    QuotaOK s' := by
  cases he with
  | idle => exact h
  | manifest | insertWorker | updateWorker => exact h.congr rfl rfl rfl
  | createOrder o _ _ _ _ hu => exact h.createOrder hu
  | moveOrder o o' ho hm => exact h.moveOrder hk ho hm
  | insertProfile p hnew hu =>
    refine h.profiles ?_ fun x hx => ⟨x, List.mem_append_left _ hx, rfl⟩
    intro x hx
    rcases List.mem_append.1 hx with hx | hx
    · exact Or.inl hx
    · rw [List.mem_singleton.1 hx]
      refine Or.inr ⟨hu.1, hu.2, fun r hr hid hq => ?_⟩
      obtain ⟨y, hy, hyid⟩ := h.profiled r hr hq
      exact hnew y hy (hyid.trans hid)
  | rewriteProfile p p' hp hid hrev hu hidle =>
    refine h.profiles ?_ fun x hx => exists_mem_put hx
    intro x hx
    rcases of_mem_put hx with rfl | ⟨hx, -⟩
    · exact Or.inr ⟨hu.1, hu.2, hid ▸ hidle⟩
    · exact Or.inl hx
  | claim w o q count pin expiresAt profiles hcl => exact h.claim hk hc hcl
  | heartbeat l r o expiresAt hb => exact h.heartbeat hk hc hb
  | close outcome l r o w profiles hcl => exact h.close hk hc hcl
  | resolve l r o identity selected hr => exact h.resolve hk hr

end Switchboard
