import Switchboard.Proof.Coherence

/-!
# Worker capacity

* `Effect.slotsCounted`: every effect keeps the active run count of a worker equal to
  the number of leases it holds.
* `SlotsCounted.release`: a slot can always be given back for a consumed lease.
* `checkout_slots`: a checkout never takes a worker past its concurrency limit.
* `runCalls_capacity`: the three facts in every reachable database, also between two
  turns of the expiry loop.
-/

namespace Switchboard

open Table Transaction

variable {P : Platform} {scope : Scope} {env : Env} {s s' : Database} {now : Time} {ss ss' : Session Database}

/-- The number of leases that a worker holds. -/
def heldLeases (s : Database) (workerId : String) : ℕ := s.leases.countP fun l => l.workerId == workerId

/-- The count of every worker is the number of its leases, and every lease has its worker. -/
structure SlotsCounted (s : Database) : Prop where
  count : ∀ w ∈ s.workers, w.activeRunCount = heldLeases s w.workerId
  known : ∀ l ∈ s.leases, ∃ w ∈ s.workers, w.workerId = l.workerId

theorem SlotsCounted.init : SlotsCounted Database.init := by
  constructor <;> simp [Database.init]

theorem SlotsCounted.congr (h : SlotsCounted s) (hw : s'.workers = s.workers) (hl : s'.leases = s.leases) :
    SlotsCounted s' := by
  constructor
  · intro w hm; unfold heldLeases; rw [hl]; exact h.count w (hw ▸ hm)
  · intro l hm; rw [hw]; exact h.known l (hl ▸ hm)

theorem SlotsCounted.insertWorker (h : SlotsCounted s) {w : Worker}
    (hnew : ∀ x ∈ s.workers, x.workerId ≠ w.workerId) (hcount : w.activeRunCount = 0) :
    SlotsCounted { s with workers := s.workers ++ [w] } := by
  constructor
  · intro x hx
    rcases List.mem_append.1 hx with hx | hx
    · exact h.count x hx
    · -- nobody holds a lease under an id that was not registered
      rw [List.mem_singleton.1 hx, hcount]
      have hzero : heldLeases s w.workerId = 0 := by
        refine List.countP_eq_zero.2 fun l hl he => ?_
        obtain ⟨y, hy, hid⟩ := h.known l hl
        exact hnew y hy (hid.trans (beq_iff_eq.1 he))
      unfold heldLeases at hzero ⊢
      rw [hzero]; rfl
  · intro l hl
    obtain ⟨x, hx, hid⟩ := h.known l hl
    exact ⟨x, List.mem_append_left _ hx, hid⟩

/-- Leases still find their worker after a keyed write. -/
theorem known_put {workers : List Worker} {w : Worker} {l : Lease} (h : ∃ x ∈ workers, x.workerId = l.workerId) :
    ∃ x ∈ put w workers, x.workerId = l.workerId := by
  obtain ⟨x, hx, hid⟩ := h
  obtain ⟨y, hy, hyid⟩ := exists_mem_put (r := w) hx
  exact ⟨y, hy, Eq.trans hyid hid⟩

theorem SlotsCounted.updateWorker (h : SlotsCounted s) {w w' : Worker} (hw : w ∈ s.workers)
    (hid : w'.workerId = w.workerId) (hcount : w'.activeRunCount = w.activeRunCount) :
    SlotsCounted { s with workers := put w' s.workers } := by
  constructor
  · intro x hx
    rcases of_mem_put hx with rfl | ⟨hx, -⟩
    · rw [hcount, hid]; exact h.count w hw
    · exact h.count x hx
  · intro l hl; exact known_put (h.known l hl)

theorem SlotsCounted.claim (h : SlotsCounted s) {w : Worker} {o : WorkOrder} {q : Service.QuotaClaim}
    {profiles : List RoutingProfile} {expiresAt : Time} {order : OrderRoute} {route : RunRoute}
    (hc : Claiming s w o q profiles) : SlotsCounted (claimedDatabase s now expiresAt w o order route profiles) := by
  have hheld : ∀ id, heldLeases (claimedDatabase s now expiresAt w o order route profiles) id =
      heldLeases s id + if w.workerId = id then 1 else 0 := by
    intro id
    simp only [heldLeases, claimedDatabase, List.countP_append, List.countP_singleton, beq_iff_eq]
  constructor
  · intro x hx
    rw [hheld]
    rcases of_mem_put hx with rfl | ⟨hx, hne⟩
    · have hw := h.count w hc.worker
      simp only [Worker.slotReserved, if_true]
      push_cast; omega
    · rw [if_neg fun he => hne he.symm]; simpa using h.count x hx
  · intro l hl
    rcases List.mem_append.1 hl with hl | hl
    · exact known_put (h.known l hl)
    · rw [List.mem_singleton.1 hl]
      exact known_put ⟨w, hc.worker, rfl⟩

theorem SlotsCounted.heartbeat (h : SlotsCounted s) (hk : Keys s) {l : Lease} {r : ExecutionRun} {o : WorkOrder}
    {expiresAt : Time} (hb : Beating s l r o now) : SlotsCounted (beatenDatabase s now expiresAt l r o) := by
  constructor
  · intro w hw
    have hheld : heldLeases (beatenDatabase s now expiresAt l r o) w.workerId = heldLeases s w.workerId :=
      countP_put (r := l.renewed now expiresAt) hk.leases.unique hb.lease rfl rfl
    rw [hheld]; exact h.count w hw
  · intro x hx
    rcases of_mem_put hx with rfl | ⟨hx, -⟩
    · exact h.known l hb.lease
    · exact h.known x hx

theorem SlotsCounted.close (h : SlotsCounted s) (hk : Keys s) {outcome : Outcome} {l : Lease} {r : ExecutionRun}
    {o : WorkOrder} {w : Worker} {profiles : List RoutingProfile} (hc : Closing P s outcome l r o w profiles) :
    SlotsCounted (closedDatabase s now outcome l r o w profiles) := by
  have hheld : ∀ id, heldLeases (closedDatabase s now outcome l r o w profiles) id +
      (if l.workerId = id then 1 else 0) = heldLeases s id := by
    intro id
    have := countP_remove hk.leases.unique hc.lease fun x => x.workerId == id
    simpa only [heldLeases, closedDatabase, key_lease, beq_iff_eq] using this
  constructor
  · intro x hx
    have hx' := hheld x.workerId
    rcases of_mem_put hx with rfl | ⟨hx, hne⟩
    · have hw := h.count w hc.worker
      have hid : (Worker.slotReleased w).workerId = w.workerId := rfl
      rw [hid] at hx' ⊢
      rw [if_pos hc.workerId.symm] at hx'
      simp only [Worker.slotReleased]
      omega
    · have hne' : l.workerId ≠ x.workerId := fun he => hne (he.symm.trans hc.workerId.symm)
      rw [if_neg hne'] at hx'
      rw [h.count x hx]; omega
  · intro x hx
    exact known_put (h.known x (mem_remove.1 hx).1)

/-- **Every effect keeps the active run count equal to the number of leases.** -/
theorem Effect.slotsCounted (he : Effect P scope now s s') (hk : Keys s) (h : SlotsCounted s) : SlotsCounted s' := by
  cases he with
  | idle => exact h
  | manifest | createOrder | moveOrder | insertProfile | rewriteProfile | resolve => exact h.congr rfl rfl
  | insertWorker w hnew hcount => exact h.insertWorker hnew hcount
  | updateWorker w w' hw hid hcount => exact h.updateWorker hw hid hcount
  | claim w o q count pin expiresAt profiles hc => exact h.claim hc
  | heartbeat l r o expiresAt hb => exact h.heartbeat hk hb
  | close outcome l r o w profiles hc => exact h.close hk hc

theorem SlotsCounted.nonneg (h : SlotsCounted s) {w : Worker} (hw : w ∈ s.workers) : 0 ≤ w.activeRunCount := by
  rw [h.count w hw]; exact Int.natCast_nonneg _

/-- **The guard of `release_worker_capacity` holds for the worker of a consumed lease.** -/
theorem SlotsCounted.release (h : SlotsCounted s) (hk : Keys s) {n : LeaseSnapshot} {now : Time} {g : LeaseGuard}
    (hcons : (Repository.consumeLease n now g s).2 = true) (hw : s'.workers = s.workers) :
    (Repository.releaseWorkerCapacity n.workerId s').2 = true := by
  obtain ⟨l, hl, rfl, -, -⟩ := consumeLease_ok hcons hk.leases.unique
  obtain ⟨w, hwm, hid⟩ := h.known l hl
  have hpos : 0 < heldLeases s w.workerId := List.countP_pos_iff.2 ⟨l, hl, beq_iff_eq.2 hid.symm⟩
  have hcount := h.count w hwm
  have hone : affectedOne (fun x : Worker => x.workerId == l.workerId && decide (x.activeRunCount > 0)) s.workers =
      true := by
    refine affectedOne_of_mem hk.workers hwm ?_ ?_
    · simp only [hid, beq_self_eq_true, Bool.true_and, decide_eq_true_eq, gt_iff_lt]; omega
    · intro x _ hx
      simp only [Bool.and_eq_true, beq_iff_eq] at hx
      exact hx.1.trans hid.symm
  simp only [Repository.releaseWorkerCapacity, updateWorkers, hw]
  exact hone

/-! ## Checkouts -/

/-- No worker's limit changed, and no worker's count rose past it. -/
def SlotsKept (s s' : Database) : Prop :=
  ∀ w' ∈ s'.workers, ∃ w ∈ s.workers, w.workerId = w'.workerId ∧ w.maxConcurrency = w'.maxConcurrency ∧
    (w'.activeRunCount ≤ w.activeRunCount ∨ w'.activeRunCount ≤ w'.maxConcurrency)

theorem SlotsKept.of_same (h : s'.workers = s.workers) : SlotsKept s s' := by
  intro w hw; exact ⟨w, h ▸ hw, rfl, rfl, Or.inl le_rfl⟩

theorem SlotsKept.trans {t : Database} (h : SlotsKept s s') (h' : SlotsKept s' t) : SlotsKept s t := by
  intro w'' hw''
  obtain ⟨w', hw', hid', hmax', hcount'⟩ := h' w'' hw''
  obtain ⟨w, hw, hid, hmax, hcount⟩ := h w' hw'
  refine ⟨w, hw, hid.trans hid', hmax.trans hmax', ?_⟩
  omega

/-- A statement on the workers that keeps limits and raises a count only below its limit. -/
theorem SlotsKept.updateWorkers {p : Worker → Bool} {f : Worker → Worker}
    (h : ∀ w, p w = true → (f w).workerId = w.workerId ∧ (f w).maxConcurrency = w.maxConcurrency ∧
      ((f w).activeRunCount ≤ w.activeRunCount ∨ (f w).activeRunCount ≤ (f w).maxConcurrency)) :
    SlotsKept s (Switchboard.updateWorkers p f s).1 := by
  intro w' hw'
  obtain ⟨w, hw, rfl⟩ := List.mem_map.1 hw'
  refine ⟨w, hw, ?_⟩
  by_cases hp : p w = true
  · rw [if_pos hp]
    obtain ⟨hid, hmax, hcount⟩ := h w hp
    exact ⟨hid.symm, hmax.symm, hcount⟩
  · rw [if_neg hp]; exact ⟨rfl, rfl, Or.inl le_rfl⟩

/-- A transaction whose outcomes keep the slots. -/
abbrev KeepsSlots {α : Type} (x : Tx α) : Prop :=
  Transaction.Within (fun ss ss' : Session Database => SlotsKept ss.db ss'.db) x

theorem keepsSlots_exec {β : Type} {st : Database → Database × β} (h : ∀ s, (st s).1.workers = s.workers) :
    KeepsSlots (exec st) :=
  within_exec fun ss => SlotsKept.of_same (h ss.db)

theorem releaseWorkerCapacity_keeps (workerId : String) (s : Database) :
    SlotsKept s (Repository.releaseWorkerCapacity workerId s).1 := by
  refine SlotsKept.updateWorkers fun w _ => ⟨rfl, rfl, Or.inl ?_⟩
  simp only [Worker.slotReleased]; omega

theorem reserveWorkerCapacity_keeps (workerId : String) (s : Database) :
    SlotsKept s (Repository.reserveWorkerCapacity workerId s).1 := by
  refine SlotsKept.updateWorkers fun w hw => ⟨rfl, rfl, Or.inr ?_⟩
  simp only [Bool.and_eq_true, decide_eq_true_eq] at hw
  simp only [Worker.slotReserved]; omega

section KeepsSlots

variable {α β : Type} {x : Tx α} {f : α → Tx β}

theorem slotsKept_refl (ss : Session Database) : SlotsKept ss.db ss.db := SlotsKept.of_same rfl

theorem keepsSlots_bind (hx : KeepsSlots x) (hf : ∀ a, KeepsSlots (f a)) : KeepsSlots (x >>= f) :=
  within_bind SlotsKept.trans hx hf

theorem keepsSlots_pure (a : α) : KeepsSlots (pure a) := within_pure slotsKept_refl

theorem keepsSlots_read (g : Database → α) : KeepsSlots (read g) := within_read slotsKept_refl g

theorem keepsSlots_query (g : Database → Except ExecutionError α) : KeepsSlots (query g) :=
  within_query slotsKept_refl g

theorem keepsSlots_require (c : Bool) (e : ExecutionError) : KeepsSlots (require c e) :=
  within_require slotsKept_refl c

theorem keepsSlots_requireSome (o : Option α) (e : ExecutionError) : KeepsSlots (requireSome o e) :=
  within_requireSome slotsKept_refl o

end KeepsSlots

theorem keepsSlots_ensureManifest (metadata : ManifestMetadata) (digest : String) :
    KeepsSlots (Repository.ensureManifest metadata digest) := by
  refine keepsSlots_bind (keepsSlots_read _) fun existing => ?_
  cases existing with
  | some m => exact keepsSlots_bind (keepsSlots_require _ _) fun _ => keepsSlots_pure _
  | none =>
    refine keepsSlots_bind (keepsSlots_read _) fun _ => keepsSlots_bind (keepsSlots_require _ _) fun _ => ?_
    exact keepsSlots_exec fun _ => rfl

theorem keepsSlots_ensureManifests (ms : List (ManifestMetadata × String)) :
    KeepsSlots (Repository.ensureManifests ms) := by
  induction ms with
  | nil => exact keepsSlots_pure _
  | cons m ms ih => exact keepsSlots_bind (keepsSlots_ensureManifest _ _) fun _ => ih

theorem keepsSlots_settleReservation (runId workOrderId : ℕ) (q : QuotaReservationState) :
    KeepsSlots (Repository.settleReservation runId workOrderId q) := by
  refine keepsSlots_bind (keepsSlots_exec fun _ => rfl) fun _ => ?_
  exact keepsSlots_bind (keepsSlots_exec fun _ => rfl) fun _ => keepsSlots_pure _

theorem keepsSlots_releaseRunQuotaReservation (runId workOrderId : ℕ) (workerId : String) :
    KeepsSlots (Repository.releaseRunQuotaReservation runId workOrderId workerId) := by
  refine keepsSlots_bind (keepsSlots_read _) fun run => ?_
  cases run with
  | none => exact keepsSlots_pure _
  | some run =>
    cases hq : run.route.quotaState with
    | reserved =>
      simp only [hq]
      split
      · refine keepsSlots_bind (keepsSlots_exec fun _ => rfl) fun refunded => ?_
        cases refunded with
        | true => exact keepsSlots_settleReservation _ _ _
        | false => exact keepsSlots_pure _
      · exact keepsSlots_settleReservation _ _ _
    | notRequired | consumed | released => simp only [hq]; exact keepsSlots_pure _

theorem keepsSlots_settleConsumedLease {n : LeaseSnapshot} {moveRun moveOrder : Statement} {conflict : String}
    (hr : ∀ s, (moveRun s).1.workers = s.workers) (ho : ∀ s, (moveOrder s).1.workers = s.workers) :
    KeepsSlots (Service.settleConsumedLease n moveRun moveOrder conflict) := by
  refine keepsSlots_bind (keepsSlots_releaseRunQuotaReservation _ _ _) fun _ => ?_
  refine keepsSlots_bind (keepsSlots_exec hr) fun _ => keepsSlots_bind (keepsSlots_exec ho) fun _ => ?_
  refine keepsSlots_bind (within_exec fun ss => releaseWorkerCapacity_keeps _ ss.db) fun _ => ?_
  exact keepsSlots_require _ _

theorem keepsSlots_expireLoop (now : Time) (ns : List LeaseSnapshot) : KeepsSlots (Service.expireLoop now ns) := by
  induction ns with
  | nil => exact keepsSlots_pure _
  | cons n ns ih =>
    refine keepsSlots_bind ?_ fun _ => keepsSlots_bind ih fun _ => keepsSlots_pure _
    refine keepsSlots_bind (keepsSlots_exec fun _ => rfl) fun consumed => ?_
    cases consumed with
    | true =>
      refine keepsSlots_bind (keepsSlots_settleConsumedLease (fun _ => rfl) fun _ => rfl) fun _ => ?_
      exact keepsSlots_pure _
    | false => exact keepsSlots_pure _

theorem keepsSlots_mayFail (n : ℕ) (st : ClaimStatement) : KeepsSlots (Service.mayFail env n st) := by
  unfold Service.mayFail
  cases env.fault n st with
  | some f => exact within_raise
  | none => exact keepsSlots_pure _

theorem keepsSlots_claimQuota (n : ℕ) (worker : Worker) (order : WorkOrder) (profile : Option RoutingProfile) :
    KeepsSlots (Service.claimQuota env n worker order profile) := by
  cases profile with
  | none => exact keepsSlots_pure _
  | some profile =>
    refine keepsSlots_bind (keepsSlots_mayFail _ _) fun _ => keepsSlots_bind ?_ fun _ => ?_
    · exact keepsSlots_bind (keepsSlots_exec fun _ => rfl) fun _ => keepsSlots_pure _
    · exact keepsSlots_bind (keepsSlots_requireSome _ _) fun _ => keepsSlots_pure _

/-- After the slot is taken, a claim leaves the workers alone. -/
theorem keepsSlots_claimBlock {n : ℕ} {worker : Worker} {order : WorkOrder} {profile : Option RoutingProfile}
    {count : ℕ} {pin : Bool} {now : Time} :
    KeepsSlots (Service.claimBlock env n worker order profile count pin now) := by
  refine keepsSlots_bind (keepsSlots_mayFail _ _) fun _ => ?_
  refine keepsSlots_bind (within_exec fun ss => reserveWorkerCapacity_keeps _ ss.db) fun _ => ?_
  refine keepsSlots_bind (keepsSlots_require _ _) fun _ => keepsSlots_bind (keepsSlots_claimQuota _ _ _ _) fun _ => ?_
  refine keepsSlots_bind (keepsSlots_mayFail _ _) fun _ => keepsSlots_bind (keepsSlots_exec fun _ => rfl) fun _ => ?_
  refine keepsSlots_bind (keepsSlots_require _ _) fun _ => keepsSlots_bind (keepsSlots_query _) fun _ => ?_
  refine keepsSlots_bind (keepsSlots_mayFail _ _) fun _ => keepsSlots_bind ?_ fun _ => ?_
  · refine keepsSlots_bind (keepsSlots_read _) fun _ => keepsSlots_bind (keepsSlots_require _ _) fun _ => ?_
    exact keepsSlots_exec fun _ => rfl
  · refine keepsSlots_bind (keepsSlots_mayFail _ _) fun _ => keepsSlots_bind ?_ fun _ => keepsSlots_pure _
    refine keepsSlots_bind (keepsSlots_read _) fun _ => keepsSlots_bind (keepsSlots_require _ _) fun _ => ?_
    exact keepsSlots_exec fun _ => rfl

theorem keepsSlots_checkoutLoop (worker : Worker) (candidates : List (WorkOrder × CommandManifest)) :
    ∀ n mismatch route, KeepsSlots (Service.checkoutLoop P env worker n mismatch route candidates) := by
  induction candidates with
  | nil => intro n mismatch route; exact keepsSlots_pure _
  | cons c candidates ih =>
    intro n mismatch route
    refine keepsSlots_bind (keepsSlots_read _) fun _ => keepsSlots_bind (keepsSlots_requireSome _ _) fun _ => ?_
    refine keepsSlots_bind (keepsSlots_query _) fun decision => ?_
    cases decision with
    | skip reason => exact ih _ _ _
    | claim profile count =>
      refine keepsSlots_bind (within_attempt slotsKept_refl keepsSlots_claimBlock) fun result => ?_
      split
      · exact ih _ _ _
      · exact keepsSlots_pure _

/-- **A checkout takes no worker past its concurrency limit.** -/
theorem keepsSlots_checkout (workerId : String) : KeepsSlots (Service.checkout P env workerId) := by
  refine keepsSlots_bind (keepsSlots_ensureManifests _) fun _ => ?_
  refine keepsSlots_bind (keepsSlots_bind (keepsSlots_read _) fun _ => keepsSlots_expireLoop _ _) fun _ => ?_
  refine keepsSlots_bind (keepsSlots_read _) fun _ => keepsSlots_bind (keepsSlots_require _ _) fun _ => ?_
  refine keepsSlots_bind (within_exec fun ss => ?_) fun _ => ?_
  · exact SlotsKept.updateWorkers fun w _ => ⟨rfl, rfl, Or.inl le_rfl⟩
  refine keepsSlots_bind (keepsSlots_require _ _) fun _ => keepsSlots_bind (keepsSlots_read _) fun _ => ?_
  refine keepsSlots_bind (keepsSlots_requireSome _ _) fun worker => ?_
  cases hu : Service.unavailableWorkerResult worker with
  | some result => exact keepsSlots_pure _
  | none => exact keepsSlots_bind (keepsSlots_read _) fun _ => keepsSlots_checkoutLoop _ _ _ _ _

/-! ## The claiming worker -/

/-- The claiming worker ends within its limit. -/
theorem claimBlock_within {n : ℕ} {worker : Worker} {order : WorkOrder} {profile : Option RoutingProfile}
    {count : ℕ} {pin : Bool} {now : Time} {result : CheckoutResult} (hk : Keys ss.db)
    (horder : order ∈ ss.db.orders)
    (h : Service.claimBlock env n worker order profile count pin now ss = .ok (result, ss')) :
    ∀ w ∈ ss'.db.workers, w.workerId = worker.workerId → w.activeRunCount ≤ w.maxConcurrency := by
  obtain ⟨w, q, profiles, hid, hc, hdb, -, -⟩ := claimBlock_ok hk horder h
  intro x hx hxid
  rw [hdb] at hx
  rcases of_mem_put hx with rfl | ⟨-, hne⟩
  · have hfree := hc.free
    simp only [Worker.slotReserved]; omega
  · exact absurd (hxid.trans hid.symm) hne

theorem checkoutLoop_within {worker : Worker} {candidates : List (WorkOrder × CommandManifest)} {n : ℕ}
    {mismatch route : List String} {result : CheckoutResult} (hk : Keys ss.db)
    (hc : ∀ c ∈ candidates, c.1 ∈ ss.db.orders)
    (h : Service.checkoutLoop P env worker n mismatch route candidates ss = .ok (result, ss'))
    (hassigned : result.runId.isSome = true) :
    ∀ w ∈ ss'.db.workers, w.workerId = worker.workerId → w.activeRunCount ≤ w.maxConcurrency := by
  induction candidates generalizing n mismatch route with
  | nil =>
    simp only [Service.checkoutLoop, pure_ok] at h
    obtain ⟨rfl, -⟩ := h
    simp only [Service.unassigned] at hassigned
    split at hassigned
    · cases hassigned
    · split at hassigned <;> cases hassigned
  | cons c candidates ih =>
    obtain ⟨order, manifest⟩ := c
    have hc' : ∀ c ∈ candidates, c.1 ∈ ss.db.orders := fun c hm => hc c (List.mem_cons_of_mem _ hm)
    simp only [Service.checkoutLoop, bind_ok, read_ok, requireSome_ok, query_ok] at h
    obtain ⟨_, _, ⟨rfl, rfl⟩, _, _, ⟨-, rfl⟩, decision, _, ⟨-, rfl⟩, h⟩ := h
    cases decision with
    | skip reason => exact ih hc' h
    | claim profile count =>
      simp only [bind_ok] at h
      obtain ⟨res, s₁, hclaim, h⟩ := h
      rcases attempt_ok.1 hclaim with hclaim | ⟨e, -, hfail, rfl⟩
      · obtain ⟨-, hreason⟩ : Block P .claiming (env.clock (n + 2)) ss s₁ ∧ res.reason = none :=
          claimBlock_block hk (hc _ List.mem_cons_self) rfl hclaim
        rw [if_neg (by rw [hreason]; simp)] at h
        obtain ⟨-, rfl⟩ := pure_ok.1 h
        exact claimBlock_within hk (hc _ List.mem_cons_self) hclaim
      · split at h
        · exact ih hc' h
        · obtain ⟨rfl, rfl⟩ := pure_ok.1 h
          -- a failed claim reports no run
          have hnone : res.runId = none := by
            unfold Service.claimFailure at hfail
            split at hfail <;> simp only [Option.some.injEq, reduceCtorEq] at hfail
            · rw [← hfail]
            · rw [← hfail]
          rw [hnone] at hassigned; cases hassigned

theorem checkout_within {workerId : String} {result : CheckoutResult} (hk : Keys ss.db)
    (h : Service.checkout P env workerId ss = .ok (result, ss')) (hassigned : result.runId.isSome = true) :
    ∀ w ∈ ss'.db.workers, w.workerId = workerId → w.activeRunCount ≤ w.maxConcurrency := by
  unfold Service.checkout at h
  simp only [bind_ok, read_ok, require_ok, exec_ok, requireSome_ok] at h
  obtain ⟨_, s₁, hsync, _, s₂, hexp, _, _, ⟨-, rfl⟩, _, _, ⟨-, rfl⟩, _, _, ⟨rfl, rfl⟩, _, _, ⟨hpoll, rfl⟩, _, _,
    ⟨rfl, rfl⟩, worker, _, ⟨hworker, rfl⟩, h⟩ := h
  have h₁ : Runs P .lifecycle env 0 0 ss s₁ := syncTrustedManifests_runs hk hsync
  have h₂ : Runs P .lifecycle env 0 0 s₁ s₂ := expireStaleLeases_runs (h₁.keys hk) hexp
  have hk₂ := h₂.keys (h₁.keys hk)
  have h₃ : Block P .lifecycle (env.clock 1) s₂ (s₂.push (Repository.recordCheckoutPoll workerId (env.clock 1) s₂.db).1) :=
    updateWorkers_block hpoll hk₂ (fun _ => rfl) fun _ => rfl
  have hk₃ := h₃.effect.keys hk₂
  obtain ⟨-, rfl⟩ := getWorker_some hworker
  cases hu : Service.unavailableWorkerResult worker with
  | some result' =>
    simp only [hu, pure_ok] at h
    obtain ⟨rfl, rfl⟩ := h
    unfold Service.unavailableWorkerResult at hu
    split at hu <;> simp only [Option.some.injEq, reduceCtorEq] at hu <;> rw [← hu] at hassigned <;> cases hassigned
  | none =>
    simp only [hu, bind_ok, read_ok] at h
    obtain ⟨_, _, ⟨rfl, rfl⟩, h⟩ := h
    exact checkoutLoop_within hk₃ (fun c hc => listQueuedWorkOrders_mem hc) h hassigned

/-! ## Every reachable database -/

/-- The count of a worker is the number of its leases, so it is not negative and a consumed lease
always gives its slot back. -/
structure CapacityConserved (s : Database) : Prop where
  count : ∀ w ∈ s.workers, w.activeRunCount = heldLeases s w.workerId
  nonneg : ∀ w ∈ s.workers, 0 ≤ w.activeRunCount
  release : ∀ n now g s', (Repository.consumeLease n now g s).2 = true → s'.workers = s.workers →
    (Repository.releaseWorkerCapacity n.workerId s').2 = true

theorem SlotsCounted.conserved (h : SlotsCounted s) (hk : Keys s) : CapacityConserved s :=
  ⟨h.count, fun _ hw => h.nonneg hw, fun _ _ _ _ hc hw => h.release hk hc hw⟩

theorem runCalls_slotsCounted (P : Platform) (calls : List Call) : SlotsCounted (runCalls P calls).db :=
  runCalls_invariant SlotsCounted.init (fun he hk h => he.slotsCounted hk h) calls

/-- **Worker capacity is conserved in every reachable database**, also between two turns of the expiry
loop of any operation. A checkout changes no limit and takes no worker past its limit; one that
assigns a run leaves its worker within the limit. -/
theorem runCalls_capacity (P : Platform) (calls : List Call) :
    CapacityConserved (runCalls P calls).db ∧
    (∀ now ns result ss', Service.expireLoop now ns (runCalls P calls) = .ok (result, ss') →
      CapacityConserved ss'.db) ∧
    (∀ env workerId result ss', Service.checkout P env workerId (runCalls P calls) = .ok (result, ss') →
      SlotsKept (runCalls P calls).db ss'.db ∧
      (result.runId.isSome = true → ∀ w ∈ ss'.db.workers, w.workerId = workerId →
        w.activeRunCount ≤ w.maxConcurrency)) := by
  have hk := runCalls_keys P calls
  have hs := runCalls_slotsCounted P calls
  refine ⟨hs.conserved hk, ?_, ?_⟩
  · intro now ns result ss' h
    obtain ⟨_, -, -, hsteps⟩ : Runs P .lifecycle ⟨fun _ => now, 0, 0, 0, fun _ _ => none⟩ 0 0 (runCalls P calls) ss' :=
      expireLoop_runs hk h
    have hboth : Keys ss'.db ∧ SlotsCounted ss'.db :=
      hsteps.invariant (I := fun s => Keys s ∧ SlotsCounted s)
        (fun he hi => ⟨he.keys hi.1, he.slotsCounted hi.1 hi.2⟩) ⟨hk, hs⟩
    exact hboth.2.conserved hboth.1
  · intro env workerId result ss' h
    exact ⟨keepsSlots_checkout workerId _ _ _ h, checkout_within hk h⟩

end Switchboard
