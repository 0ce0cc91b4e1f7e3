import Switchboard.Proof.Concurrent

/-!
# Exclusive consumption of a lease

* `commit_cases`: what one commit does to one lease.
* `runLeaseCalls_exclusive`: in every interleaving, from every reachable database, at most
  one call consumes a lease, and nothing but that call ends its run.
* `sampleRace_losers`: what a losing call may still do.
-/

namespace Switchboard

open Table Transaction

variable {P : Platform} {s s₁ s₂ s' : Database} {now : Time} {l : Lease}

/-! ## One lease -/

/-- The lease of that id, of that run and of that order is `l`, perhaps renewed. -/
def Known (l : Lease) (s : Database) : Prop :=
  ∀ x ∈ s.leases, x.id = l.id ∨ x.executionRunId = l.executionRunId ∨ x.workOrderId = l.workOrderId →
    x.snapshot = l.snapshot

theorem known_of_mem (hk : Keys s) (hl : l ∈ s.leases) : Known l s := by
  rintro x hx (h | h | h)
  · rw [hk.leases.unique.eq_of_key hx hl h]
  · rw [hk.lease_of_run hx hl h]
  · rw [hk.lease_of_order hx hl h]

theorem Known.rely (h : Known l s) (hR : Rely s s') : Known l s' := by
  intro x hx hid
  obtain ⟨y, hy, he⟩ := hR.leases x hx
  rw [← he]
  refine h y hy ?_
  simp only [Lease.snapshot, LeaseSnapshot.mk.injEq] at he
  rw [he.1, he.2.1, he.2.2.1]
  exact hid

/-- A lease with another id is of another run and another order. -/
theorem Known.other (h : Known l s) {x : Lease} (hx : x ∈ s.leases) (hne : x.id ≠ l.id) :
    x.executionRunId ≠ l.executionRunId ∧ x.workOrderId ≠ l.workOrderId := by
  constructor
  · exact fun he => hne (congrArg LeaseSnapshot.id (h x hx (Or.inr (Or.inl he))))
  · exact fun he => hne (congrArg LeaseSnapshot.id (h x hx (Or.inr (Or.inr he))))

theorem Rely.not_held (h : Rely s s') (hn : ¬ l.Held s) : ¬ l.Held s' := by
  rintro ⟨x, hx, hid⟩
  obtain ⟨y, hy, he⟩ := h.leases x hx
  exact hn ⟨y, hy, (congrArg LeaseSnapshot.id he).trans hid⟩

theorem LeaseKept.refl (s : Database) : LeaseKept l s s := ⟨.refl _, .refl _, .refl _⟩

theorem LeaseKept.trans (h : LeaseKept l s s₁) (h' : LeaseKept l s₁ s') : LeaseKept l s s' :=
  ⟨h.lease.trans h'.lease, h.run.trans h'.run, h.order.trans h'.order⟩

theorem LeaseKept.held (h : LeaseKept l s s') : l.Held s' ↔ l.Held s := by
  constructor
  · rintro ⟨x, hx, hid⟩; exact ⟨x, (h.lease x hid).1 hx, hid⟩
  · rintro ⟨x, hx, hid⟩; exact ⟨x, (h.lease x hid).2 hx, hid⟩

theorem LeaseKept.closed (h : LeaseKept l s s₁) (h' : LeaseClosed l s₁ s') : LeaseClosed l s s' := by
  obtain ⟨r, hr, hrid, hrun⟩ := h'.run
  obtain ⟨o, ho, hoid, horder⟩ := h'.order
  exact
    { held := h.held.1 h'.held, consumed := h'.consumed
      run := ⟨r, (h.run r hrid).1 hr, hrid, hrun⟩, order := ⟨o, (h.order o hoid).1 ho, hoid, horder⟩ }

theorem LeaseClosed.kept (h : LeaseClosed l s s₁) (h' : LeaseKept l s₁ s') : LeaseClosed l s s' := by
  obtain ⟨r, hr, hrid, hact, r', hr', hrid', hterm⟩ := h.run
  obtain ⟨o, ho, hoid, hoact, o', ho', hoid', hidle⟩ := h.order
  exact
    { held := h.held, consumed := fun hh => h.consumed (h'.held.1 hh)
      run := ⟨r, hr, hrid, hact, r', (h'.run r' hrid').2 hr', hrid', hterm⟩
      order := ⟨o, ho, hoid, hoact, o', (h'.order o' hoid').2 ho', hoid', hidle⟩ }

section Closing

variable {outcome : Outcome} {x : Lease} {r : ExecutionRun} {o : WorkOrder} {w : Worker}
  {profiles : List RoutingProfile}

/-- Closing the lease itself. -/
theorem Closing.closed (h : Closing P s outcome x r o w profiles) (hx : x.snapshot = l.snapshot) :
    LeaseClosed l s (closedDatabase s now outcome x r o w profiles) := by
  simp only [Lease.snapshot, LeaseSnapshot.mk.injEq] at hx
  obtain ⟨hid, horder, hrun, -⟩ := hx
  have hrid : (outcome.run now (settledRun .released r)).id = r.id := by rw [outcome_run_id, settledRun_id]
  have hoid : (outcome.order now (settledOrder .released r o)).id = o.id := by
    rw [outcome_order_id, settledOrder_id]
  refine { held := ⟨x, h.lease, hid⟩, consumed := ?_, run := ?_, order := ?_ }
  · rintro ⟨y, hy, hyid⟩
    exact (mem_remove.1 hy).2 (hyid.trans hid.symm)
  · exact ⟨r, h.run, h.runId.trans hrun, h.runActive, _, mem_put_self h.run hrid.symm,
      hrid.trans (h.runId.trans hrun), h.run_terminal _⟩
  · exact ⟨o, h.order, h.orderId.trans horder, h.orderActive, _, mem_put_self h.order hoid.symm,
      hoid.trans (h.orderId.trans horder), h.order_inactive _⟩

/-- Closing another lease. -/
theorem Closing.kept (h : Closing P s outcome x r o w profiles) (hl : Known l s) (hx : x.id ≠ l.id) :
    LeaseKept l s (closedDatabase s now outcome x r o w profiles) := by
  obtain ⟨hrun, horder⟩ := hl.other h.lease hx
  refine ⟨SameRow.remove hx _, SameRow.put ?_ _, SameRow.put ?_ _⟩
  · show (outcome.run now (settledRun .released r)).id ≠ l.executionRunId
    rw [outcome_run_id, settledRun_id, h.runId]; exact hrun
  · show (outcome.order now (settledOrder .released r o)).id ≠ l.workOrderId
    rw [outcome_order_id, settledOrder_id, h.orderId]; exact horder

theorem Closing.closed_or_kept (h : Closing P s outcome x r o w profiles) (hl : Known l s) (now : Time) :
    (x.snapshot = l.snapshot ∧ LeaseClosed l s (closedDatabase s now outcome x r o w profiles)) ∨
      (x.id ≠ l.id ∧ LeaseKept l s (closedDatabase s now outcome x r o w profiles)) := by
  by_cases hid : x.id = l.id
  · have hx := hl x h.lease (Or.inl hid)
    exact Or.inl ⟨hx, h.closed hx⟩
  · exact Or.inr ⟨hid, h.kept hl hid⟩

end Closing

/-- **The leases that one expiry closes are all past their deadline**; `l` is one of them, or it is left
alone. -/
theorem Expiries.closed_or_kept (h : Expiries P now s s') (hs : Stable s) (hl : Known l s) :
    (LeaseClosed l s s' ∧ ∀ x ∈ s.leases, x.id = l.id → x.expiresAt < now) ∨ LeaseKept l s s' := by
  induction h with
  | nil s => exact Or.inr (.refl s)
  | @cons s s' x r o w profiles hcl hstale rest ih =>
    have hs₁ : Stable (closedDatabase s now .expire x r o w profiles) := hs.effect (Effect.close _ _ _ _ _ _ hcl)
    have hl₁ : Known l (closedDatabase s now .expire x r o w profiles) := hl.rely (hcl.rely hs)
    rcases hcl.closed_or_kept hl now with ⟨hx, hclosed⟩ | ⟨hx, hkept⟩
    · -- the rest of the loop finds no lease of that id
      rcases ih hs₁ hl₁ with ⟨hclosed', -⟩ | hkept'
      · exact absurd hclosed'.held hclosed.consumed
      · refine Or.inl ⟨hclosed.kept hkept', fun y hy hid => ?_⟩
        have hxid : x.id = l.id := congrArg LeaseSnapshot.id hx
        rw [hs.keys.leases.unique.eq_of_key hy hcl.lease (hid.trans hxid.symm)]
        exact hstale
    · rcases ih hs₁ hl₁ with ⟨hclosed', hlate⟩ | hkept'
      · refine Or.inl ⟨hkept.closed hclosed', fun y hy hid => ?_⟩
        exact hlate y ((hkept.lease y hid).2 hy) hid
      · exact Or.inr (hkept.trans hkept')

/-- An expiry that left all leases closed none. -/
theorem Expiries.idle (h : Expiries P now s s') (hs : Stable s) (hleases : s'.leases = s.leases) : s' = s := by
  cases h with
  | nil => rfl
  | @cons _ _ x r o w profiles hcl hstale rest =>
    obtain ⟨-, hR⟩ := rest.sound (hs.effect (Effect.close _ _ _ _ _ _ hcl))
    have hx : x ∈ s'.leases := hleases ▸ hcl.lease
    obtain ⟨y, hy, he⟩ := hR.leases x hx
    exact absurd (congrArg LeaseSnapshot.id he) (mem_remove.1 hy).2

/-! ## One commit -/

section Commit

variable {ι : Type} {calls : ι → LeaseCall} {leaseSeconds : ι → ℤ} {c : Commit ι Database Time Unit}

theorem Beating.kept {x : Lease} {r : ExecutionRun} {o : WorkOrder} {expiresAt : Time} (h : Beating s x r o now)
    (hl : Known l s) (hx : x.id ≠ l.id) : LeaseKept l s (beatenDatabase s now expiresAt x r o) := by
  obtain ⟨hrun, horder⟩ := hl.other h.lease hx
  refine ⟨SameRow.put hx _, SameRow.put ?_ _, SameRow.put ?_ _⟩
  · show (settledRun .consumed r).id ≠ l.executionRunId
    rw [settledRun_id, h.runId]; exact hrun
  · show (settledOrder .consumed r o).id ≠ l.workOrderId
    rw [settledOrder_id, h.orderId]; exact horder

/-- A heartbeat renews the lease of its run; every other lease is left alone. -/
theorem renews_or_leaves (leaseSeconds : ι → ℤ) {x : Lease} {r : ExecutionRun} {o : WorkOrder} (hnow : now ≤ c.time)
    (h : Beating c.before x r o now) (hl : Known l c.before)
    (hcall : calls c.index = .heartbeatRun x.executionRunId x.workerId)
    (hafter : c.after = beatenDatabase c.before now (now + seconds (leaseSeconds c.index)) x r o) :
    Renews calls leaseSeconds l c ∨ Leaves calls l c := by
  by_cases hid : x.id = l.id
  · have hx := hl x h.lease (Or.inl hid)
    simp only [Lease.snapshot, LeaseSnapshot.mk.injEq] at hx
    obtain ⟨-, horder, hrun, hworker⟩ := hx
    have hrid : ((settledRun .consumed r).started now (now + seconds (leaseSeconds c.index))).id = r.id :=
      settledRun_id .consumed r
    have hoid : ((settledOrder .consumed r o).started now).id = o.id := settledOrder_id .consumed r o
    left
    refine
      { call := by rw [hcall, hrun, hworker]
        lease := ⟨x, h.lease, hid, now, hnow, h.live, ?_⟩
        run := ⟨r, h.run, h.runId.trans hrun, h.runActive, _, ?_, hrid.trans (h.runId.trans hrun), ?_⟩
        order := ⟨o, h.order, h.orderId.trans horder, h.orderActive, _, ?_, hoid.trans (h.orderId.trans horder), ?_⟩ }
    · rw [hafter]; exact mem_put_self h.lease rfl
    · rw [hafter]; exact mem_put_self h.run hrid.symm
    · rw [settledRun_started_status]; exact started_active h.runActive
    · rw [hafter]; exact mem_put_self h.order hoid.symm
    · rw [settledOrder_started_status]; exact started_orderActive h.orderActive
  · right
    obtain ⟨hrun, -⟩ := hl.other h.lease hid
    refine ⟨fun workerId completion reason => ?_, hafter ▸ h.kept hl hid⟩
    simp [hcall, hrun]

/-- **What one commit does to one lease.** -/
theorem commit_cases (hs : Stable c.before) (hl : Known l c.before)
    (h : LeaseEffect P (leaseSeconds c.index) c.time c.before (calls c.index) c.after) :
    Closes calls l c ∨ Renews calls leaseSeconds l c ∨ Leaves calls l c ∨ Withdraws calls l c := by
  generalize hcall : calls c.index = call at h
  generalize hafter : c.after = s' at h
  cases h with
  | heartbeat hnow hb =>
    rcases renews_or_leaves leaseSeconds hnow hb hl hcall hafter with h | h
    · exact Or.inr (Or.inl h)
    · exact Or.inr (Or.inr (Or.inl h))
  | @complete completion reuse x r o w profiles now hcl hlive =>
    rcases hcl.closed_or_kept hl now with ⟨hx, hclosed⟩ | ⟨hx, hkept⟩
    · simp only [Lease.snapshot, LeaseSnapshot.mk.injEq] at hx
      refine Or.inl ⟨Or.inl ⟨completion, ?_⟩, hafter ▸ hclosed⟩
      rw [hcall, hx.2.2.1, hx.2.2.2]
    · refine Or.inr (Or.inr (Or.inl ⟨fun workerId completion' reason => ?_, hafter ▸ hkept⟩))
      simp [hcall, (hl.other hcl.lease hx).1]
  | @cancel reason completion reuse x r o w profiles now hcl =>
    rcases hcl.closed_or_kept hl now with ⟨hx, hclosed⟩ | ⟨hx, hkept⟩
    · simp only [Lease.snapshot, LeaseSnapshot.mk.injEq] at hx
      refine Or.inl ⟨Or.inr (Or.inl ⟨reason, ?_⟩), hafter ▸ hclosed⟩
      rw [hcall, hx.2.1]
    · refine Or.inr (Or.inr (Or.inl ⟨fun workerId completion' reason' => ?_, hafter ▸ hkept⟩))
      simp [hcall, (hl.other hcl.lease hx).2]
  | @withdraw reason o o' ho hm hcancelled =>
    by_cases hid : o.id = l.workOrderId
    · -- an order that holds a lease is active
      have hgone : ¬ l.Held c.before := by
        rintro ⟨x, hx, hxid⟩
        have hx' := hl x hx (Or.inl hxid)
        simp only [Lease.snapshot, LeaseSnapshot.mk.injEq] at hx'
        obtain ⟨r₁, o₁, hb⟩ := hs.coherent.lease x hx
        obtain rfl : o₁ = o := hs.keys.orders.unique.eq_of_key hb.order ho (hb.orderId.trans (hx'.2.1.trans hid.symm))
        have hact : o₁.status.isActive = true := by
          rw [hb.status, ExecutionRunStatus.toWorkOrder_isActive]; exact hb.active
        rw [hm.unleased] at hact; cases hact
      refine Or.inr (Or.inr (Or.inr ?_))
      exact
        { call := ⟨reason, by rw [hcall, hid]⟩, gone := hgone
          leases := by rw [hafter], runs := by rw [hafter], workers := by rw [hafter], profiles := by rw [hafter]
          order := ⟨o, ho, hid, hm.unleased, hm.not_terminal, o', by rw [hafter]; exact mem_put_self ho hm.id.symm,
            hm.id.trans hid, hcancelled⟩ }
    · refine Or.inr (Or.inr (Or.inl ⟨fun workerId completion reason' => ?_, ?_⟩))
      · simp [hcall, hid]
      · rw [hafter]
        refine ⟨.refl _, .refl _, SameRow.put ?_ _⟩
        show o'.id ≠ l.workOrderId
        rw [hm.id]; exact hid
  | @expire _ now hnow hex =>
    rcases hex.closed_or_kept hs hl with ⟨hclosed, hlate⟩ | hkept
    · refine Or.inl ⟨Or.inr (Or.inr ⟨hcall, fun x hx hid => ?_⟩), hafter ▸ hclosed⟩
      exact lt_of_lt_of_le (hlate x hx hid) hnow
    · refine Or.inr (Or.inr (Or.inl ⟨fun workerId completion reason => ?_, hafter ▸ hkept⟩))
      simp [hcall]

/-- Until the next heartbeat the row of the lease is the one that the last one left, or gone. -/
theorem row_kept_or_gone {s₀ s : Database} {log : List (Commit ι Database Time Unit)} (h : Machine.History s₀ log s)
    (hrely : ∀ c ∈ log, Rely c.before c.after)
    (hlog : ∀ c ∈ log, Closes calls l c ∨ Leaves calls l c ∨ Withdraws calls l c) {x : Lease} (hx : x ∈ s₀.leases)
    (hid : x.id = l.id) : x ∈ s.leases ∨ ¬ l.Held s := by
  induction log generalizing s with
  | nil => exact Or.inl (Eq.symm h ▸ hx)
  | cons c log ih =>
    obtain ⟨rfl, h⟩ := h
    have hbefore := ih h (fun d hd => hrely d (List.mem_cons_of_mem _ hd)) fun d hd => hlog d (List.mem_cons_of_mem _ hd)
    rcases hbefore with hmem | hgone
    · rcases hlog c List.mem_cons_self with hc | hc | hc
      · exact Or.inr hc.closed.consumed
      · exact Or.inl ((hc.kept.lease x hid).2 hmem)
      · exact Or.inl (hc.leases ▸ hmem)
    · exact Or.inr ((hrely c List.mem_cons_self).not_held hgone)

end Commit

/-! ## Every interleaving -/

section Run

variable {ι : Type} [DecidableEq ι] {calls : ι → LeaseCall} {leaseSeconds : ι → ℤ} {s₀ : Database} {m : LeaseMachine ι}

/-- The guarantees of the calls, along one interleaving. -/
abbrev LeaseSound (P : Platform) (leaseSeconds : ι → ℤ) (calls : ι → LeaseCall) (s₀ : Database) (m : LeaseMachine ι) :
    Prop :=
  m.Sound Stable Rely (fun i T s _ s' => LeaseEffect P (leaseSeconds i) T s (calls i) s') s₀

theorem runLeaseCalls_sound {ss : Session Database} (hs : Stable ss.db) (now : Time) (turns : List (Turn ι Time)) :
    LeaseSound P leaseSeconds calls ss.db (runLeaseCalls P leaseSeconds calls ss now turns) := by
  have hstart := Machine.Sound.start (ι := ι) (G := fun i T s _ s' => LeaseEffect P (leaseSeconds i) T s (calls i) s')
    hs fun i => (calls i).program_ensures (P := P) (leaseSeconds i) now ss.db
  exact hstart.run (fun _ hx => Rely.refl hx) (fun h h' => h.trans h') (fun hs h => h.sound hs) turns

omit [DecidableEq ι] in
/-- What one commit does to a lease of the first database. -/
theorem LeaseSound.commit (h : LeaseSound P leaseSeconds calls s₀ m) (hs₀ : Stable s₀) (hl : l ∈ s₀.leases) :
    (∀ c ∈ m.log, Rely c.before c.after ∧
      (Closes calls l c ∨ Renews calls leaseSeconds l c ∨ Leaves calls l c ∨ Withdraws calls l c)) ∧
    m.log.Pairwise fun later earlier => Rely earlier.after later.before := by
  have hstep : ∀ c ∈ m.log, Stable c.after ∧ Rely c.before c.after :=
    fun c hc => (h.commits c hc).2.sound (h.commits c hc).1
  obtain ⟨-, hall, hpair⟩ := h.history.related (fun _ hx => Rely.refl hx) (fun h h' => h.trans h') hs₀ hstep
  refine ⟨fun c hc => ⟨(hstep c hc).2, ?_⟩, hpair⟩
  obtain ⟨hs, heff⟩ := h.commits c hc
  exact commit_cases hs ((known_of_mem hs₀.keys hl).rely (hall c hc).1) heff

omit [DecidableEq ι] in
theorem LeaseSound.exclusive (h : LeaseSound P leaseSeconds calls s₀ m) (hs₀ : Stable s₀) (hl : l ∈ s₀.leases) :
    ExclusiveConsumption calls leaseSeconds l s₀ m := by
  obtain ⟨hcommit, hpair⟩ := h.commit hs₀ hl
  refine
    { commits := fun c hc => (hcommit c hc).2
      exclusive := ?_, deadline := ?_
      returned := fun i => ?_
      once := h.once, committed := h.history
      idle := fun c hc hcall hleases => ?_ }
  · -- once the row is gone, neither a consumption nor a renewal finds it
    refine hpair.imp_of_mem fun {later earlier} hlater _ hR hclosed => ?_
    have hgone : ¬ l.Held later.before := hR.not_held hclosed.closed.consumed
    rcases (hcommit later hlater).2 with hc | hc | hc | hc
    · exact absurd hc.closed.held hgone
    · obtain ⟨x, hx, hid, -⟩ := hc.lease
      exact absurd ⟨x, hx, hid⟩ hgone
    · exact Or.inl hc
    · exact Or.inr hc
  · intro newer e between b older hlog hexpire hclosed hrenews hquiet x hx hid
    have hmem : ∀ c ∈ between, c ∈ m.log := by intro c hc; simp [hlog, hc]
    have hhist := h.history
    rw [hlog] at hhist
    obtain ⟨-, -, hbefore⟩ := hhist.between
    have hno : ∀ c ∈ between, Closes calls l c ∨ Leaves calls l c ∨ Withdraws calls l c := by
      intro c hc
      rcases (hcommit c (hmem c hc)).2 with hcase | hcase | hcase | hcase
      · exact Or.inl hcase
      · exact absurd hcase (hquiet c hc)
      · exact Or.inr (Or.inl hcase)
      · exact Or.inr (Or.inr hcase)
    have hkept := row_kept_or_gone hbefore.between.1 (fun c hc => (hcommit c (hmem c hc)).1) hno hx hid
    have hxe : x ∈ e.before.leases := hkept.resolve_right fun hgone => hgone hclosed.closed.held
    rcases hclosed.call with ⟨_, he⟩ | ⟨_, he⟩ | ⟨-, hlate⟩
    · rw [hexpire] at he; cases he
    · rw [hexpire] at he; cases he
    · exact hlate x hxe hid
  · rw [h.ended i ()]
    constructor
    · rintro ⟨c, hc, hi, -⟩; exact ⟨c, hc, hi⟩
    · rintro ⟨c, hc, hi⟩; exact ⟨c, hc, hi, rfl⟩
  · obtain ⟨hs, heff⟩ := h.commits c hc
    simp only [hcall] at heff
    cases heff with
    | expire hnow hex => exact hex.idle hs hleases

/-- **Exclusive lease consumption.** From every database that the service can reach, whatever calls
are interleaved in whatever way, at most one of them consumes a lease, and that call ends its run. -/
theorem runLeaseCalls_exclusive (P : Platform) (history : List Call) (leaseSeconds : ι → ℤ) (calls : ι → LeaseCall)
    (now : Time) (turns : List (Turn ι Time)) (l : Lease) (hl : l ∈ (runCalls P history).db.leases) :
    ExclusiveConsumption calls leaseSeconds l (runCalls P history).db
      (runLeaseCalls P leaseSeconds calls (runCalls P history) now turns) := by
  have hs : Stable (runCalls P history).db := ⟨runCalls_keys P history, runCalls_coherent P history⟩
  exact (runLeaseCalls_sound hs now turns).exclusive hs hl

end Run

/-! ## Races for the lease of one run -/

/-- Worker `w` holds the lease of run 1 until 60 s after time 3. -/
def sampleLeased : List Call := sampleCalls.take 4

def sampleLease : Lease := ⟨1, 1, 1, "w", 60000003, 3⟩

def sampleRace (calls : Fin 3 → LeaseCall) (turns : List (Turn (Fin 3) Time)) : LeaseMachine (Fin 3) :=
  runLeaseCalls samplePlatform (fun _ => 60) calls (runCalls samplePlatform sampleLeased) 3 turns

def stepsOf (i : Fin 3) (n : ℕ) : List (Turn (Fin 3) Time) := List.replicate n (.step i)

/-- Two owners' heartbeats and an expiry. -/
def heartbeatsAndExpiry : Fin 3 → LeaseCall
  | 0 | 1 => .heartbeatRun 1 "w"
  | 2 => .expireStaleLeases

/-- A cancellation and two expiries. -/
def cancellationAndExpiries : Fin 3 → LeaseCall
  | 0 => .cancelWorkOrder 1 none
  | 1 | 2 => .expireStaleLeases

/-- The first heartbeat reads the clock at time 3; the second one reads 50 s and commits; then the first
commits and the lease expires at 70 s. -/
def lateHeartbeat : List (Turn (Fin 3) Time) :=
  stepsOf 0 3 ++ [.tick 50000000] ++ stepsOf 1 20 ++ stepsOf 0 20 ++ [.tick 70000000] ++ stepsOf 2 20

/-- The first expiry lists the lease, the cancellation consumes it, then the expiry goes on. -/
def lostExpiry : List (Turn (Fin 3) Time) := [.tick 70000000] ++ stepsOf 1 2 ++ stepsOf 0 20 ++ stepsOf 1 20

/-- The lease expires, then the order is cancelled. -/
def lateCancellation : List (Turn (Fin 3) Time) := [.tick 70000000] ++ stepsOf 1 20 ++ stepsOf 0 20

/-- The losers of a race: an expiry that had listed the lease returns although a cancellation consumed it;
a cancellation still moves the order that an expiry put back into the queue; a heartbeat with the older
reading of the clock takes back what the newer one had renewed. -/
theorem sampleRace_losers :
    (¬ ∀ c ∈ (sampleRace cancellationAndExpiries lostExpiry).log,
      Closes cancellationAndExpiries sampleLease c ∨ Renews cancellationAndExpiries (fun _ => 60) sampleLease c) ∧
    (¬ ∀ c ∈ (sampleRace cancellationAndExpiries lateCancellation).log,
      c.after.orders.map WorkOrder.status = c.before.orders.map WorkOrder.status ∨
        Closes cancellationAndExpiries sampleLease c) ∧
    (¬ ∀ b ∈ (sampleRace heartbeatsAndExpiry lateHeartbeat).log,
      ∀ e ∈ (sampleRace heartbeatsAndExpiry lateHeartbeat).log,
        heartbeatsAndExpiry b.index = .heartbeatRun 1 "w" → heartbeatsAndExpiry e.index = .expireStaleLeases →
          sampleLease.Held e.before → ¬ sampleLease.Held e.after →
            ∀ x ∈ b.after.leases, x.id = sampleLease.id → x.expiresAt < e.time) := by
  refine ⟨fun h => ?_, fun h => ?_, fun h => ?_⟩
  · obtain ⟨c, hc, hnil⟩ : ∃ c ∈ (sampleRace cancellationAndExpiries lostExpiry).log, c.before.leases = [] := by
      decide +kernel
    rcases h c hc with hcl | hre
    · obtain ⟨x, hx, -⟩ := hcl.closed.held
      rw [hnil] at hx; cases hx
    · obtain ⟨x, hx, -⟩ := hre.lease
      rw [hnil] at hx; cases hx
  · obtain ⟨c, hc, hnil, hne⟩ : ∃ c ∈ (sampleRace cancellationAndExpiries lateCancellation).log,
        c.before.leases = [] ∧ c.after.orders.map WorkOrder.status ≠ c.before.orders.map WorkOrder.status := by
      decide +kernel
    rcases h c hc with hsame | hcl
    · exact hne hsame
    · obtain ⟨x, hx, -⟩ := hcl.closed.held
      rw [hnil] at hx; cases hx
  · obtain ⟨b, hb, e, he, hbi, hei, hheld, hnil, x, hx, hid, hlate⟩ :
        ∃ b ∈ (sampleRace heartbeatsAndExpiry lateHeartbeat).log,
          ∃ e ∈ (sampleRace heartbeatsAndExpiry lateHeartbeat).log, b.index = 1 ∧ e.index = 2 ∧
            (∃ x ∈ e.before.leases, x.id = sampleLease.id) ∧ e.after.leases = [] ∧
              ∃ x ∈ b.after.leases, x.id = sampleLease.id ∧ e.time ≤ x.expiresAt := by
      decide +kernel
    have hgone : ¬ sampleLease.Held e.after := by
      rintro ⟨y, hy, -⟩
      rw [hnil] at hy; cases hy
    exact absurd (h b hb e he (by rw [hbi]; rfl) (by rw [hei]; rfl) hheld hgone x hx hid) (not_lt.2 hlate)

/-- The cancellation wins against an expiry that had listed the lease. -/
theorem runLeaseCalls_exclusive_sample :
    sampleLease ∈ (runCalls samplePlatform sampleLeased).db.leases ∧
      ExclusiveConsumption cancellationAndExpiries (fun _ => 60) sampleLease (runCalls samplePlatform sampleLeased).db
        (sampleRace cancellationAndExpiries lostExpiry) ∧
      ((sampleRace cancellationAndExpiries lostExpiry).log.map fun c =>
        (c.index, c.before.leases.length, c.after.leases.length)) = [(1, 0, 0), (0, 1, 0)] := by
  have hl : sampleLease ∈ (runCalls samplePlatform sampleLeased).db.leases := by decide +kernel
  exact ⟨hl, runLeaseCalls_exclusive samplePlatform sampleLeased _ cancellationAndExpiries 3 lostExpiry sampleLease hl,
    by decide +kernel⟩

end Switchboard
