import Switchboard.Spec.Concurrent
import Switchboard.Proof.Reuse

/-!
# Calls on leases, step by step

* `LeaseCall.program_run`: the steps of a call, run alone, are the transaction of the
  operation.
* `Rely`: what a call may assume about commits between two of its steps.
* `LeaseEffect`: what each call commits, in terms of lifecycle effects.
* `LeaseCall.program_ensures`: each call commits only its own effect, whatever was
  committed between its steps.
-/

namespace Switchboard

open Table Transaction

variable {P : Platform} {env : Env} {ss ss' : Session Database} {s s' : Database} {now : Time} {c : ℕ → Time}

/-! ## Running alone -/

namespace Stepwise

open Program

theorem clockFree_settleReservation (runId workOrderId : ℕ) (q : QuotaReservationState) :
    (settleReservation runId workOrderId q).ClockFree := fun _ _ => trivial

theorem clockFree_consumeRunQuotaReservation (runId workOrderId : ℕ) :
    (consumeRunQuotaReservation runId workOrderId).ClockFree := by
  intro s
  show Program.ClockFree (Program.bind (Program.done (Repository.getRun runId s)) _)
  simp only [Program.bind]
  cases Repository.getRun runId s with
  | none => trivial
  | some run =>
    simp only
    cases run.route.quotaState with
    | reserved => exact clockFree_settleReservation _ _ _
    | notRequired | consumed | released => trivial

theorem clockFree_releaseRunQuotaReservation (runId workOrderId : ℕ) (workerId : String) :
    (releaseRunQuotaReservation runId workOrderId workerId).ClockFree := by
  intro s
  show Program.ClockFree (Program.bind (Program.done (Repository.getRun runId s)) _)
  simp only [Program.bind]
  cases Repository.getRun runId s with
  | none => trivial
  | some run =>
    simp only
    cases run.route.quotaState with
    | notRequired | consumed | released => trivial
    | reserved =>
      simp only
      split
      · intro b
        cases b with
        | true => exact clockFree_settleReservation _ _ _
        | false => trivial
      · exact clockFree_settleReservation _ _ _

theorem run_settleReservation (runId workOrderId : ℕ) (q : QuotaReservationState) :
    run c (settleReservation runId workOrderId q) = Repository.settleReservation runId workOrderId q := rfl

theorem run_consumeRunQuotaReservation (runId workOrderId : ℕ) :
    run c (consumeRunQuotaReservation runId workOrderId) = Repository.consumeRunQuotaReservation runId workOrderId := by
  funext ss
  unfold consumeRunQuotaReservation Repository.consumeRunQuotaReservation
  rw [run_ask_bind, read_bind]
  cases Repository.getRun runId ss.db with
  | none => rfl
  | some r =>
    simp only
    cases r.route.quotaState <;> rfl

theorem run_releaseRunQuotaReservation (runId workOrderId : ℕ) (workerId : String) :
    run c (releaseRunQuotaReservation runId workOrderId workerId) =
      Repository.releaseRunQuotaReservation runId workOrderId workerId := by
  funext ss
  unfold releaseRunQuotaReservation Repository.releaseRunQuotaReservation
  rw [run_ask_bind, read_bind]
  cases Repository.getRun runId ss.db with
  | none => rfl
  | some r =>
    simp only
    cases r.route.quotaState with
    | notRequired | consumed | released => rfl
    | reserved =>
      simp only
      split
      · rw [run_guarded_bind, exec_bind]
        split <;> rfl
      · rfl

theorem clockFree_settleConsumedLease (n : LeaseSnapshot) (moveRun moveOrder : Statement) (conflict : String) :
    (settleConsumedLease n moveRun moveOrder conflict).ClockFree := by
  refine ClockFree.bind (clockFree_releaseRunQuotaReservation _ _ _) fun quota => ?_
  intro runUpdated orderUpdated released
  show (demand _ _ : StepTx Unit).ClockFree
  unfold demand
  split <;> trivial

theorem run_settleConsumedLease (n : LeaseSnapshot) (moveRun moveOrder : Statement) (conflict : String) :
    run c (settleConsumedLease n moveRun moveOrder conflict) =
      Service.settleConsumedLease n moveRun moveOrder conflict := by
  funext ss
  unfold settleConsumedLease Service.settleConsumedLease
  rw [run_bind (clockFree_releaseRunQuotaReservation _ _ _), run_releaseRunQuotaReservation]
  refine bind_congr fun quota s₁ => ?_
  rw [run_guarded_bind, run_guarded_bind, run_guarded_bind, exec_bind, exec_bind, exec_bind]
  unfold demand require
  split <;> rfl

theorem clockFree_expireStaleLease (now : Time) (n : LeaseSnapshot) : (expireStaleLease now n).ClockFree := by
  intro consumed
  show (if consumed = true then _ else _ : StepTx Bool).ClockFree
  split
  · exact ClockFree.bind (clockFree_settleConsumedLease _ _ _ _) fun _ => trivial
  · trivial

theorem run_expireStaleLease (now : Time) (n : LeaseSnapshot) :
    run c (expireStaleLease now n) = Service.expireStaleLease now n := by
  funext ss
  unfold expireStaleLease Service.expireStaleLease
  rw [run_guarded_bind, exec_bind]
  split
  · rw [run_bind (clockFree_settleConsumedLease _ _ _ _), run_settleConsumedLease]
    rfl
  · rfl

theorem clockFree_expireLoop (now : Time) (ns : List LeaseSnapshot) : (expireLoop now ns).ClockFree := by
  induction ns with
  | nil => trivial
  | cons n ns ih => exact ClockFree.bind (clockFree_expireStaleLease now n) fun _ => ClockFree.bind ih fun _ => trivial

theorem run_expireLoop (now : Time) (ns : List LeaseSnapshot) :
    run c (expireLoop now ns) = Service.expireLoop now ns := by
  induction ns with
  | nil => rfl
  | cons n ns ih =>
    funext ss
    unfold expireLoop Service.expireLoop
    rw [run_bind (clockFree_expireStaleLease now n), run_expireStaleLease]
    refine bind_congr fun expired s₁ => ?_
    rw [run_bind (clockFree_expireLoop now ns), ih]
    rfl

theorem run_ofExcept_bind {α β : Type} {x : Except ExecutionError α} {f : α → StepTx β} :
    run c (ofExcept x >>= f) ss = (Transaction.query (fun _ => x) >>= fun a => run c (f a)) ss := by
  cases x <;> rfl

theorem clockFree_check {α : Type} (g : Database → Except ExecutionError α) : (check g : StepTx α).ClockFree := by
  intro s
  show (ofExcept (g s) : StepTx α).ClockFree
  cases g s <;> trivial

theorem clockFree_demand_bind {α : Type} {b : Bool} {e : ExecutionError} {f : Unit → StepTx α}
    (hf : (f ()).ClockFree) : (demand b e >>= f).ClockFree := by
  cases b with
  | true => exact hf
  | false => trivial

theorem clockFree_consumeAndSettle (n : LeaseSnapshot) (completion : ExecutionCompletion)
    (requireLive ownershipError : Bool) (reuse : RunReuse) (now : Time) :
    (consumeAndSettle n completion requireLive ownershipError reuse now).ClockFree := by
  intro consumed
  refine clockFree_demand_bind ?_
  exact ClockFree.bind (clockFree_settleConsumedLease _ _ _ _) fun _ => clockFree_check _

/-- The writing half of `_finish_active_lease` is the rest of the service's. -/
theorem run_consumeAndSettle (n : LeaseSnapshot) (completion : ExecutionCompletion)
    (requireLive ownershipError : Bool) (reuse : RunReuse) (now : Time) :
    run c (consumeAndSettle n completion requireLive ownershipError reuse now) = (do
      let consumed ← exec (Repository.consumeLease n now (if requireLive then .live else .any))
      require consumed
        (if ownershipError then .ownershipConflict "execution_lease_not_owned"
          else .lifecycleConflict "execution_lease_transition_in_progress")
      Service.settleConsumedLease n
        (Repository.finishActiveRun n.executionRunId (Service.finishedRun completion reuse now))
        (Repository.finishActiveWorkOrder n.workOrderId completion.status.toWorkOrder now
          ((orText completion.terminalReason none).getD completion.status.value))
        "execution_record_transition_in_progress"
      Transaction.query (Service.requireRun n.executionRunId)) := by
  funext ss
  unfold consumeAndSettle
  rw [run_guarded_bind, exec_bind, run_demand_bind]
  refine bind_congr fun _ s₁ => ?_
  rw [run_bind (clockFree_settleConsumedLease _ _ _ _), run_settleConsumedLease]
  refine bind_congr fun _ s₂ => ?_
  rw [run_check]

theorem run_finishActiveLease_bind {β : Type} {n : LeaseSnapshot} {completion : ExecutionCompletion}
    {requireLive ownershipError : Bool} {i : ℕ} {f : ExecutionRun → StepTx β} (hc : c 0 = env.clock i) :
    run c (finishActiveLease P n completion requireLive ownershipError >>= f) ss =
      (Service.finishActiveLease P env n completion requireLive ownershipError i >>=
        fun r => run (fun j => c (j + 1)) (f r)) ss := by
  have hquery : Transaction.query (Service.reuseCompletionValues P n completion) =
      Transaction.query (Service.requireRun n.executionRunId) >>= fun r =>
        Transaction.query (Service.requireWorkOrder n.workOrderId) >>= fun o =>
          Transaction.query fun _ => Service.reuseColumns P r o completion := by
    have hinner : ∀ r, Transaction.query (fun s => Service.requireWorkOrder n.workOrderId s >>= fun o =>
        Service.reuseColumns P r o completion) = Transaction.query (Service.requireWorkOrder n.workOrderId) >>=
          fun o => Transaction.query fun _ => Service.reuseColumns P r o completion :=
      fun r => query_bind (h := fun o _ => Service.reuseColumns P r o completion)
    calc Transaction.query (Service.reuseCompletionValues P n completion)
        = Transaction.query (Service.requireRun n.executionRunId) >>= fun r =>
            Transaction.query (fun s => Service.requireWorkOrder n.workOrderId s >>= fun o =>
              Service.reuseColumns P r o completion) := query_bind
      _ = _ := by simp only [hinner]
  unfold finishActiveLease Service.finishActiveLease
  rw [hquery]
  simp only [bind_assoc]
  rw [run_check_bind]
  refine bind_congr fun _ s₁ => ?_
  rw [run_check_bind]
  refine bind_congr fun r s₁ => ?_
  rw [run_check_bind]
  refine bind_congr fun o s₁ => ?_
  rw [run_ofExcept_bind]
  refine bind_congr fun reuse s₁ => ?_
  rw [run_now_bind, hc, run_bind (clockFree_consumeAndSettle _ _ _ _ _ _), run_consumeAndSettle]
  simp only [bind_assoc]

/-- The statements of a heartbeat, as a transaction. -/
theorem run_renewal {runId workOrderId : ℕ} {workerId : String} {expiresAt : Time} :
    run c (guarded (Repository.renewOwnedLiveLease runId workerId now expiresAt) >>= fun renewed => do
        demand renewed (.ownershipConflict "execution_lease_expired")
        let quotaConsumed ← consumeRunQuotaReservation runId workOrderId
        let runUpdated ← guarded (Repository.markActiveRunRunning runId now expiresAt)
        let workOrderUpdated ← guarded (Repository.markActiveWorkOrderRunning workOrderId now)
        demand (quotaConsumed && runUpdated && workOrderUpdated) (.lifecycleConflict "execution_run_is_not_active")
        check (Service.requireRun runId)) = (do
      let renewed ← exec (Repository.renewOwnedLiveLease runId workerId now expiresAt)
      require renewed (.ownershipConflict "execution_lease_expired")
      let quotaConsumed ← Repository.consumeRunQuotaReservation runId workOrderId
      let runUpdated ← exec (Repository.markActiveRunRunning runId now expiresAt)
      let workOrderUpdated ← exec (Repository.markActiveWorkOrderRunning workOrderId now)
      require (quotaConsumed && runUpdated && workOrderUpdated) (.lifecycleConflict "execution_run_is_not_active")
      Transaction.query (Service.requireRun runId)) := by
  funext ss
  rw [run_guarded_bind, exec_bind, run_demand_bind]
  refine bind_congr fun _ s₁ => ?_
  rw [run_bind (clockFree_consumeRunQuotaReservation _ _), run_consumeRunQuotaReservation]
  refine bind_congr fun quota s₁ => ?_
  rw [run_guarded_bind, run_guarded_bind, exec_bind, exec_bind, run_demand_bind]
  refine bind_congr fun _ s₁ => ?_
  rw [run_check]

theorem run_heartbeatRun (runId : ℕ) (workerId : String) :
    run env.clock (heartbeatRun env.leaseSeconds runId workerId) = Service.heartbeatRun env runId workerId := by
  funext ss
  unfold heartbeatRun Service.heartbeatRun
  rw [run_check_bind]
  refine bind_congr fun _ s₁ => ?_
  rw [run_ask_bind, read_bind, run_demandSome_bind]
  refine bind_congr fun n s₁ => ?_
  rw [run_demand_bind]
  refine bind_congr fun _ s₁ => ?_
  rw [run_now_bind, run_renewal]

theorem run_completeRun (runId : ℕ) (workerId : String) (completion : ExecutionCompletion) :
    run env.clock (completeRun P runId workerId completion) = Service.completeRun P env runId workerId completion := by
  funext ss
  unfold completeRun Service.completeRun
  rw [run_demand_bind]
  refine bind_congr fun _ s₁ => ?_
  rw [run_check_bind]
  refine bind_congr fun _ s₁ => ?_
  rw [run_ask_bind, read_bind, run_demandSome_bind]
  refine bind_congr fun n s₁ => ?_
  rw [run_demand_bind]
  refine bind_congr fun _ s₁ => ?_
  have h : run env.clock (finishActiveLease P n completion true true >>= pure) s₁ =
      (Service.finishActiveLease P env n completion true true 0 >>= fun r =>
        run (fun j => env.clock (j + 1)) (pure r)) s₁ := run_finishActiveLease_bind rfl
  simpa only [bind_pure, run_pure] using h

theorem run_cancelWorkOrder (workOrderId : ℕ) (reason : Option String) :
    run env.clock (cancelWorkOrder P workOrderId reason) = Service.cancelWorkOrder P env workOrderId reason := by
  funext ss
  unfold cancelWorkOrder Service.cancelWorkOrder
  rw [run_check_bind]
  refine bind_congr fun order s₁ => ?_
  rw [run_now_bind]
  simp only
  split
  · unfold transitionUnleased Service.transitionUnleased
    rw [run_guarded_bind, exec_bind, run_demand_bind]
    refine bind_congr fun _ s₁ => ?_
    rw [run_check]
  · rw [run_demand_bind]
    refine bind_congr fun _ s₁ => ?_
    rw [run_ask_bind, read_bind, run_demandSome_bind]
    refine bind_congr fun n s₁ => ?_
    -- its second reading of the clock is the first one left
    refine (run_finishActiveLease_bind (i := 1) rfl).trans (bind_congr fun _ s₁ => ?_)
    rw [run_check]

theorem run_expireStaleLeases : run env.clock expireStaleLeases = Service.expireStaleLeases (env.clock 0) := by
  funext ss
  unfold expireStaleLeases Service.expireStaleLeases
  rw [run_now_bind, run_ask_bind, read_bind, run_expireLoop]

end Stepwise

/-- **The steps of a call, run alone, are the transaction of the operation.** -/
theorem LeaseCall.program_run (call : LeaseCall) :
    (call.program P env.leaseSeconds).run env.clock = Call.transaction P ⟨env, call.operation⟩ := by
  funext ss
  cases call with
  | heartbeatRun runId workerId =>
    exact Program.run_bind_pure.trans (by rw [Stepwise.run_heartbeatRun]; rfl)
  | completeRun runId workerId completion =>
    exact Program.run_bind_pure.trans (by rw [Stepwise.run_completeRun]; rfl)
  | cancelWorkOrder workOrderId reason =>
    exact Program.run_bind_pure.trans (by rw [Stepwise.run_cancelWorkOrder]; rfl)
  | expireStaleLeases =>
    exact Program.run_bind_pure.trans (by rw [Stepwise.run_expireStaleLeases]; rfl)

/-! ## What other calls may commit -/

/-- What a call finds committed at any of its steps. -/
structure Stable (s : Database) : Prop where
  keys : Keys s
  coherent : Coherent s

/-- No call revives a run or touches the reuse columns of an active one. -/
def RunKept (r r' : ExecutionRun) : Prop :=
  r'.status.isActive = true → r.status.isActive = true ∧ r'.reuse = r.reuse

/-- What the calls on leases do to the rows that another one has read: the leases that are left are
some of those there were, for the same order, run and worker. -/
structure Rely (s s' : Database) : Prop where
  runs : RowsMove RunKept s.runs s'.runs
  specs : SpecsKept s s'
  leases : ∀ l' ∈ s'.leases, ∃ l ∈ s.leases, l.snapshot = l'.snapshot

theorem RunKept.refl (r : ExecutionRun) : RunKept r r := fun h => ⟨h, rfl⟩

theorem Rely.refl (h : Stable s) : Rely s s :=
  ⟨RowsMove.refl h.keys.runs.unique RunKept.refl, specs_same h.keys, fun l hl => ⟨l, hl, rfl⟩⟩

theorem Rely.trans {s₁ s₂ s₃ : Database} (h : Rely s₁ s₂) (h' : Rely s₂ s₃) : Rely s₁ s₃ := by
  refine ⟨h.runs.trans ?_ h'.runs, h.specs.trans ?_ h'.specs, ?_⟩
  · intro x y z hxy hyz hz
    obtain ⟨hy, hzy⟩ := hyz hz
    obtain ⟨hx, hyx⟩ := hxy hy
    exact ⟨hx, hzy.trans hyx⟩
  · exact fun hxy hyz => Eq.trans hyz hxy
  · intro l'' hl''
    obtain ⟨l', hl', he'⟩ := h'.leases l'' hl''
    obtain ⟨l, hl, he⟩ := h.leases l' hl'
    exact ⟨l, hl, he.trans he'⟩

/-- Any number of leases past their deadline, closed one after the other. -/
inductive Expiries (P : Platform) (now : Time) : Database → Database → Prop
  | nil (s : Database) : Expiries P now s s
  | cons {s s' : Database} {l : Lease} {r : ExecutionRun} {o : WorkOrder} {w : Worker}
      {profiles : List RoutingProfile} (h : Closing P s .expire l r o w profiles) (hstale : l.expiresAt < now)
      (rest : Expiries P now (closedDatabase s now .expire l r o w profiles) s') : Expiries P now s s'

/-- What a call commits by time `T`. -/
inductive LeaseEffect (P : Platform) (leaseSeconds : ℤ) (T : Time) (s : Database) : LeaseCall → Database → Prop
  | heartbeat {l : Lease} {r : ExecutionRun} {o : WorkOrder} {now : Time} (hnow : now ≤ T)
      (h : Beating s l r o now) : LeaseEffect P leaseSeconds T s (.heartbeatRun l.executionRunId l.workerId)
        (beatenDatabase s now (now + seconds leaseSeconds) l r o)
  | complete {completion : ExecutionCompletion} {reuse : RunReuse} {l : Lease} {r : ExecutionRun} {o : WorkOrder}
      {w : Worker} {profiles : List RoutingProfile} {now : Time}
      (h : Closing P s (.finish completion reuse) l r o w profiles) (hlive : now ≤ l.expiresAt) :
      LeaseEffect P leaseSeconds T s (.completeRun l.executionRunId l.workerId completion)
        (closedDatabase s now (.finish completion reuse) l r o w profiles)
  | cancel {reason : Option String} {completion : ExecutionCompletion} {reuse : RunReuse} {l : Lease}
      {r : ExecutionRun} {o : WorkOrder} {w : Worker} {profiles : List RoutingProfile} {now : Time}
      (h : Closing P s (.finish completion reuse) l r o w profiles) :
      LeaseEffect P leaseSeconds T s (.cancelWorkOrder l.workOrderId reason)
        (closedDatabase s now (.finish completion reuse) l r o w profiles)
  | withdraw {reason : Option String} {o o' : WorkOrder} (ho : o ∈ s.orders) (h : UnleasedMove o o')
      (hcancelled : o'.status = .cancelled) :
      LeaseEffect P leaseSeconds T s (.cancelWorkOrder o.id reason) { s with orders := put o' s.orders }
  | expire {s' : Database} {now : Time} (hnow : now ≤ T) (h : Expiries P now s s') :
      LeaseEffect P leaseSeconds T s .expireStaleLeases s'

section Effects

variable {l : Lease} {r : ExecutionRun} {o : WorkOrder} {w : Worker} {profiles : List RoutingProfile}
  {outcome : Outcome}

theorem Stable.effect (h : Stable s) (he : Effect P .lifecycle now s s') : Stable s' :=
  ⟨he.keys h.keys, he.coherent h.keys h.coherent⟩

theorem Beating.rely (hs : Stable s) (h : Beating s l r o now) (expiresAt : Time) :
    Rely s (beatenDatabase s now expiresAt l r o) := by
  refine ⟨RowsMove.put hs.keys.runs.unique RunKept.refl h.run ?_ ?_, ?_, ?_⟩
  · exact (settledRun_id .consumed r).symm
  · exact fun _ => ⟨h.runActive, settledRun_reuse .consumed r⟩
  · exact specs_put hs.keys h.order (settledOrder_id .consumed r o) (settledOrder_spec .consumed r o)
  · intro l' hl'
    rcases of_mem_put hl' with rfl | ⟨hl', -⟩
    · exact ⟨l, h.lease, rfl⟩
    · exact ⟨l', hl', rfl⟩

/-- The run of a closed lease has ended, so nothing is said of its columns. -/
theorem Closing.rely (hs : Stable s) (h : Closing P s outcome l r o w profiles) :
    Rely s (closedDatabase s now outcome l r o w profiles) := by
  refine ⟨RowsMove.put hs.keys.runs.unique RunKept.refl h.run ?_ ?_, ?_, ?_⟩
  · show r.id = (outcome.run now (settledRun .released r)).id
    rw [outcome_run_id, settledRun_id]
  · intro hact
    have hterm : (outcome.run now (settledRun .released r)).status.isTerminal = true := h.run_terminal _
    rw [ExecutionRunStatus.not_active_of_terminal hterm] at hact
    cases hact
  · have he : Effect P .lifecycle now s _ := Effect.close outcome l r o w profiles h
    exact he.specs hs.keys
  · intro l' hl'
    exact ⟨l', (mem_remove.1 hl').1, rfl⟩

theorem Expiries.sound (hs : Stable s) (h : Expiries P now s s') : Stable s' ∧ Rely s s' := by
  induction h with
  | nil s => exact ⟨hs, Rely.refl hs⟩
  | cons hcl _ _ ih =>
    obtain ⟨hs', hR⟩ := ih (hs.effect (Effect.close _ _ _ _ _ _ hcl))
    exact ⟨hs', (hcl.rely hs).trans hR⟩

end Effects

/-- **What a call commits is what the others rely on.** -/
theorem LeaseEffect.sound {leaseSeconds : ℤ} {T : Time} {call : LeaseCall} (hs : Stable s)
    (h : LeaseEffect P leaseSeconds T s call s') : Stable s' ∧ Rely s s' := by
  cases h with
  | heartbeat hnow hb => exact ⟨hs.effect (P := P) (Effect.heartbeat _ _ _ _ hb), hb.rely hs _⟩
  | complete hcl hlive => exact ⟨hs.effect (Effect.close _ _ _ _ _ _ hcl), hcl.rely hs⟩
  | cancel hcl => exact ⟨hs.effect (Effect.close _ _ _ _ _ _ hcl), hcl.rely hs⟩
  | withdraw ho hm hc =>
    have he : Effect P .lifecycle 0 s _ := Effect.moveOrder _ _ ho hm
    exact ⟨hs.effect he, RowsMove.refl hs.keys.runs.unique RunKept.refl, he.specs hs.keys, fun l hl => ⟨l, hl, rfl⟩⟩
  | expire hnow hex => exact hex.sound hs

/-! ## Each call commits only its own effect -/

namespace Stepwise

open Program

theorem heartbeatRun_ensures {leaseSeconds : ℤ} {runId : ℕ} {workerId : String} {t : Time} :
    (heartbeatRun leaseSeconds runId workerId).Ensures Stable Rely
      (fun T s _ s' => LeaseEffect P leaseSeconds T s (.heartbeatRun runId workerId) s') t s := by
  unfold heartbeatRun
  refine ensures_check fun s₁ _ _ _ _ => ensures_ask fun s₂ hi₂ _ => ensures_demandSome fun n hn => ?_
  refine ensures_demand fun _ => ensures_now fun now _ => ensures_guarded fun c T ss a ss' hT hi hR hrun => ?_
  rw [run_renewal] at hrun
  simp only [bind_ok, exec_ok, require_ok, query_ok, Bool.and_eq_true] at hrun
  obtain ⟨_, _, ⟨rfl, rfl⟩, _, _, ⟨hren, rfl⟩, quota, s₃, hquota, _, _, ⟨rfl, rfl⟩, _, _, ⟨rfl, rfl⟩, _, _,
    ⟨⟨⟨hq, hr⟩, ho⟩, rfl⟩, -, rfl⟩ := hrun
  subst hq
  -- the lease renewed is the one that was read, so the order marked is its order
  obtain ⟨l₀, hl₀, hl₀id, rfl⟩ := getLeaseSnapshotForRun_some hn
  have hof : ∀ l ∈ ss.db.leases, l.executionRunId = runId → l.workOrderId = l₀.workOrderId := by
    intro l hl hlid
    obtain ⟨l₁, hl₁, he⟩ := hR.leases l hl
    simp only [Lease.snapshot, LeaseSnapshot.mk.injEq] at he
    have hsame : l₁ = l₀ := hi₂.keys.lease_of_run hl₁ hl₀ (he.2.2.1.trans (hlid.trans hl₀id.symm))
    rw [← he.2.1, hsame]
  obtain ⟨l, r, o, hb, rfl, rfl, hdb, -⟩ := renewedLease_beating hi.keys hof hren hquota hr ho
  exact Eq.subst hdb.symm (LeaseEffect.heartbeat hT hb)
    (motive := fun s => LeaseEffect P leaseSeconds T ss.db (.heartbeatRun l.executionRunId l.workerId) s)

/-- The checks of a completion read nothing of an order but what it asks for. -/
theorem validateCompletionEvidence_kept {n : LeaseSnapshot} {completion : ExecutionCompletion} (hs : Stable s')
    (hR : Rely s s') (h : Service.validateCompletionEvidence n completion s = .ok ()) :
    Service.validateCompletionEvidence n completion s' = .ok () := by
  unfold Service.validateCompletionEvidence at h ⊢
  cases hev : completion.evidenceMetadata with
  | none => simpa only [hev] using h
  | some evidence =>
    simp only [hev, except_bind_ok, ensure_ok] at h ⊢
    obtain ⟨o, ho, hmatch⟩ := h
    obtain ⟨hom, hoid⟩ := requireWorkOrder_ok ho
    obtain ⟨o', ho', hid'⟩ := hR.specs.kept o hom
    refine ⟨o', requireWorkOrder_of_mem hs.keys ho' (Eq.trans hid' hoid), ?_⟩
    have hspec : o'.spec = o.spec := hR.specs.moves o hom o' ho' hid'
    unfold Service.evidenceMatches at hmatch ⊢
    rw [hspec]; exact hmatch

theorem reuseColumns_congr {r r' : ExecutionRun} {o o' : WorkOrder} {completion : ExecutionCompletion}
    (hr : r'.reuse = r.reuse) (ho : o'.spec = o.spec) :
    Service.reuseColumns P r' o' completion = Service.reuseColumns P r o completion := by
  have hid : ∀ identity hash, Service.checkIdentity P o' identity hash = Service.checkIdentity P o identity hash := by
    intro identity hash
    unfold Service.checkIdentity Service.validateReuseIdentity Service.identityMatches
    simp only [ho]
  unfold Service.reuseColumns Service.reuseSource Service.isLegacyNeverEvidence
  simp only [hid, ho, hr]

/-- **A completion or a cancellation that was not raised closes the lease it read**, although it read
everything it checked before it deleted the lease. -/
theorem finishActiveLease_ensures {β : Type} {G : Time → Database → β → Database → Prop} {n : LeaseSnapshot}
    {completion : ExecutionCompletion} {requireLive ownershipError : Bool} {f : ExecutionRun → StepTx β} {t : Time}
    (ht : completion.status.isTerminal = true)
    (hf : ∀ r c ss a ss', run c (f r) ss = .ok (a, ss') → ss' = ss)
    (hG : ∀ {T x now reuse l r o w profiles a}, l.snapshot = n →
      (if requireLive then LeaseGuard.live else .any).allows l.expiresAt now = true →
      Closing P x (.finish completion reuse) l r o w profiles →
      G T x a (closedDatabase x now (.finish completion reuse) l r o w profiles)) :
    (finishActiveLease P n completion requireLive ownershipError >>= f).Ensures Stable Rely G t s := by
  unfold finishActiveLease
  simp only [bind_assoc]
  refine ensures_check fun s₁ _ hi₁ _ hev => ensures_check fun s₂ r hi₂ h₁₂ hr => ?_
  refine ensures_check fun s₃ o hi₃ h₂₃ ho => ensures_ofExcept fun reuse hreuse => ensures_now fun now _ => ?_
  refine ensures_statement ⟨_, _, rfl⟩ fun c T ss a ss' hT hi h₃ hrun => ?_
  rw [run_bind (clockFree_consumeAndSettle _ _ _ _ _ _), run_consumeAndSettle] at hrun
  simp only [bind_ok, exec_ok, require_ok, query_ok] at hrun
  obtain ⟨_, _, ⟨_, _, ⟨rfl, rfl⟩, _, _, ⟨hcons, rfl⟩, _, _, hsettle, -, rfl⟩, hlast⟩ := hrun
  obtain rfl := hf _ _ _ _ _ hlast
  obtain ⟨l, hl, rfl, hguard, he⟩ := consumeLease_ok hcons hi.keys.leases.unique
  rw [he] at hsettle
  obtain ⟨hrm, hrid⟩ := requireRun_ok hr
  obtain ⟨hom, hoid⟩ := requireWorkOrder_ok ho
  -- the lease is still there, so its run is active and has the reuse columns that were read
  obtain ⟨r', hr', hrid'⟩ := (h₂₃.trans h₃).runs.kept r hrm
  obtain ⟨o', ho', hoid'⟩ := h₃.specs.kept o hom
  have hb := hi.coherent.backed hi.keys hl hr' ho' (Eq.trans hrid' hrid) (Eq.trans hoid' hoid)
  have hsame : r'.reuse = r.reuse := ((h₂₃.trans h₃).runs.moves r hrm r' hr' hrid' hb.active).2
  have hspec : o'.spec = o.spec := h₃.specs.moves o hom o' ho' hoid'
  have hcols : Service.reuseCompletionValues P l.snapshot completion ss.db = .ok reuse := by
    unfold Service.reuseCompletionValues
    simp only [except_bind_ok]
    refine ⟨r', requireRun_of_mem hi.keys hr' (Eq.trans hrid' hrid), o',
      requireWorkOrder_of_mem hi.keys ho' (Eq.trans hoid' hoid), ?_⟩
    rw [reuseColumns_congr hsame hspec]; exact hreuse
  have hev' : Service.validateCompletionEvidence l.snapshot completion ss.db = .ok () :=
    validateCompletionEvidence_kept hi (h₁₂.trans (h₂₃.trans h₃)) hev
  obtain ⟨r₁, o₁, w, profiles, hcl, hdb, -⟩ :=
    settleConsumedLease_closing (.finish completion reuse) hi.keys hl ⟨ht, hev', hcols⟩ hsettle
  rw [hdb]
  exact hG rfl hguard hcl

theorem completeRun_ensures {leaseSeconds : ℤ} {runId : ℕ} {workerId : String} {completion : ExecutionCompletion}
    {t : Time} : (completeRun P runId workerId completion).Ensures Stable Rely
      (fun T s _ s' => LeaseEffect P leaseSeconds T s (.completeRun runId workerId completion) s') t s := by
  unfold completeRun
  refine ensures_demand fun ht => ensures_check fun s₁ _ _ _ _ => ensures_ask fun s₂ _ _ => ?_
  refine ensures_demandSome fun n hn => ensures_demand fun hw => ?_
  obtain ⟨l₀, -, hrun, rfl⟩ := getLeaseSnapshotForRun_some hn
  have hworker : l₀.workerId = workerId := beq_iff_eq.1 hw
  rw [← bind_pure (finishActiveLease P l₀.snapshot completion true true)]
  refine finishActiveLease_ensures ht ?_ ?_
  · intro r c ss a ss' hrun
    rw [run_pure, pure_ok] at hrun
    exact hrun.2.symm
  · intro T x now reuse l r o w profiles a hsnap hlive hcl
    simp only [Lease.snapshot, LeaseSnapshot.mk.injEq] at hsnap
    rw [← hrun, ← hworker, ← hsnap.2.2.1, ← hsnap.2.2.2]
    exact LeaseEffect.complete hcl (by simpa [LeaseGuard.allows] using hlive)

theorem transitionUnleased_ensures {G : Time → Database → WorkOrder → Database → Prop} {workOrderId : ℕ}
    {statuses : List WorkOrderStatus} {values : WorkOrder → WorkOrder} {conflict : String} {t : Time}
    (hid : ∀ o, (values o).id = o.id)
    (hG : ∀ {T x o a}, o ∈ x.orders → o.id = workOrderId → o.status ∈ statuses →
      G T x a { x with orders := put (values o) x.orders }) :
    (transitionUnleased workOrderId statuses values conflict).Ensures Stable Rely G t s := by
  unfold transitionUnleased
  refine ensures_guarded fun c T ss a ss' hT hi _ hrun => ?_
  rw [run_guarded_bind, run_demand_bind] at hrun
  simp only [bind_ok, require_ok, run_check, query_ok] at hrun
  obtain ⟨_, _, ⟨hupd, rfl⟩, -, rfl⟩ := hrun
  obtain ⟨o, hom, hoid, hst, he⟩ := transitionUnleasedWorkOrder_ok hid hupd hi.keys.orders.unique
  rw [Session.push_db, he]
  exact hG hom hoid hst

theorem cancelWorkOrder_ensures {leaseSeconds : ℤ} {workOrderId : ℕ} {reason : Option String} {t : Time} :
    (cancelWorkOrder P workOrderId reason).Ensures Stable Rely
      (fun T s _ s' => LeaseEffect P leaseSeconds T s (.cancelWorkOrder workOrderId reason) s') t s := by
  unfold cancelWorkOrder
  refine ensures_check fun s₁ order _ _ horder => ensures_now fun now _ => ?_
  obtain ⟨-, hid⟩ := requireWorkOrder_ok horder
  subst hid
  simp only
  split
  · refine transitionUnleased_ensures (fun _ => rfl) fun {T x o a} hom hoid hst => ?_
    rw [← hoid]
    exact LeaseEffect.withdraw hom (cancelled_unleasedMove hst) rfl
  · refine ensures_demand fun _ => ensures_ask fun s₂ _ _ => ensures_demandSome fun n hn => ?_
    obtain ⟨l₀, hl₀, rfl⟩ := Option.map_eq_some_iff.1 hn
    have horderId : l₀.workOrderId = order.id := by simpa using List.find?_some hl₀
    refine finishActiveLease_ensures rfl ?_ ?_
    · intro r c ss a ss' hrun
      rw [run_check, query_ok] at hrun
      exact hrun.2.symm
    · intro T x now reuse l r o w profiles a hsnap _ hcl
      simp only [Lease.snapshot, LeaseSnapshot.mk.injEq] at hsnap
      rw [← horderId, ← hsnap.2.1]
      exact LeaseEffect.cancel hcl

theorem expireLoop_expiries {ns : List LeaseSnapshot} {result : ExpiryResult} (hk : Keys ss.db)
    (h : Service.expireLoop now ns ss = .ok (result, ss')) : Expiries P now ss.db ss'.db := by
  induction ns generalizing ss result with
  | nil =>
    simp only [Service.expireLoop, pure_ok] at h
    obtain ⟨-, rfl⟩ := h
    exact .nil _
  | cons n ns ih =>
    simp only [Service.expireLoop, bind_ok, pure_ok] at h
    obtain ⟨_, s₁, h₁, _, _, h₂, -, rfl⟩ := h
    obtain ⟨-, hdb | ⟨l, r, o, w, profiles, hcl, hstale, hdb⟩⟩ := expireStaleLease_ok P hk h₁
    · rw [← hdb]; exact ih (hdb ▸ hk) h₂
    · have he : Effect P .lifecycle now ss.db s₁.db := hdb ▸ Effect.close _ l r o w profiles hcl
      exact .cons hcl hstale (hdb ▸ ih (he.keys hk) h₂)

theorem expireStaleLeases_ensures {leaseSeconds : ℤ} {t : Time} :
    expireStaleLeases.Ensures Stable Rely
      (fun T s _ s' => LeaseEffect P leaseSeconds T s .expireStaleLeases s') t s := by
  unfold expireStaleLeases
  refine ensures_now fun now _ => ensures_ask fun s₁ _ _ => ?_
  cases Repository.listStaleLeaseSnapshots now s₁ with
  | nil => exact fun T x hT _ _ => .expire hT (.nil x)
  | cons n ns =>
    refine ensures_statement ⟨_, _, rfl⟩ fun c T ss a ss' hT hi _ hrun => ?_
    rw [run_expireLoop] at hrun
    exact .expire hT (expireLoop_expiries hi.keys hrun)

end Stepwise

/-- **Each call commits only its own effect, whatever was committed between its steps.** -/
theorem LeaseCall.program_ensures (call : LeaseCall) (leaseSeconds : ℤ) (t : Time) (s : Database) :
    (call.program P leaseSeconds).Ensures Stable Rely
      (fun T s _ s' => LeaseEffect P leaseSeconds T s call s') t s := by
  cases call with
  | heartbeatRun runId workerId => exact Program.ensures_bind_pure Stepwise.heartbeatRun_ensures
  | completeRun runId workerId completion => exact Program.ensures_bind_pure Stepwise.completeRun_ensures
  | cancelWorkOrder workOrderId reason => exact Program.ensures_bind_pure Stepwise.cancelWorkOrder_ensures
  | expireStaleLeases => exact Program.ensures_bind_pure Stepwise.expireStaleLeases_ensures

end Switchboard
