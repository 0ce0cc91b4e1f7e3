import Switchboard.Proof.Blocks

/-!
# Runs of the service are runs of lifecycle effects

* `Effect.keys`: every effect keeps the unique constraints.
* `transaction_runs`: an operation that does not raise is a sequence of blocks whose
  clock readings come in order.
* `runCalls_steps`: so is every run of the service from the empty database; under a
  nondecreasing clock its times are nondecreasing.
* `runCalls_invariant`: a property that every effect preserves holds in every reachable
  database.
-/

namespace Switchboard

open Table Transaction

variable {P : Platform} {scope : Scope} {env : Env} {ss ss' : Session Database} {s s' : Database} {now : Time}

/-! ## Unique constraints -/

theorem Keys.init : Keys Database.init := by
  constructor <;> simp [Database.init, Ordered, UniqueKeys, keys]

theorem Refunds.unique {r : ExecutionRun} {workerId : String} {profiles : List RoutingProfile}
    (h : Refunds s r workerId profiles) (hk : UniqueKeys s.profiles) : UniqueKeys profiles := by
  unfold Refunds at h
  split at h
  · obtain ⟨p, -, -, -, rfl⟩ := h; exact hk.put _
  · rw [h]; exact hk

theorem Reserves.unique {workerId : String} {o : WorkOrder} {q : Service.QuotaClaim}
    {profiles : List RoutingProfile} (h : Reserves s workerId o q profiles) (hk : UniqueKeys s.profiles) :
    UniqueKeys profiles := by
  rcases h with ⟨-, -, rfl⟩ | ⟨p, -, -, -, -, -, -, rfl⟩
  · exact hk
  · exact hk.put _

/-- **Every effect keeps the unique constraints.** -/
theorem Effect.keys (h : Effect P scope now s s') (hk : Keys s) : Keys s' := by
  cases h with
  | idle => exact hk
  | manifest => exact { hk with }
  | createOrder o hid => exact { hk with orders := hk.orders.append hid }
  | moveOrder o o' => exact { hk with orders := hk.orders.put _ }
  | insertWorker w hnew => exact { hk with workers := hk.workers.append hnew }
  | updateWorker w w' => exact { hk with workers := hk.workers.put _ }
  | insertProfile p hnew => exact { hk with profiles := hk.profiles.append hnew }
  | rewriteProfile p p' => exact { hk with profiles := hk.profiles.put _ }
  | claim w o q count pin expiresAt profiles h =>
    refine ⟨hk.orders.put _, hk.workers.put _, h.reserves.unique hk.profiles, hk.runs.append rfl,
      hk.leases.append rfl, ?_, ?_⟩
    · simp only [claimedDatabase, List.map_append, List.map_cons, List.map_nil]
      refine hk.leaseOrder.append (List.nodup_singleton _) ?_
      intro x hx hx'
      obtain ⟨l, hl, rfl⟩ := List.mem_map.1 hx
      exact (h.unleased l hl).1 (List.mem_singleton.1 hx')
    · simp only [claimedDatabase, List.map_append, List.map_cons, List.map_nil]
      refine hk.leaseRun.append (List.nodup_singleton _) ?_
      intro x hx hx'
      obtain ⟨l, hl, rfl⟩ := List.mem_map.1 hx
      exact (h.unleased l hl).2 (List.mem_singleton.1 hx')
  | heartbeat l r o expiresAt h =>
    exact { hk.renewLease h.lease now expiresAt with orders := hk.orders.put _, runs := hk.runs.put _ }
  | close outcome l r o w profiles h =>
    exact { hk.removeLease l.id with
      orders := hk.orders.put _, runs := hk.runs.put _, workers := hk.workers.put _
      profiles := h.refunds.unique hk.profiles }
  | resolve l r o identity selected h => exact { hk with runs := hk.runs.put _ }

/-! ## Sequences of blocks -/

theorem Operation.scope_edits (op : Operation) : op.scope.edits = op.edits := by
  cases op <;> rfl

/-- What a block of one scope can do, a block of any scope can. -/
theorem Effect.mono (h : Effect P scope now s s') : Effect P .any now s s' := by
  cases h with
  | idle => exact .idle
  | manifest m h => exact .manifest m h
  | createOrder o h₁ h₂ h₃ h₄ h₅ h₆ h₇ => exact .createOrder o h₁ h₂ h₃ h₄ h₅ h₆ h₇
  | moveOrder o o' h₁ h₂ => exact .moveOrder o o' h₁ h₂
  | insertWorker w h₁ h₂ => exact .insertWorker w h₁ h₂
  | updateWorker w w' h₁ h₂ h₃ => exact .updateWorker w w' h₁ h₂ h₃
  | insertProfile p h₁ h₂ h₃ => exact .insertProfile p h₁ h₂ h₃ rfl
  | rewriteProfile p p' h₁ h₂ h₃ h₄ h₅ h₆ h₇ => exact .rewriteProfile p p' h₁ h₂ h₃ h₄ h₅ rfl h₇
  | claim w o q count pin e profiles h => exact .claim w o q count pin e profiles h rfl
  | heartbeat l r o e h => exact .heartbeat l r o e h
  | close outcome l r o w profiles h => exact .close outcome l r o w profiles h
  | resolve l r o identity selected h => exact .resolve l r o identity selected h rfl

theorem Steps.mono {ts : List Time} (h : Steps P scope ts ss ss') : Steps P .any ts ss ss' := by
  induction h with
  | nil => exact .nil _
  | cons b _ ih => exact .cons ⟨b.effect.mono, b.trail⟩ ih

theorem Steps.single (h : Block P scope now ss ss') : Steps P scope [now] ss ss' := .cons h (.nil _)

theorem Steps.append {ts us : List Time} {s₁ : Session Database} (h : Steps P scope ts ss s₁) (h' : Steps P scope us s₁ ss') :
    Steps P scope (ts ++ us) ss ss' := by
  induction h with
  | nil => exact h'
  | cons b _ ih => exact .cons b (ih h')

/-- A property that every effect preserves is preserved by finitely many blocks. -/
theorem Steps.invariant {I : Database → Prop} {ts : List Time}
    (hstep : ∀ {t s s'}, Effect P scope t s s' → I s → I s') (h : Steps P scope ts ss ss') (hi : I ss.db) : I ss'.db := by
  induction h with
  | nil => exact hi
  | cons b _ ih => exact ih (hstep b.effect hi)

/-- The same with a bound that later times weaken: it holds of the time of every block still to come. -/
theorem Steps.timed_invariant {I : Database → Prop} {J : Time → Database → Prop} {ts : List Time}
    (hstep : ∀ {t s s'}, Effect P scope t s s' → I s → J t s → I s' ∧ ∀ t', t ≤ t' → J t' s → J t' s')
    (h : Steps P scope ts ss ss') (hp : ts.Pairwise (· ≤ ·)) (hi : I ss.db) (hj : ∀ t ∈ ts, J t ss.db) : I ss'.db := by
  induction h with
  | nil => exact hi
  | cons b _ ih =>
    obtain ⟨hle, hp'⟩ := List.pairwise_cons.1 hp
    obtain ⟨hi', hj'⟩ := hstep b.effect hi (hj _ List.mem_cons_self)
    exact ih hp' hi' fun t ht => hj' t (hle t ht) (hj t (List.mem_cons_of_mem _ ht))

theorem Steps.keys {ts : List Time} (h : Steps P scope ts ss ss') (hk : Keys ss.db) : Keys ss'.db :=
  h.invariant (fun he => he.keys) hk

theorem Steps.trail {ts : List Time} (h : Steps P scope ts ss ss') : Grows Allowed ss ss' := by
  induction h with
  | nil => exact Grows.refl
  | cons b _ ih => exact b.trail.trans ih

/-- Blocks at clock readings of `env` between the `lo`-th and the `hi`-th, in order. -/
def Runs (P : Platform) (scope : Scope) (env : Env) (lo hi : ℕ) (ss ss' : Session Database) : Prop :=
  ∃ is : List ℕ, is.Pairwise (· ≤ ·) ∧ (∀ i ∈ is, lo ≤ i ∧ i ≤ hi) ∧ Steps P scope (is.map env.clock) ss ss'

theorem Runs.refl (lo hi : ℕ) (ss : Session Database) : Runs P scope env lo hi ss ss :=
  ⟨[], List.Pairwise.nil, by simp, .nil _⟩

theorem Runs.single {i : ℕ} (h : Block P scope (env.clock i) ss ss') : Runs P scope env i i ss ss' :=
  ⟨[i], List.pairwise_singleton _ _, by simp, .single h⟩

theorem Runs.keys {lo hi : ℕ} (h : Runs P scope env lo hi ss ss') (hk : Keys ss.db) : Keys ss'.db := by
  obtain ⟨_, -, -, hs⟩ := h; exact hs.keys hk

theorem Runs.mono {lo hi lo' hi' : ℕ} (h : Runs P scope env lo hi ss ss') (hlo : lo' ≤ lo) (hhi : hi ≤ hi') :
    Runs P scope env lo' hi' ss ss' := by
  obtain ⟨is, hp, hb, hs⟩ := h
  refine ⟨is, hp, fun i hi => ?_, hs⟩
  have := hb i hi; omega

theorem Runs.trans {lo mid hi : ℕ} {s₁ : Session Database} (h : Runs P scope env lo mid ss s₁)
    (h' : Runs P scope env mid hi s₁ ss') (hlo : lo ≤ mid) (hhi : mid ≤ hi) : Runs P scope env lo hi ss ss' := by
  obtain ⟨is, hp, hb, hs⟩ := h
  obtain ⟨js, hp', hb', hs'⟩ := h'
  refine ⟨is ++ js, List.pairwise_append.2 ⟨hp, hp', ?_⟩, ?_, by rw [List.map_append]; exact hs.append hs'⟩
  · intro i hi j hj
    have h₁ := hb i hi; have h₂ := hb' j hj; omega
  · intro i hi
    rcases List.mem_append.1 hi with hi | hi
    · have := hb i hi; omega
    · have := hb' i hi; omega

/-! ## Operations -/

theorem ensureManifests_runs {ms : List (ManifestMetadata × String)} {u : Unit} (hk : Keys ss.db)
    (hms : ∀ m ∈ ms, ∃ d ∈ P.manifests, m.1 = d.metadata ∧ m.2 = P.manifestDigest d)
    (h : Repository.ensureManifests ms ss = .ok (u, ss')) : Runs P scope env 0 0 ss ss' := by
  induction ms generalizing ss with
  | nil =>
    simp only [Repository.ensureManifests, pure_ok] at h
    obtain ⟨-, rfl⟩ := h; exact Runs.refl _ _ _
  | cons m ms ih =>
    obtain ⟨metadata, digest⟩ := m
    simp only [Repository.ensureManifests, bind_ok] at h
    obtain ⟨_, s₁, h₁, h₂⟩ := h
    have hb : Block P scope (env.clock 0) ss s₁ := ensureManifest_block hk (hms _ List.mem_cons_self) h₁
    exact (Runs.single hb).trans
      (ih (hb.effect.keys hk) (fun m hm => hms m (List.mem_cons_of_mem _ hm)) h₂) le_rfl le_rfl

theorem syncTrustedManifests_runs {u : Unit} (hk : Keys ss.db)
    (h : Service.syncTrustedManifests P ss = .ok (u, ss')) : Runs P scope env 0 0 ss ss' := by
  refine ensureManifests_runs hk ?_ h
  intro m hm
  obtain ⟨d, hd, rfl⟩ := List.mem_map.1 hm
  exact ⟨d, hd, rfl, rfl⟩

theorem expireLoop_runs {ns : List LeaseSnapshot} {result : ExpiryResult} {i : ℕ} (hk : Keys ss.db)
    (h : Service.expireLoop (env.clock i) ns ss = .ok (result, ss')) : Runs P scope env i i ss ss' := by
  induction ns generalizing ss result with
  | nil =>
    simp only [Service.expireLoop, pure_ok] at h
    obtain ⟨-, rfl⟩ := h; exact Runs.refl _ _ _
  | cons n ns ih =>
    simp only [Service.expireLoop, bind_ok, pure_ok] at h
    obtain ⟨_, s₁, h₁, _, _, h₂, -, rfl⟩ := h
    have hb : Block P scope (env.clock i) ss s₁ := expireStaleLease_block hk h₁
    exact (Runs.single hb).trans (ih (hb.effect.keys hk) h₂) le_rfl le_rfl

theorem expireStaleLeases_runs {result : ExpiryResult} {i : ℕ} (hk : Keys ss.db)
    (h : Service.expireStaleLeases (env.clock i) ss = .ok (result, ss')) : Runs P scope env i i ss ss' := by
  unfold Service.expireStaleLeases at h
  simp only [bind_ok, read_ok] at h
  obtain ⟨_, _, ⟨-, rfl⟩, h⟩ := h
  exact expireLoop_runs hk h

/-- The loop of `_checkout_eligible_work` claims at most one of the orders it was given. -/
theorem checkoutLoop_runs {worker : Worker} {candidates : List (WorkOrder × CommandManifest)} {n : ℕ}
    {mismatch route : List String} {result : CheckoutResult} (hk : Keys ss.db)
    (hc : ∀ c ∈ candidates, c.1 ∈ ss.db.orders)
    (h : Service.checkoutLoop P env worker n mismatch route candidates ss = .ok (result, ss')) :
    ∃ hi, n + 2 ≤ hi ∧ Runs P .claiming env (n + 2) hi ss ss' := by
  induction candidates generalizing n mismatch route with
  | nil =>
    simp only [Service.checkoutLoop, pure_ok] at h
    obtain ⟨-, rfl⟩ := h; exact ⟨n + 2, le_rfl, Runs.refl _ _ _⟩
  | cons c candidates ih =>
    obtain ⟨order, manifest⟩ := c
    have horder : order ∈ ss.db.orders := hc _ List.mem_cons_self
    have hc' : ∀ c ∈ candidates, c.1 ∈ ss.db.orders := fun c hm => hc c (List.mem_cons_of_mem _ hm)
    -- a turn that claims nothing leaves the session as it was
    have hnext : ∀ {mismatch route}, Service.checkoutLoop P env worker (n + 1) mismatch route candidates ss =
        .ok (result, ss') → ∃ hi, n + 2 ≤ hi ∧ Runs P .claiming env (n + 2) hi ss ss' := by
      intro mismatch route h
      obtain ⟨hi, hle, hr⟩ := ih hc' h
      exact ⟨hi, by omega, hr.mono (by omega) le_rfl⟩
    simp only [Service.checkoutLoop, bind_ok, read_ok, requireSome_ok, query_ok] at h
    obtain ⟨_, _, ⟨rfl, rfl⟩, _, _, ⟨-, rfl⟩, decision, _, ⟨-, rfl⟩, h⟩ := h
    cases decision with
    | skip reason => exact hnext h
    | claim profile count =>
      simp only [bind_ok] at h
      obtain ⟨res, s₁, hclaim, h⟩ := h
      rcases attempt_ok.1 hclaim with hclaim | ⟨_, -, -, rfl⟩
      · obtain ⟨hb, hreason⟩ : Block P .claiming (env.clock (n + 2)) ss s₁ ∧ res.reason = none :=
          claimBlock_block hk horder rfl hclaim
        rw [if_neg (by rw [hreason]; simp)] at h
        obtain ⟨-, rfl⟩ := pure_ok.1 h
        exact ⟨n + 2, le_rfl, Runs.single hb⟩
      · split at h
        · exact hnext h
        · obtain ⟨-, rfl⟩ := pure_ok.1 h
          exact ⟨n + 2, le_rfl, Runs.refl _ _ _⟩

theorem listQueuedWorkOrders_mem {c : WorkOrder × CommandManifest} (h : c ∈ Repository.listQueuedWorkOrders s) :
    c.1 ∈ s.orders := by
  unfold Repository.listQueuedWorkOrders at h
  obtain ⟨o, ho, hc⟩ := List.mem_flatMap.1 h
  obtain ⟨m, -, rfl⟩ := List.mem_map.1 hc
  exact (List.mem_filter.1 ho).1

theorem checkout_runs {workerId : String} {result : CheckoutResult} (hk : Keys ss.db)
    (h : Service.checkout P env workerId ss = .ok (result, ss')) : ∃ hi, Runs P .claiming env 0 hi ss ss' := by
  unfold Service.checkout at h
  simp only [bind_ok, read_ok, require_ok, exec_ok, requireSome_ok] at h
  obtain ⟨_, s₁, hsync, _, s₂, hexp, _, _, ⟨-, rfl⟩, _, _, ⟨-, rfl⟩, _, _, ⟨rfl, rfl⟩, _, _, ⟨hpoll, rfl⟩, _, _,
    ⟨-, rfl⟩, worker, _, ⟨-, rfl⟩, h⟩ := h
  have h₁ : Runs P .claiming env 0 0 ss s₁ := syncTrustedManifests_runs hk hsync
  have h₂ : Runs P .claiming env 0 0 s₁ s₂ := expireStaleLeases_runs (h₁.keys hk) hexp
  have hk₂ := h₂.keys (h₁.keys hk)
  have h₃ : Runs P .claiming env 1 1 s₂ (s₂.push (Repository.recordCheckoutPoll workerId (env.clock 1) s₂.db).1) :=
    Runs.single (updateWorkers_block hpoll hk₂ (fun _ => rfl) fun _ => rfl)
  have h₀₁ := ((h₁.trans h₂ le_rfl le_rfl).mono le_rfl (Nat.zero_le 1)).trans h₃ (Nat.zero_le 1) le_rfl
  have hk₃ := h₃.keys hk₂
  cases hu : Service.unavailableWorkerResult worker with
  | some result' =>
    simp only [hu, pure_ok] at h
    obtain ⟨-, rfl⟩ := h
    exact ⟨1, h₀₁⟩
  | none =>
    simp only [hu, bind_ok, read_ok] at h
    obtain ⟨_, _, ⟨rfl, rfl⟩, h⟩ := h
    obtain ⟨hi, hle, h₄⟩ := checkoutLoop_runs hk₃ (fun c hc => listQueuedWorkOrders_mem hc) h
    exact ⟨hi, h₀₁.trans (h₄.mono (by omega) le_rfl) (Nat.zero_le 1) (by omega)⟩

theorem createWorkOrder_runs {draft : WorkOrderDraft} {o : WorkOrder} (hk : Keys ss.db)
    (h : Service.createWorkOrder P draft ss = .ok (o, ss')) : Runs P scope env 0 0 ss ss' := by
  unfold Service.createWorkOrder at h
  simp only [bind_ok, query_ok, require_ok, requireSome_ok, read_ok, exec_ok] at h
  obtain ⟨_, _, ⟨hdraft, rfl⟩, _, _, ⟨-, rfl⟩, definition, _, ⟨hdef, rfl⟩, _, _, ⟨-, rfl⟩, _, _, ⟨-, rfl⟩, _, _,
    ⟨-, rfl⟩, _, _, ⟨-, rfl⟩, m, s₁, hens, -, rfl⟩ := h
  have hb : Block P scope (env.clock 0) ss s₁ :=
    ensureManifest_block hk ⟨definition, List.mem_of_find?_eq_some hdef, rfl, rfl⟩ hens
  have hk₁ := hb.effect.keys hk
  have hunits : 0 ≤ draft.requiredQuotaUnits := by
    unfold Service.validateWorkOrderDraft at hdraft
    simp only [except_bind_ok, ensure_ok, Service.routingIntegerInBounds, Bool.and_eq_true, decide_eq_true_eq] at hdraft
    obtain ⟨_, -, _, -, _, -, _, -, hq⟩ := hdraft
    exact hq.1.1
  refine (Runs.single hb).trans (Runs.single ⟨?_, Grows.refl.push ?_⟩) le_rfl le_rfl
  · exact Effect.createOrder _ rfl rfl rfl rfl hunits ⟨draft.commitSha, rfl⟩
      ⟨m, (ensureManifest_mem hens).1, rfl, rfl, rfl⟩
  · exact allowed_appendOrder rfl rfl hk₁.orders.unique hk₁.runs.unique rfl

theorem registerWorker_runs {registration : WorkerRegistration} {u : Unit} (hk : Keys ss.db)
    (h : Service.registerWorker P env registration ss = .ok (u, ss')) : Runs P scope env 0 0 ss ss' := by
  unfold Service.registerWorker Repository.upsertWorker at h
  simp only [bind_ok, require_ok, read_ok] at h
  obtain ⟨_, _, ⟨-, rfl⟩, existing, _, ⟨hex, rfl⟩, _, _, ⟨-, rfl⟩, h⟩ := h
  cases existing with
  | none =>
    simp only [exec_ok] at h
    obtain ⟨-, rfl⟩ := h
    refine Runs.single ⟨Effect.insertWorker _ ?_ rfl, Grows.refl.push ?_⟩
    · intro x hx he
      have := List.find?_eq_none.1 hex x hx
      simp [he] at this
    · exact allowed_same rfl rfl hk.orders.unique hk.runs.unique
  | some w =>
    simp only [bind_ok, exec_ok, pure_ok] at h
    obtain ⟨_, _, ⟨-, rfl⟩, -, rfl⟩ := h
    obtain ⟨hw, hid⟩ := getWorker_some hex
    refine Runs.single (updateWorkers_block ?_ hk (fun _ => rfl) fun _ => rfl)
    exact affectedOne_of_mem hk.workers hw (by simpa using hid) fun x _ hx => (beq_iff_eq.1 hx).trans hid.symm

theorem heartbeatWorker_runs {workerId : String} {status : Option WorkerStatus} {u : Unit} (hk : Keys ss.db)
    (h : Service.heartbeatWorker env workerId status ss = .ok (u, ss')) : Runs P scope env 0 0 ss ss' := by
  unfold Service.heartbeatWorker at h
  simp only [bind_ok, read_ok, require_ok, exec_ok, pure_ok] at h
  obtain ⟨_, _, ⟨rfl, rfl⟩, _, _, ⟨hsome, rfl⟩, _, _, ⟨-, rfl⟩, -, rfl⟩ := h
  obtain ⟨w, hw⟩ := Option.isSome_iff_exists.1 hsome
  obtain ⟨hwm, hid⟩ := getWorker_some hw
  refine Runs.single (updateWorkers_block ?_ hk (fun _ => rfl) fun _ => rfl)
  exact affectedOne_of_mem hk.workers hwm (by simpa using hid) fun x _ hx => (beq_iff_eq.1 hx).trans hid.symm

theorem routingProfileValues_units {values : RoutingProfileValues} {c : Service.ProfileColumns}
    (h : Service.routingProfileValues values = .ok c) :
    0 ≤ c.quotaRemainingUnits ∧ c.quotaRemainingUnits ≤ c.quotaCapacityUnits := by
  unfold Service.routingProfileValues at h
  simp only [except_bind_ok, ensure_ok, except_pure_ok, Bool.and_eq_true, Service.routingIntegerInBounds,
    decide_eq_true_eq] at h
  obtain ⟨_, ⟨⟨-, hrem⟩, -⟩, _, hcap, _, -, rfl⟩ := h
  exact ⟨hrem.1, hcap⟩

theorem createRoutingProfile_runs {draft : RoutingProfileDraft} {u : Unit} (hk : Keys ss.db)
    (h : Service.createRoutingProfile draft ss = .ok (u, ss')) : Runs P .creating env 0 0 ss ss' := by
  unfold Service.createRoutingProfile at h
  simp only [bind_ok, read_ok, require_ok, query_ok, exec_ok] at h
  obtain ⟨_, _, ⟨-, rfl⟩, _, _, ⟨-, rfl⟩, _, _, ⟨rfl, rfl⟩, _, _, ⟨hnone, rfl⟩, c, _, ⟨hc, rfl⟩, _, _, ⟨-, rfl⟩,
    -, rfl⟩ := h
  refine Runs.single ⟨Effect.insertProfile _ ?_ (routingProfileValues_units hc) rfl rfl, Grows.refl.push ?_⟩
  · intro x hx he
    have := List.find?_eq_none.1 (Option.isNone_iff_eq_none.1 hnone) x hx
    simp [he, Service.newProfile] at this
  · exact allowed_same rfl rfl hk.orders.unique hk.runs.unique

/-- The guarded half of `replace_routing_profile`, when no reservation was made since its reads. -/
theorem replaceReadProfile_block {workerId : String} {replacement : RoutingProfileReplacement}
    {profile result : RoutingProfile} {reserved : ℕ} (hk : Keys ss.db)
    (hidle : reserved = 0 → ∀ p ∈ ss.db.profiles, p.workerId = workerId → p.revision = profile.revision →
      Idle ss.db workerId)
    (h : Service.replaceReadProfile workerId replacement profile reserved ss = .ok (result, ss')) :
    Block P .editing now ss ss' := by
  unfold Service.replaceReadProfile at h
  simp only [bind_ok, require_ok, query_ok, exec_ok, beq_iff_eq] at h
  obtain ⟨_, _, ⟨hres, rfl⟩, _, _, ⟨hrev, rfl⟩, c, _, ⟨hc, rfl⟩, _, _, ⟨rfl, rfl⟩, _, _, ⟨hupd, rfl⟩, -, rfl⟩ := h
  obtain ⟨p, hp, hguard, he⟩ := updateProfiles_ok hupd hk.profiles fun _ => rfl
  simp only [Bool.and_eq_true, beq_iff_eq, decide_eq_true_eq] at hguard
  obtain ⟨⟨hid, hprev⟩, hlimit⟩ := hguard
  rw [show (Repository.replaceRoutingProfile workerId replacement.expectedRevision (Service.replacedProfile c)
    ss.db).1 = _ from he]
  refine ⟨Effect.rewriteProfile p _ hp rfl ?_ (routingProfileValues_units hc) ?_ rfl hlimit, Grows.refl.push ?_⟩
  · simp only [hprev]
  · rw [hid]; exact hidle hres p hp hid (hprev.trans hrev.symm)
  · exact allowed_same rfl rfl hk.orders.unique hk.runs.unique

/-- The guarded half of `reset_routing_quota`, when no reservation was made since its reads. -/
theorem resetReadProfile_block {workerId : String} {reset : RoutingQuotaReset} {profile result : RoutingProfile}
    {reserved : ℕ} (hk : Keys ss.db) (hcheck : Service.checkReset reset = .ok ())
    (hidle : reserved = 0 → ∀ p ∈ ss.db.profiles, p.workerId = workerId → p.revision = profile.revision →
      Idle ss.db workerId)
    (h : Service.resetReadProfile workerId reset profile reserved ss = .ok (result, ss')) :
    Block P .editing now ss ss' := by
  unfold Service.resetReadProfile at h
  simp only [bind_ok, require_ok, query_ok, exec_ok, beq_iff_eq] at h
  obtain ⟨_, _, ⟨hres, rfl⟩, _, _, ⟨hrev, rfl⟩, _, _, ⟨-, rfl⟩, _, _, ⟨rfl, rfl⟩, _, _, ⟨hupd, rfl⟩, -, rfl⟩ := h
  obtain ⟨p, hp, hguard, he⟩ := updateProfiles_ok hupd hk.profiles fun _ => rfl
  simp only [Bool.and_eq_true, beq_iff_eq, decide_eq_true_eq, ge_iff_le] at hguard
  obtain ⟨⟨⟨hid, hprev⟩, hlimit⟩, hcap⟩ := hguard
  have hunits : 0 ≤ reset.quotaRemainingUnits := by
    unfold Service.checkReset at hcheck
    simp only [except_bind_ok, ensure_ok, Service.routingIntegerInBounds, decide_eq_true_eq] at hcheck
    obtain ⟨_, -, _, hq, -⟩ := hcheck
    exact hq.1
  rw [show (Repository.resetRoutingQuota workerId reset.expectedRevision reset.quotaRemainingUnits
    reset.quotaResetAt.utcNaive ss.db).1 = _ from he]
  refine ⟨Effect.rewriteProfile p _ hp rfl ?_ ⟨hunits, hcap⟩ ?_ rfl hlimit, Grows.refl.push ?_⟩
  · simp only [hprev]
  · rw [hid]; exact hidle hres p hp hid (hprev.trans hrev.symm)
  · exact allowed_same rfl rfl hk.orders.unique hk.runs.unique

/-- A reservation count of zero means that the worker is idle. -/
theorem idle_of_count {workerId : String} (h : Repository.countReservedQuotaRuns workerId s = 0) :
    Idle s workerId := by
  intro r hr hid hq
  have := List.countP_eq_zero.1 h r hr
  simp [hid, hq] at this

theorem replaceRoutingProfile_runs {workerId : String} {replacement : RoutingProfileReplacement}
    {result : RoutingProfile} (hk : Keys ss.db)
    (h : Service.replaceRoutingProfile workerId replacement ss = .ok (result, ss')) : Runs P .editing env 0 0 ss ss' := by
  unfold Service.replaceRoutingProfile at h
  simp only [bind_ok, require_ok, query_ok, read_ok] at h
  obtain ⟨_, _, ⟨-, rfl⟩, profile, _, ⟨-, rfl⟩, _, _, ⟨rfl, rfl⟩, h⟩ := h
  exact Runs.single (replaceReadProfile_block hk (fun h0 _ _ _ _ => idle_of_count h0) h)

theorem resetRoutingQuota_runs {workerId : String} {reset : RoutingQuotaReset} {result : RoutingProfile}
    (hk : Keys ss.db) (h : Service.resetRoutingQuota workerId reset ss = .ok (result, ss')) :
    Runs P .editing env 0 0 ss ss' := by
  unfold Service.resetRoutingQuota at h
  simp only [bind_ok, query_ok] at h
  obtain ⟨_, _, ⟨hcheck, rfl⟩, profile, _, ⟨-, rfl⟩, applied, _, ⟨-, rfl⟩, h⟩ := h
  cases applied with
  | true =>
    simp only [if_true, pure_ok] at h
    obtain ⟨-, rfl⟩ := h; exact Runs.refl _ _ _
  | false =>
    simp only [Bool.false_eq_true, if_false, bind_ok, read_ok] at h
    obtain ⟨_, _, ⟨rfl, rfl⟩, h⟩ := h
    exact Runs.single (resetReadProfile_block hk hcheck (fun h0 _ _ _ _ => idle_of_count h0) h)

/-! ## Work-order moves -/

theorem approveWorkOrder_runs {workOrderId : ℕ} {queue : Bool} {o : WorkOrder} (hk : Keys ss.db)
    (h : Service.approveWorkOrder P env workOrderId queue ss = .ok (o, ss')) : Runs P scope env 0 0 ss ss' := by
  unfold Service.approveWorkOrder at h
  simp only [bind_ok, query_ok, require_ok] at h
  obtain ⟨_, _, ⟨-, rfl⟩, _, _, ⟨-, rfl⟩, _, _, ⟨-, rfl⟩, h⟩ := h
  refine Runs.single (transitionUnleased_block h hk (fun _ => rfl) ?_)
  intro o ho
  have hst : o.status = .pendingApproval := List.mem_singleton.1 ho
  refine ⟨rfl, rfl, rfl, rfl, by rw [hst]; rfl, ?_, ?_⟩
  · cases queue <;> rfl
  · rw [hst]; cases queue <;> rfl

theorem queueWorkOrder_runs {workOrderId : ℕ} {o : WorkOrder} (hk : Keys ss.db)
    (h : Service.queueWorkOrder env workOrderId ss = .ok (o, ss')) : Runs P scope env 0 0 ss ss' := by
  unfold Service.queueWorkOrder at h
  simp only [bind_ok, query_ok] at h
  obtain ⟨_, _, ⟨-, rfl⟩, h⟩ := h
  refine Runs.single (transitionUnleased_block h hk (fun _ => rfl) ?_)
  intro o ho
  have hst : o.status = .approved := List.mem_singleton.1 ho
  exact ⟨rfl, rfl, rfl, rfl, by rw [hst]; rfl, rfl, by rw [hst]; rfl⟩

theorem rejectWorkOrder_runs {workOrderId : ℕ} {reason : Option String} {o : WorkOrder} (hk : Keys ss.db)
    (h : Service.rejectWorkOrder env workOrderId reason ss = .ok (o, ss')) : Runs P scope env 0 0 ss ss' := by
  unfold Service.rejectWorkOrder at h
  simp only [bind_ok, query_ok] at h
  obtain ⟨_, _, ⟨-, rfl⟩, h⟩ := h
  refine Runs.single (transitionUnleased_block h hk (fun _ => rfl) ?_)
  intro o ho
  have hst : o.status = .pendingApproval := List.mem_singleton.1 ho
  exact ⟨rfl, rfl, rfl, rfl, by rw [hst]; rfl, rfl, by rw [hst]; rfl⟩

theorem expireWorkOrder_runs {workOrderId : ℕ} {reason : Option String} {o : WorkOrder} (hk : Keys ss.db)
    (h : Service.expireWorkOrder env workOrderId reason ss = .ok (o, ss')) : Runs P scope env 0 0 ss ss' := by
  unfold Service.expireWorkOrder at h
  simp only [bind_ok, query_ok] at h
  obtain ⟨_, _, ⟨-, rfl⟩, h⟩ := h
  refine Runs.single (transitionUnleased_block h hk (fun _ => rfl) ?_)
  intro o ho
  have hst : o.status = .approved ∨ o.status = .queued := by simpa using ho
  rcases hst with hst | hst <;>
    exact ⟨rfl, rfl, rfl, rfl, by rw [hst]; rfl, rfl, by rw [hst]; rfl⟩

theorem cancelled_unleasedMove {o : WorkOrder} {reason : String}
    (h : o.status ∈ [WorkOrderStatus.pendingApproval, .approved, .queued]) :
    UnleasedMove o { o with status := .cancelled, finishedAt := some now, terminalReason := some reason } := by
  have hst : o.status = .pendingApproval ∨ o.status = .approved ∨ o.status = .queued := by simpa using h
  rcases hst with hst | hst | hst <;>
    exact ⟨rfl, rfl, rfl, rfl, by rw [hst]; rfl, rfl, by rw [hst]; rfl⟩

theorem cancelWorkOrder_runs {workOrderId : ℕ} {reason : Option String} {o : WorkOrder} (hk : Keys ss.db)
    (h : Service.cancelWorkOrder P env workOrderId reason ss = .ok (o, ss')) : Runs P scope env 0 1 ss ss' := by
  unfold Service.cancelWorkOrder at h
  simp only [bind_ok, query_ok] at h
  obtain ⟨order, _, ⟨-, rfl⟩, h⟩ := h
  split at h
  · refine (Runs.single (i := 0) (transitionUnleased_block h hk (fun _ => rfl) ?_)).mono le_rfl (Nat.zero_le 1)
    exact fun o ho => cancelled_unleasedMove ho
  · simp only [bind_ok, query_ok, require_ok, read_ok, requireSome_ok] at h
    obtain ⟨_, _, ⟨-, rfl⟩, _, _, ⟨-, rfl⟩, n, _, ⟨-, rfl⟩, _, _, hfin, -, rfl⟩ := h
    exact (Runs.single (finishActiveLease_block hk rfl hfin)).mono (Nat.zero_le 1) le_rfl

theorem completeRun_runs {runId : ℕ} {workerId : String} {completion : ExecutionCompletion} {run : ExecutionRun}
    (hk : Keys ss.db) (h : Service.completeRun P env runId workerId completion ss = .ok (run, ss')) :
    Runs P scope env 0 0 ss ss' := by
  unfold Service.completeRun at h
  simp only [bind_ok, query_ok, require_ok, read_ok, requireSome_ok] at h
  obtain ⟨_, _, ⟨ht, rfl⟩, _, _, ⟨-, rfl⟩, _, _, ⟨-, rfl⟩, n, _, ⟨-, rfl⟩, _, _, ⟨-, rfl⟩, hfin⟩ := h
  exact Runs.single (finishActiveLease_block hk ht hfin)

theorem assessRoute_runs {workOrderId : ℕ} {result : RouteAssessment} (hk : Keys ss.db)
    (h : Service.assessRoute P env workOrderId ss = .ok (result, ss')) : Runs P scope env 0 0 ss ss' := by
  unfold Service.assessRoute at h
  simp only [bind_ok, query_ok, require_ok, read_ok, requireSome_ok] at h
  obtain ⟨_, s₁, hsync, order, _, ⟨-, rfl⟩, _, _, ⟨-, rfl⟩, _, _, ⟨-, rfl⟩, _, _, ⟨-, rfl⟩, _, _, ⟨-, rfl⟩, h⟩ := h
  have hr : Runs P scope env 0 0 ss s₁ := syncTrustedManifests_runs hk hsync
  cases hp : order.spec.routingPolicy with
  | firstAvailable =>
    simp only [hp, pure_ok] at h
    obtain ⟨-, rfl⟩ := h; exact hr
  | cheapestCapable =>
    simp only [hp, bind_ok, query_ok, require_ok, pure_ok] at h
    obtain ⟨_, _, ⟨-, rfl⟩, _, _, ⟨-, rfl⟩, -, rfl⟩ := h; exact hr

theorem requeueStaleWorkOrder_runs {workOrderId : ℕ} {o : WorkOrder} (hk : Keys ss.db)
    (h : Service.requeueStaleWorkOrder env workOrderId ss = .ok (o, ss')) : Runs P scope env 0 0 ss ss' := by
  unfold Service.requeueStaleWorkOrder at h
  simp only [bind_ok, query_ok, require_ok] at h
  obtain ⟨_, _, hexp, _, _, ⟨-, rfl⟩, -, rfl⟩ := h
  exact expireStaleLeases_runs hk hexp

/-! ## Calls -/

/-- **An operation that does not raise is a sequence of blocks, at clock readings in order.** -/
theorem transaction_runs {c : Call} {u : Unit} (hk : Keys ss.db) (h : c.transaction P ss = .ok (u, ss')) :
    ∃ hi, Runs P c.operation.scope c.env 0 hi ss ss' := by
  obtain ⟨env, operation⟩ := c
  unfold Call.transaction at h
  cases operation <;> simp only [bind_ok, pure_ok] at h
  case syncTrustedManifests => exact ⟨0, syncTrustedManifests_runs hk h⟩
  case createWorkOrder => obtain ⟨_, _, h, -, rfl⟩ := h; exact ⟨0, createWorkOrder_runs hk h⟩
  case approveWorkOrder => obtain ⟨_, _, h, -, rfl⟩ := h; exact ⟨0, approveWorkOrder_runs hk h⟩
  case queueWorkOrder => obtain ⟨_, _, h, -, rfl⟩ := h; exact ⟨0, queueWorkOrder_runs hk h⟩
  case rejectWorkOrder => obtain ⟨_, _, h, -, rfl⟩ := h; exact ⟨0, rejectWorkOrder_runs hk h⟩
  case expireWorkOrder => obtain ⟨_, _, h, -, rfl⟩ := h; exact ⟨0, expireWorkOrder_runs hk h⟩
  case cancelWorkOrder => obtain ⟨_, _, h, -, rfl⟩ := h; exact ⟨1, cancelWorkOrder_runs hk h⟩
  case registerWorker => exact ⟨0, registerWorker_runs hk h⟩
  case heartbeatWorker => exact ⟨0, heartbeatWorker_runs hk h⟩
  case createRoutingProfile => exact ⟨0, createRoutingProfile_runs hk h⟩
  case replaceRoutingProfile => obtain ⟨_, _, h, -, rfl⟩ := h; exact ⟨0, replaceRoutingProfile_runs hk h⟩
  case resetRoutingQuota => obtain ⟨_, _, h, -, rfl⟩ := h; exact ⟨0, resetRoutingQuota_runs hk h⟩
  case assessRoute => obtain ⟨_, _, h, -, rfl⟩ := h; exact ⟨0, assessRoute_runs hk h⟩
  case checkout => obtain ⟨_, _, h, -, rfl⟩ := h; exact checkout_runs hk h
  case resolveReuseCandidate =>
    obtain ⟨_, _, h, -, rfl⟩ := h; exact ⟨0, Runs.single (resolveReuseCandidate_block hk (beq_self_eq_true _) h)⟩
  case heartbeatRun => obtain ⟨_, _, h, -, rfl⟩ := h; exact ⟨0, Runs.single (heartbeatRun_block hk h)⟩
  case completeRun => obtain ⟨_, _, h, -, rfl⟩ := h; exact ⟨0, completeRun_runs hk h⟩
  case expireStaleLeases => obtain ⟨_, _, h, -, rfl⟩ := h; exact ⟨0, expireStaleLeases_runs hk h⟩
  case requeueStaleWorkOrder => obtain ⟨_, _, h, -, rfl⟩ := h; exact ⟨0, requeueStaleWorkOrder_runs hk h⟩

theorem step_runs (hk : Keys ss.db) (c : Call) : ∃ hi, Runs P c.operation.scope c.env 0 hi ss (step P ss c) := by
  unfold step commit
  split
  · rename_i h; exact transaction_runs hk h
  · exact ⟨0, Runs.refl _ _ _⟩

/-- The readings of each call do not decrease, nor do they from one call to a later one. -/
def ClockMonotone (calls : List Call) : Prop :=
  (∀ c ∈ calls, Monotone c.env.clock) ∧
    calls.Pairwise fun c c' => ∀ i j, c.env.clock i ≤ c'.env.clock j

/-- **Every run of the service is a sequence of blocks; a nondecreasing clock orders them.** -/
theorem foldl_steps (ss : Session Database) (hk : Keys ss.db) (calls : List Call) :
    ∃ ts, Steps P .any ts ss (calls.foldl (step P) ss) ∧ (∀ t ∈ ts, ∃ c ∈ calls, ∃ i, t = c.env.clock i) ∧
      (ClockMonotone calls → ts.Pairwise (· ≤ ·)) := by
  induction calls generalizing ss with
  | nil => exact ⟨[], .nil _, by simp, fun _ => .nil⟩
  | cons c calls ih =>
    obtain ⟨_, is, hp, -, hs'⟩ := step_runs (P := P) hk c
    have hs := hs'.mono
    obtain ⟨ts, hts, hmem, hmono⟩ := ih _ (hs.keys hk)
    refine ⟨is.map c.env.clock ++ ts, hs.append hts, ?_, ?_⟩
    · intro t ht
      rcases List.mem_append.1 ht with ht | ht
      · obtain ⟨i, -, rfl⟩ := List.mem_map.1 ht
        exact ⟨c, List.mem_cons_self, i, rfl⟩
      · obtain ⟨c', hc', i, rfl⟩ := hmem t ht
        exact ⟨c', List.mem_cons_of_mem _ hc', i, rfl⟩
    · rintro ⟨hcm, hpw⟩
      rw [List.pairwise_cons] at hpw
      refine List.pairwise_append.2 ⟨?_, hmono ⟨fun c' hc' => hcm c' (List.mem_cons_of_mem _ hc'), hpw.2⟩, ?_⟩
      · exact List.Pairwise.map _ (fun i j hij => hcm c List.mem_cons_self hij) hp
      · intro a ha b hb
        obtain ⟨i, -, rfl⟩ := List.mem_map.1 ha
        obtain ⟨c', hc', j, rfl⟩ := hmem b hb
        exact hpw.1 c' hc' i j

theorem runCalls_steps (P : Platform) (calls : List Call) :
    ∃ ts, Steps P .any ts ⟨Database.init, []⟩ (runCalls P calls) ∧ (ClockMonotone calls → ts.Pairwise (· ≤ ·)) := by
  obtain ⟨ts, hs, -, hm⟩ := foldl_steps (P := P) ⟨Database.init, []⟩ Keys.init calls
  exact ⟨ts, hs, hm⟩

theorem runCalls_keys (P : Platform) (calls : List Call) : Keys (runCalls P calls).db := by
  obtain ⟨_, hs, -⟩ := runCalls_steps P calls
  exact hs.keys Keys.init

/-- **A property that holds of the empty database and that every effect preserves, given the unique
constraints, holds in every reachable database.** -/
theorem runCalls_invariant {I : Database → Prop} (hinit : I Database.init)
    (hstep : ∀ {t s s'}, Effect P .any t s s' → Keys s → I s → I s') (calls : List Call) : I (runCalls P calls).db := by
  obtain ⟨_, hs, -⟩ := runCalls_steps P calls
  have h : Keys (runCalls P calls).db ∧ I (runCalls P calls).db :=
    hs.invariant (I := fun s => Keys s ∧ I s) (fun he hi => ⟨he.keys hi.1, hstep he hi.1 hi.2⟩)
      ⟨Keys.init, hinit⟩
  exact h.2

end Switchboard
