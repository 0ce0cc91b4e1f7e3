import Mathlib.Tactic.Tauto
import Switchboard.Spec.Worker

/-!
# What an attempt reports

* `attempt_cases`: an attempt has its checkout, or it reports no identity and no evidence.
* `attempt_worked`: what it knows after its `try` block when it has one.
* `attempt_hashed`, `attempt_unhashed`: what it knows about the dependency locks.
-/

namespace Switchboard

open Try

variable {P : Platform} {host : Host} {order : AssignedWorkOrder} {manifest : TrustedManifest} {environment : String}
  {store : EvidenceStore} {a : Attempt} {K : Attempt → Prop}

/-! ## The `try` block and its handlers -/

/-- `K` holds of the variables when the block and its handlers are done. -/
def Ends (K : Attempt → Prop) (x : AttemptM Unit) (a : Attempt) : Prop :=
  wp x (fun _ a => K a) (fun e a => K (handleError e a)) a

theorem attempt_of_ends (h : Ends K (attemptBody P host) { startedAt := host.clock 0 }) : K (attempt P host) := by
  unfold Ends wp at h
  unfold attempt
  split at h <;> simp_all

section handlers

variable {e : PyException} (ho : a.order = some order)
include ho

/-- The last handler decides for an order that requires reuse. -/
theorem handleError_requireExact (hpolicy : order.spec.reusePolicy = .requireExact) :
    handleError (.exception e) a =
      { (a.finish .failed (some s!"worker_error:{e.typeName}")).decide .unavailable with
        reuseReason := "reuse_precondition_failed" } := by
  simp [handleError, Attempt.finish, ho, hpolicy]

theorem handleError_other (hpolicy : order.spec.reusePolicy ≠ .requireExact) :
    handleError (.exception e) a = a.finish .failed (some s!"worker_error:{e.typeName}") := by
  simp [handleError, Attempt.finish, ho, hpolicy]

end handlers

/-! ## Before the checkout -/

/-- An attempt without a checkout. -/
structure NoCheckout (P : Platform) (host : Host) (a : Attempt) : Prop where
  worktree : a.worktree = false
  identity : a.reuseIdentity = none
  identityHash : a.reuseIdentityHash = none
  evidence : a.evidence = none
  decision : a.reuseDecision = .fresh ∨
    a.reuseDecision = .unavailable ∧ a.terminal = .failed ∧
      ∃ o, host.workOrder = .ok o ∧ o.spec.reusePolicy = .requireExact
  undecided : a.skipCompletion = false → (∀ o, host.workOrder = .ok o → o.spec.reusePolicy = .requireExact) →
    (a.reuseDecision = .fresh ↔ EndsUndecided P host)

/-- The values that these variables start with. -/
structure Untouched (a : Attempt) : Prop where
  worktree : a.worktree = false
  identity : a.reuseIdentity = none
  identityHash : a.reuseIdentityHash = none
  evidence : a.evidence = none
  decision : a.reuseDecision = .fresh

theorem Untouched.undecided (h : Untouched a) (hend : EndsUndecided P host) : NoCheckout P host a :=
  ⟨h.worktree, h.identity, h.identityHash, h.evidence, .inl h.decision, fun _ _ => iff_of_true h.decision hend⟩

theorem Untouched.skipped (h : Untouched a) (hskip : a.skipCompletion = true) : NoCheckout P host a :=
  ⟨h.worktree, h.identity, h.identityHash, h.evidence, .inl h.decision, fun hsent => by rw [hskip] at hsent; cases hsent⟩

theorem Untouched.raised (h : Untouched a) (ho : a.order = some order) (horder : host.workOrder = .ok order)
    (e : PyException) (hend : ¬ EndsUndecided P host) : NoCheckout P host (handleError (.exception e) a) := by
  by_cases hpolicy : order.spec.reusePolicy = .requireExact
  · rw [handleError_requireExact ho hpolicy]
    exact ⟨h.worktree, h.identity, h.identityHash, h.evidence, .inr ⟨rfl, rfl, order, horder, hpolicy⟩,
      fun _ _ => iff_of_false (by simp [Attempt.decide]) hend⟩
  · rw [handleError_other ho hpolicy]
    exact ⟨h.worktree, h.identity, h.identityHash, h.evidence, .inl h.decision,
      fun _ hall => absurd (hall order horder) hpolicy⟩

/-- What a call of the control plane raises after the order was fetched. -/
theorem Untouched.remote (h : Untouched a) (ho : a.order = some order) (horder : host.workOrder = .ok order)
    (e : RemoteError) (hend : ∀ e', e = .exception e' → ¬ EndsUndecided P host) :
    NoCheckout P host (handleError e.raised a) := by
  cases e with
  | ownershipLost credentialRejected =>
    refine Untouched.skipped ?_ rfl
    exact ⟨h.worktree, h.identity, h.identityHash, h.evidence, h.decision⟩
  | exception e => exact h.raised ho horder e (hend e rfl)

theorem attempt_cases (P : Platform) (host : Host) :
    (∃ order manifest environment store, CheckedOut P host order manifest environment store) ∨
      NoCheckout P host (attempt P host) := by
  refine attempt_of_ends (K := fun a => (∃ order manifest environment store,
    CheckedOut P host order manifest environment store) ∨ NoCheckout P host a) ?_
  unfold Ends attemptBody
  simp only [wp_bind, wp_call, wp_assign]
  refine ⟨fun order horder => ⟨fun manifest hmanifest => ⟨fun cancelled hmonitor => ?_, fun e he => ?_⟩,
    fun e he => ?_⟩, fun e he => ?_⟩
  · cases cancelled with
    | some reason =>
      refine Or.inr (Untouched.undecided ⟨rfl, rfl, rfl, rfl, rfl⟩ (.inr ?_))
      exact ⟨order, manifest, horder, hmanifest, .inl ⟨reason, hmonitor⟩⟩
    | none =>
      by_cases hshut : host.shutdownAtStart = true
      · simp only [hshut, if_true, wp_assign]
        refine Or.inr (Untouched.undecided ⟨rfl, rfl, rfl, rfl, rfl⟩ (.inr ?_))
        exact ⟨order, manifest, horder, hmanifest, .inr ⟨hmonitor, .inl hshut⟩⟩
      · simp only [hshut]
        unfold execute
        simp only [wp_bind, wp_call, wp_assign, Bool.false_eq_true, if_false]
        refine ⟨fun environment henv => ⟨fun store hstore => ⟨fun _ hwork => ?_, fun e he => ?_⟩, fun e he => ?_⟩,
          fun e he => ?_⟩
        · exact wp_of_forall (fun _ _ => .inl ⟨order, manifest, environment, store, horder, hmanifest, hmonitor,
            by simpa using hshut, henv, hstore, hwork⟩) fun _ _ => .inl ⟨order, manifest, environment, store, horder,
            hmanifest, hmonitor, by simpa using hshut, henv, hstore, hwork⟩
        · cases e with
          | localCommitUnavailable =>
            refine Or.inr (Untouched.undecided ⟨rfl, rfl, rfl, rfl, rfl⟩ (.inr ?_))
            exact ⟨order, manifest, horder, hmanifest,
              .inr ⟨hmonitor, .inr ⟨environment, store, henv, hstore, .inl he⟩⟩⟩
          | exception e =>
            refine Or.inr (Untouched.raised ⟨rfl, rfl, rfl, rfl, rfl⟩ rfl horder e ?_)
            simp [EndsUndecided, horder, hmonitor, hshut, henv, hstore, he]
        · refine Or.inr (Untouched.raised ⟨rfl, rfl, rfl, rfl, rfl⟩ rfl horder e ?_)
          simp [EndsUndecided, horder, hmonitor, hshut, henv, he]
        · refine Or.inr (Untouched.raised ⟨rfl, rfl, rfl, rfl, rfl⟩ rfl horder e ?_)
          simp [EndsUndecided, horder, hmonitor, hshut, he]
  · refine Or.inr (Untouched.remote ⟨rfl, rfl, rfl, rfl, rfl⟩ rfl horder e ?_)
    rintro e rfl
    simp [EndsUndecided, horder, he]
  · refine Or.inr (Untouched.remote ⟨rfl, rfl, rfl, rfl, rfl⟩ rfl horder e ?_)
    rintro e rfl
    simp [EndsUndecided, horder, he]
  · cases e with
    | ownershipLost credentialRejected => exact Or.inr (Untouched.skipped ⟨rfl, rfl, rfl, rfl, rfl⟩ rfl)
    | exception e =>
      -- without an order the handler finds no policy to decide by
      exact Or.inr (Untouched.undecided ⟨rfl, rfl, rfl, rfl, rfl⟩ (.inl ⟨e, he⟩))

/-! ## On the checkout -/

/-- The variables when the checkout is there. -/
def atCheckout (host : Host) (order : AssignedWorkOrder) (manifest : TrustedManifest) (environment : String)
    (store : EvidenceStore) : Attempt :=
  { order := some order, manifest := some manifest, environment := some environment, store := some store
    worktree := true, startedAt := host.clock 1 }

theorem attempt_of_checkedOut (h : CheckedOut P host order manifest environment store)
    (hK : Ends K (workOnCheckout P host order manifest environment)
      (atCheckout host order manifest environment store)) : K (attempt P host) := by
  refine attempt_of_ends ?_
  unfold Ends atCheckout at hK
  unfold Ends attemptBody execute
  simpa [h.assigned, h.fetched, h.monitored, h.running, h.identified, h.stored, h.checkedOut] using hK

/-- The locks of the manifest, each with a digest. -/
def Complete (manifest : TrustedManifest) (locks : List DependencyLockHash) : Prop :=
  locks.map DependencyLockHash.relativePath = Service.sortedTexts manifest.dependencyLockPaths

theorem hashDependencyLocks_complete {pass : Pass} {locks : List DependencyLockHash}
    (h : hashDependencyLocks host pass manifest = .ok locks) : Complete manifest locks := by
  unfold hashDependencyLocks at h
  have hall := mapM_ok h
  unfold Complete
  generalize Service.sortedTexts manifest.dependencyLockPaths = paths at hall
  clear h
  induction hall with
  | nil => rfl
  | @cons path lock paths locks hlock _ ih =>
    have hpath : lock.relativePath = path := by
      cases hd : host.lockDigest pass path with
      | error e => rw [hd] at hlock; cases hlock
      | ok digest => rw [hd] at hlock; cases hlock; rfl
    rw [List.map_cons, hpath, ih]

theorem complete_nil (h : manifest.dependencyLockPaths = []) : Complete manifest [] := by
  simp [Complete, Service.sortedTexts, h]

/-- What does not change on the checkout, and what is known about locks and identity. -/
structure Prepared (P : Platform) (order : AssignedWorkOrder) (manifest : TrustedManifest) (environment : String)
    (store : EvidenceStore) (a : Attempt) : Prop where
  worktree : a.worktree = true
  assigned : a.order = some order
  fetched : a.manifest = some manifest
  identified : a.environment = some environment
  stored : a.store = some store
  evidence : a.evidence = none
  artifacts : a.artifacts = []
  verified : a.sourceIntegrityVerified = true
  locks : a.dependencyLocks = [] ∨ Complete manifest a.dependencyLocks
  lockStatus : a.dependencyLockStatus = "succeeded" → Complete manifest a.dependencyLocks
  identity : a.reuseIdentity = none ∧ a.reuseIdentityHash = none ∨
    ∃ locks, Complete manifest locks ∧ a.reuseIdentity = some (reuseIdentity P order manifest environment locks) ∧
      a.reuseIdentityHash = some (P.reuseIdentityHash (reuseIdentity P order manifest environment locks))

/-- What is known about the decision. -/
structure Decided (P : Platform) (host : Host) (order : AssignedWorkOrder) (a : Attempt) : Prop where
  unavailable : a.reuseDecision = .unavailable →
    order.spec.reusePolicy = .requireExact ∧ a.terminal ≠ .succeeded
  reused : a.reuseDecision = .reused → ∃ identity lookup candidate,
    a.reuseIdentity = some identity ∧ a.lookup = some lookup ∧ lookup.candidate = some candidate ∧
      host.resolveReuseCandidate identity (P.reuseIdentityHash identity) = .ok lookup

/-- What is known when the `try` block and its handlers are done. -/
structure Worked (P : Platform) (host : Host) (order : AssignedWorkOrder) (manifest : TrustedManifest)
    (environment : String) (store : EvidenceStore) (a : Attempt) : Prop
    extends Prepared P order manifest environment store a, Decided P host order a where
  undecided : order.spec.reusePolicy = .requireExact → a.skipCompletion = false →
    (a.reuseDecision = .fresh ↔ CancelledInLookup P host order manifest environment)

/-- The variables that neither the steps nor a cancellation touch. -/
def SameReport (a a' : Attempt) : Prop :=
  ∃ results steps quiescent terminal reason skip,
    a' = { a with
      results := results, attemptedSteps := steps, sourceQuiescent := quiescent, terminal := terminal
      reason := reason, skipCompletion := skip }

theorem SameReport.refl (a : Attempt) : SameReport a a := ⟨_, _, _, _, _, _, rfl⟩

theorem SameReport.trans {a₁ a₂ a₃ : Attempt} (h : SameReport a₁ a₂) (h' : SameReport a₂ a₃) : SameReport a₁ a₃ := by
  obtain ⟨_, _, _, _, _, _, rfl⟩ := h
  obtain ⟨_, _, _, _, _, _, rfl⟩ := h'
  exact ⟨_, _, _, _, _, _, rfl⟩

theorem SameReport.cancelled (reason : String) (a : Attempt) : SameReport a (a.cancelled reason) :=
  ⟨_, _, _, _, _, _, rfl⟩

theorem runSteps_sameReport (host : Host) (hasContract : Bool) (n : ℕ) (steps : List TrustedStep) (a : Attempt) :
    SameReport a (runSteps host hasContract n steps a) := by
  induction steps generalizing n a with
  | nil => exact .refl a
  | cons step rest ih =>
    unfold runSteps
    split <;> try exact ⟨_, _, _, _, _, _, rfl⟩
    rename_i r hr
    simp only []
    split
    · exact ⟨_, _, _, _, _, _, rfl⟩
    · exact SameReport.trans ⟨_, _, _, _, _, _, rfl⟩ (ih _ _)

theorem SameReport.locks {a' : Attempt} (h : SameReport a a') : a'.dependencyLocks = a.dependencyLocks := by
  obtain ⟨_, _, _, _, _, _, rfl⟩ := h
  rfl

theorem SameReport.identity {a' : Attempt} (h : SameReport a a') : a'.reuseIdentity = a.reuseIdentity := by
  obtain ⟨_, _, _, _, _, _, rfl⟩ := h
  rfl

theorem SameReport.lockStatus {a' : Attempt} (h : SameReport a a') :
    a'.dependencyLockStatus = a.dependencyLockStatus := by
  obtain ⟨_, _, _, _, _, _, rfl⟩ := h
  rfl

theorem SameReport.decision {a' : Attempt} (h : SameReport a a') : a'.reuseDecision = a.reuseDecision := by
  obtain ⟨_, _, _, _, _, _, rfl⟩ := h
  rfl

theorem Prepared.sameReport {a' : Attempt} (h : Prepared P order manifest environment store a)
    (hs : SameReport a a') : Prepared P order manifest environment store a' := by
  obtain ⟨_, _, _, _, _, _, rfl⟩ := hs
  exact ⟨h.worktree, h.assigned, h.fetched, h.identified, h.stored, h.evidence, h.artifacts, h.verified, h.locks,
    h.lockStatus, h.identity⟩

theorem Decided.of_fresh (h : a.reuseDecision = .fresh) : Decided P host order a := by
  constructor <;> intro hd <;> rw [h] at hd <;> cases hd

theorem Decided.cancelled (h : Decided P host order a) (reason : String) : Decided P host order (a.cancelled reason) := by
  refine ⟨fun hd => ⟨(h.unavailable hd).1, ?_⟩, h.reused⟩
  show (if reason = "overall_timeout" then TerminalStatus.timedOut else .cancelled) ≠ .succeeded
  split <;> decide

theorem Prepared.raised (h : Prepared P order manifest environment store a) (hd : a.reuseDecision = .fresh)
    (e : PyException) (hc : ¬ CancelledInLookup P host order manifest environment) :
    Worked P host order manifest environment store (handleError (.exception e) a) := by
  by_cases hpolicy : order.spec.reusePolicy = .requireExact
  · rw [handleError_requireExact h.assigned hpolicy]
    refine ⟨⟨h.worktree, h.assigned, h.fetched, h.identified, h.stored, h.evidence, h.artifacts, h.verified, h.locks,
      h.lockStatus, h.identity⟩, ⟨fun _ => ⟨hpolicy, ?_⟩, ?_⟩, fun _ _ => iff_of_false ?_ hc⟩
    · exact TerminalStatus.noConfusion
    · exact ProvenanceDecision.noConfusion
    · exact ProvenanceDecision.noConfusion
  · rw [handleError_other h.assigned hpolicy]
    exact ⟨h.sameReport ⟨_, _, _, _, _, _, rfl⟩, .of_fresh hd, fun hp => absurd hp hpolicy⟩

theorem atCheckout_prepared : Prepared P order manifest environment store
    (atCheckout host order manifest environment store) :=
  ⟨rfl, rfl, rfl, rfl, rfl, rfl, rfl, rfl, .inl rfl, fun h => absurd h (by decide : "not_declared" ≠ "succeeded"),
    .inl ⟨rfl, rfl⟩⟩

theorem HashedForReuse.unique {locks locks' : List DependencyLockHash} (h : HashedForReuse host manifest locks)
    (h' : HashedForReuse host manifest locks') : locks = locks' := by
  rcases h with ⟨hp, rfl⟩ | ⟨hp, -, h, -⟩ <;> rcases h' with ⟨hp', rfl⟩ | ⟨hp', -, h', -⟩
  · rfl
  · exact absurd hp hp'
  · exact absurd hp' hp
  · exact Except.ok.inj (h.symm.trans h')

theorem HashedForReuse.complete {locks : List DependencyLockHash} (h : HashedForReuse host manifest locks) :
    Complete manifest locks := by
  rcases h with ⟨hp, rfl⟩ | ⟨-, -, h, -⟩
  · exact complete_nil hp
  · exact hashDependencyLocks_complete h

section rules

variable (h : Prepared P order manifest environment store a) (hd : a.reuseDecision = .fresh)
include h hd

/-- An exception among the locks is raised before there is a lookup. -/
theorem wp_hashLocksForReuse {Q : List DependencyLockHash → Attempt → Prop} {E : WorkerError → Attempt → Prop}
    (hok : ∀ locks a', HashedForReuse host manifest locks → Prepared P order manifest environment store a' →
      a'.reuseDecision = .fresh → Q locks a')
    (herr : ∀ e a', Prepared P order manifest environment store a' → a'.reuseDecision = .fresh →
      (∀ locks, ¬ HashedForReuse host manifest locks) → E (.exception e) a') :
    wp (hashLocksForReuse host manifest) Q E a := by
  unfold hashLocksForReuse
  by_cases hp : manifest.dependencyLockPaths = []
  · rw [if_pos hp, wp_pure]
    exact hok [] a (.inl ⟨hp, rfl⟩) h hd
  · rw [if_neg hp]
    simp only [wp_bind, wp_call, wp_assign, wp_pure]
    refine ⟨fun _ hbefore => ⟨fun locks hlocks => ?_, fun e he => ?_⟩, fun e he => ?_⟩
    · have hc := hashDependencyLocks_complete hlocks
      have hp' : Prepared P order manifest environment store { a with dependencyLocks := locks } :=
        { h with locks := .inr hc, lockStatus := fun _ => hc }
      refine ⟨fun _ hafter => ?_, fun e he => ?_⟩
      · exact hok locks _ (.inr ⟨hp, hbefore, hlocks, hafter⟩) { hp' with lockStatus := fun _ => hc } hd
      · refine herr e _ hp' hd fun locks' h' => ?_
        rcases h' with ⟨hp'', -⟩ | ⟨-, -, -, hafter⟩
        · exact hp hp''
        · rw [he] at hafter; cases hafter
    · refine herr e a h hd fun locks' h' => ?_
      rcases h' with ⟨hp', -⟩ | ⟨-, -, hlocks, -⟩
      · exact hp hp'
      · rw [he] at hlocks; cases hlocks
    · refine herr e a h hd fun locks' h' => ?_
      rcases h' with ⟨hp', -⟩ | ⟨-, hbefore, -, -⟩
      · exact hp hp'
      · rw [he] at hbefore; cases hbefore

end rules

/-- What is known when the attempt either has its result from the lookup or goes on to its steps. -/
structure ReuseSettled (P : Platform) (host : Host) (order : AssignedWorkOrder) (manifest : TrustedManifest)
    (environment : String) (store : EvidenceStore) (executeFresh : Bool) (cancelled : Option String) (a : Attempt) :
    Prop where
  prepared : Prepared P order manifest environment store a
  decided : Decided P host order a
  executes : executeFresh = true → order.spec.reusePolicy ≠ .requireExact
  ended : ∀ reason, cancelled = some reason → a.reuseDecision = .fresh ∧
    (CancelledInLookup P host order manifest environment ∨ skipsCompletion reason = true)
  settled : cancelled = none → order.spec.reusePolicy = .requireExact →
    a.reuseDecision ≠ .fresh ∧ ¬ CancelledInLookup P host order manifest environment

/-- The variables after the lookup that `decideReuse` decides about. -/
structure LookupDone (P : Platform) (host : Host) (order : AssignedWorkOrder) (manifest : TrustedManifest)
    (environment : String) (store : EvidenceStore) (lookup : Option ReuseLookup) (cancelled : Option String)
    (a : Attempt) : Prop where
  prepared : Prepared P order manifest environment store a
  fresh : a.reuseDecision = .fresh
  found : ∀ found, lookup = some found → ∃ identity, a.reuseIdentity = some identity ∧ a.lookup = some found ∧
    host.resolveReuseCandidate identity (P.reuseIdentityHash identity) = .ok found
  ended : ∀ reason, cancelled = some reason →
    CancelledInLookup P host order manifest environment ∨ skipsCompletion reason = true
  going : cancelled = none → ¬ CancelledInLookup P host order manifest environment

@[simp] theorem finish_reuseDecision (status : TerminalStatus) (reason : Option String) (a : Attempt) :
    (a.finish status reason).reuseDecision = a.reuseDecision := rfl

@[simp] theorem finish_terminal (status : TerminalStatus) (reason : Option String) (a : Attempt) :
    (a.finish status reason).terminal = status := rfl

@[simp] theorem decide_reuseDecision (decision : ProvenanceDecision) (a : Attempt) :
    (a.decide decision).reuseDecision = decision := rfl

theorem wp_decideReuse {lookup : Option ReuseLookup} {cancelled : Option String}
    (h : LookupDone P host order manifest environment store lookup cancelled a) :
    wp (decideReuse host order.spec.reusePolicy lookup cancelled)
      (fun executeFresh => ReuseSettled P host order manifest environment store executeFresh cancelled)
      (fun e a => Worked P host order manifest environment store (handleError e a)) a := by
  have hp := h.prepared
  unfold decideReuse
  cases cancelled with
  | some reason =>
    simp only [wp_bind, wp_assign, wp_pure]
    refine ⟨hp.sameReport (.cancelled reason a), .of_fresh h.fresh, by simp, fun reason' hr => ?_, by simp⟩
    exact ⟨h.fresh, h.ended reason' hr⟩
  | none =>
    have hgoing := h.going rfl
    cases hcand : lookup.bind ReuseLookup.candidate with
    | none =>
      simp only []
      by_cases hpolicy : order.spec.reusePolicy = .requireExact
      · simp only [hpolicy, if_true, wp_bind, wp_assign, wp_pure]
        refine ⟨{ hp with }, ⟨fun _ => ⟨hpolicy, by simp⟩, by simp⟩, by simp, by simp, fun _ _ => ⟨by simp, hgoing⟩⟩
      · simp only [hpolicy, if_false, wp_pure]
        exact ⟨hp, .of_fresh h.fresh, fun _ => hpolicy, by simp, fun _ he => absurd he hpolicy⟩
    | some candidate =>
      obtain ⟨found, hfound, hc⟩ := Option.bind_eq_some_iff.1 hcand
      obtain ⟨identity, hid, hlookup, hresolve⟩ := h.found found hfound
      simp only [wp_bind, wp_call, wp_assign]
      refine ⟨fun verified _ => ?_, fun e _ => hp.raised h.fresh e hgoing⟩
      by_cases hver : verified.1 = true
      · simp only [hver, if_true, wp_bind, wp_assign, wp_pure]
        exact ⟨{ hp with }, ⟨by simp, fun _ => ⟨identity, found, candidate, hid, hlookup, hc, hresolve⟩⟩, by simp,
          by simp, fun _ _ => ⟨by simp, hgoing⟩⟩
      · by_cases hpolicy : order.spec.reusePolicy = .requireExact
        · simp only [hver, hpolicy, if_true]
          exact ⟨{ hp with }, ⟨fun _ => ⟨hpolicy, by simp⟩, by simp⟩, by simp, by simp, fun _ _ => ⟨by simp, hgoing⟩⟩
        · simp only [hver, hpolicy, if_false]
          exact ⟨{ hp with }, .of_fresh h.fresh, fun _ => hpolicy, by simp, fun _ he => absurd he hpolicy⟩

theorem buildReuseIdentity_ok {pass : Pass} {locks : List DependencyLockHash} {identity : ReuseIdentity} :
    buildReuseIdentity P host pass order manifest environment locks = .ok identity ↔
      reuseIdentity P order manifest environment locks = identity ∧
        host.acceptsIdentity pass (reuseIdentity P order manifest environment locks) = .ok () := by
  show (host.acceptsIdentity pass (reuseIdentity P order manifest environment locks) >>=
    fun _ => Pure.pure (reuseIdentity P order manifest environment locks)) = .ok identity ↔ _
  cases host.acceptsIdentity pass (reuseIdentity P order manifest environment locks) with
  | error e => simp [Bind.bind, Except.bind]
  | ok _ => simp [Bind.bind, Except.bind, Pure.pure, Except.pure]

/-- The lookup of an identity over hashed locks. -/
theorem wp_lookUp {locks : List DependencyLockHash} {identity : ReuseIdentity}
    (h : Prepared P order manifest environment store a) (hd : a.reuseDecision = .fresh)
    (hcheckout : host.integrity .afterCheckout = .ok ()) (hlocks : HashedForReuse host manifest locks)
    (hbuild : buildReuseIdentity P host .first order manifest environment locks = .ok identity)
    (hid : a.reuseIdentity = some identity) :
    wp (lookUp host identity (P.reuseIdentityHash identity))
      (fun r => LookupDone P host order manifest environment store r.1 r.2)
      (fun e a => Worked P host order manifest environment store (handleError e a)) a := by
  -- locks and identity are those that `CancelledInLookup` speaks about
  have hiff : CancelledInLookup P host order manifest environment ↔
      (∀ e, host.resolveReuseCandidate identity (P.reuseIdentityHash identity) = .error (.exception e) →
        e.ioOrValue = true) ∧ host.cancelledAfterLookup.isSome = true := by
    constructor
    · rintro ⟨-, locks', identity', hlocks', hbuild', hc⟩
      obtain rfl := hlocks.unique hlocks'
      obtain rfl : identity = identity' := Except.ok.inj (hbuild.symm.trans hbuild')
      exact hc
    · exact fun hc => ⟨hcheckout, locks, identity, hlocks, hbuild, hc⟩
  unfold lookUp
  cases hres : host.resolveReuseCandidate identity (P.reuseIdentityHash identity) with
  | ok found =>
    simp only [wp_bind, wp_assign, wp_pure]
    have hc : CancelledInLookup P host order manifest environment ↔ host.cancelledAfterLookup.isSome = true :=
      hiff.trans (and_iff_right (by simp [hres]))
    refine ⟨{ h with }, hd, fun found' hf => ?_, fun reason hr => .inl (hc.2 (by simp [hr])), fun hn hc' => ?_⟩
    · cases hf
      exact ⟨identity, hid, rfl, hres⟩
    · simp [hn] at hc; exact hc hc'
  | error e =>
    cases e with
    | ownershipLost credentialRejected =>
      simp only [wp_pure]
      have hc : CancelledInLookup P host order manifest environment ↔ host.cancelledAfterLookup.isSome = true :=
        hiff.trans (and_iff_right (by simp [hres]))
      refine ⟨h, hd, by simp, fun reason hr => ?_, fun hn => ?_⟩
      · cases hcancel : host.cancelledAfterLookup with
        | some _ => exact .inl (hc.2 (by simp [hcancel]))
        | none =>
          rw [hcancel] at hr
          cases hr
          exact .inr (by decide)
      · cases hcancel : host.cancelledAfterLookup <;> simp [hcancel] at hn
    | exception e =>
      by_cases hio : e.ioOrValue = true
      · simp only [hio, if_true, wp_bind, wp_assign, wp_pure]
        have hc : CancelledInLookup P host order manifest environment ↔ host.cancelledAfterLookup.isSome = true :=
          hiff.trans (and_iff_right (by simp [hres, hio]))
        refine ⟨{ h with }, hd, by simp, fun reason hr => .inl (hc.2 (by simp [hr])), fun hn hc' => ?_⟩
        simp [hn] at hc; exact hc hc'
      · simp only [hio]
        exact h.raised hd e fun hc => hio ((hiff.1 hc).1 e hres)

theorem wp_reuseOrExecute (h : Prepared P order manifest environment store a) (hd : a.reuseDecision = .fresh)
    (hcheckout : host.integrity .afterCheckout = .ok ()) :
    wp (reuseOrExecute P host order manifest environment)
      (fun r => ReuseSettled P host order manifest environment store r.1 r.2)
      (fun e a => Worked P host order manifest environment store (handleError e a)) a := by
  unfold reuseOrExecute
  by_cases hnever : order.spec.reusePolicy = .never
  · simp only [hnever, if_true, wp_pure]
    have hpolicy : order.spec.reusePolicy ≠ .requireExact := by rw [hnever]; decide
    exact ⟨h, .of_fresh hd, fun _ => hpolicy, by simp, fun _ he => absurd he hpolicy⟩
  · simp only [hnever, if_false, wp_bind, wp_call, wp_assign]
    refine wp_hashLocksForReuse h hd (fun locks a' hlocks h' hd' => ⟨fun identity hbuild => ?_, fun e he => ?_⟩)
      fun e a' h' hd' hno => ?_
    · have hid : Prepared P order manifest environment store
          { a' with reuseIdentity := some identity, reuseIdentityHash := some (P.reuseIdentityHash identity) } := by
        refine { h' with identity := .inr ⟨locks, hlocks.complete, ?_⟩ }
        obtain ⟨rfl, -⟩ := buildReuseIdentity_ok.1 hbuild
        exact ⟨rfl, rfl⟩
      refine wp_mono (wp_lookUp hid hd' hcheckout hlocks hbuild rfl) (fun r a'' hdone => ?_) fun _ _ he => he
      exact wp_decideReuse hdone
    · refine h'.raised hd' e fun hc => ?_
      obtain ⟨-, locks', identity', hlocks', hbuild', -⟩ := hc
      obtain rfl := hlocks.unique hlocks'
      rw [he] at hbuild'; cases hbuild'
    · refine h'.raised hd' e ?_
      rintro ⟨-, locks, -, hlocks, -⟩
      exact hno locks hlocks

/-- The end of the `try` block. -/
theorem wp_cancelledAtEnd {cancelled : Option String} (hp : Prepared P order manifest environment store a)
    (hd : Decided P host order a)
    (hended : ∀ reason, cancelled = some reason → a.reuseDecision = .fresh ∧
      (CancelledInLookup P host order manifest environment ∨ skipsCompletion reason = true))
    (hsettled : cancelled = none → order.spec.reusePolicy = .requireExact →
      a.reuseDecision ≠ .fresh ∧ ¬ CancelledInLookup P host order manifest environment) :
    wp (match cancelled.or host.cancelledAtEnd with
      | some reason => (assign (Attempt.cancelled reason) : AttemptM Unit)
      | none => Pure.pure ())
      (fun _ a => Worked P host order manifest environment store a)
      (fun e a => Worked P host order manifest environment store (handleError e a)) a := by
  cases cancelled with
  | some reason =>
    obtain ⟨hfresh, hwhy⟩ := hended reason rfl
    refine ⟨hp.sameReport (.cancelled reason a), hd.cancelled reason, fun _ hsent => iff_of_true hfresh ?_⟩
    -- a dropped completion is not asked about
    exact hwhy.resolve_right fun hskip => by rw [show skipsCompletion reason = false from hsent] at hskip; cases hskip
  | none =>
    have hundecided : order.spec.reusePolicy = .requireExact →
        (a.reuseDecision = .fresh ↔ CancelledInLookup P host order manifest environment) :=
      fun hpolicy => iff_of_false (hsettled rfl hpolicy).1 (hsettled rfl hpolicy).2
    cases host.cancelledAtEnd with
    | some reason => exact ⟨hp.sameReport (.cancelled reason a), hd.cancelled reason, fun hpolicy _ => hundecided hpolicy⟩
    | none => exact ⟨hp, hd, fun hpolicy _ => hundecided hpolicy⟩

/-- After the `try` block of an attempt on its checkout. -/
theorem attempt_worked (h : CheckedOut P host order manifest environment store) :
    Worked P host order manifest environment store (attempt P host) := by
  refine attempt_of_checkedOut h ?_
  unfold Ends workOnCheckout
  simp only [wp_bind, wp_call, wp_assign]
  refine ⟨fun _ hcheckout => ?_, fun e he => ?_⟩
  · have hp : Prepared P order manifest environment store (atCheckout host order manifest environment store) :=
      atCheckout_prepared
    refine wp_mono (wp_reuseOrExecute { hp with } rfl hcheckout) (fun r a hs => ?_) fun _ _ he => he
    obtain ⟨executeFresh, cancelled⟩ := r
    cases executeFresh with
    | true =>
      simp only [if_true, wp_bind, wp_assign]
      have hrun := runSteps_sameReport host manifest.resultContract.isSome 0 manifest.executionSteps (a.decide .fresh)
      have hdecided : (a.decide .fresh).reuseDecision = .fresh := rfl
      have hprepared : Prepared P order manifest environment store (a.decide .fresh) := { hs.prepared with }
      exact wp_cancelledAtEnd (hprepared.sameReport hrun) (.of_fresh (hrun.decision.trans hdecided))
        (fun reason hr => ⟨hrun.decision.trans hdecided, (hs.ended reason hr).2⟩)
        fun _ hpolicy => absurd hpolicy (hs.executes rfl)
    | false =>
      simp only [Bool.false_eq_true, if_false]
      exact wp_cancelledAtEnd hs.prepared hs.decided hs.ended hs.settled
  · refine atCheckout_prepared.raised rfl e fun hc => ?_
    rw [hc.1] at he; cases he

/-! ## Dependency locks -/

/-- The first pass over the locks is made, and reads them. -/
def FirstPassHashes (host : Host) (order : AssignedWorkOrder) (manifest : TrustedManifest) : Prop :=
  order.spec.reusePolicy ≠ .never ∧ host.integrity .afterCheckout = .ok () ∧ HashesLocks host .first manifest

theorem handleError_keeps (e : PyException) (a : Attempt) :
    (handleError (.exception e) a).dependencyLocks = a.dependencyLocks ∧
      (handleError (.exception e) a).reuseIdentity = a.reuseIdentity ∧
      (handleError (.exception e) a).dependencyLockStatus = a.dependencyLockStatus ∧
      (handleError (.exception e) a).sourceQuiescent = a.sourceQuiescent := by
  simp only [handleError]
  split <;> exact ⟨rfl, rfl, rfl, rfl⟩

section kept

variable {locks : List DependencyLockHash}

theorem wp_lookUp_locks {identity : ReuseIdentity} {identityHash : String} (h : a.dependencyLocks = locks) :
    wp (lookUp host identity identityHash) (fun _ a => a.dependencyLocks = locks)
      (fun e a => (handleError e a).dependencyLocks = locks) a := by
  unfold lookUp
  split
  · exact h
  · exact h
  · split
    · exact h
    · exact (handleError_keeps _ a).1.trans h

theorem wp_decideReuse_locks {policy : ReusePolicy} {lookup : Option ReuseLookup} {cancelled : Option String}
    (h : a.dependencyLocks = locks) :
    wp (decideReuse host policy lookup cancelled) (fun _ a => a.dependencyLocks = locks)
      (fun e a => (handleError e a).dependencyLocks = locks) a := by
  unfold decideReuse
  split
  · exact h
  · simp only [wp_bind, wp_call, wp_assign]
    refine ⟨fun verified _ => ?_, fun e _ => (handleError_keeps e a).1.trans h⟩
    split
    · exact h
    · split <;> exact h
  · split <;> exact h

end kept

/-- Locks that the first pass has read stay. -/
theorem attempt_hashed (h : CheckedOut P host order manifest environment store)
    (hfirst : FirstPassHashes host order manifest) : Complete manifest (attempt P host).dependencyLocks := by
  obtain ⟨hnever, hcheckout, hbefore, locks, hlocks⟩ := hfirst
  by_cases hp : manifest.dependencyLockPaths = []
  · rcases (attempt_worked h).locks with hl | hl
    · rw [hl]; exact complete_nil hp
    · exact hl
  · suffices hl : (attempt P host).dependencyLocks = locks by
      rw [hl]; exact hashDependencyLocks_complete hlocks
    refine attempt_of_checkedOut (K := fun a => a.dependencyLocks = locks) h ?_
    unfold Ends workOnCheckout reuseOrExecute hashLocksForReuse
    simp only [wp_bind, wp_call, wp_assign, hcheckout, hnever, hp, if_false, hbefore, hlocks]
    refine ⟨fun _ _ => ⟨fun _ _ => ⟨fun locks' hl => ?_, by simp⟩, by simp⟩, by simp⟩
    obtain rfl : locks = locks' := Except.ok.inj hl
    refine ⟨fun _ _ => ⟨fun identity _ => ?_, fun e _ => (handleError_keeps e _).1⟩,
      fun e _ => (handleError_keeps e _).1⟩
    refine wp_mono (wp_lookUp_locks rfl) (fun r a ha => ?_) fun _ _ he => he
    refine wp_mono (wp_decideReuse_locks ha) (fun executeFresh a ha => ?_) fun _ _ he => he
    have hrun := runSteps_sameReport host manifest.resultContract.isSome 0 manifest.executionSteps (a.decide .fresh)
    cases executeFresh <;> simp only [wp_pure, Bool.false_eq_true, if_false, if_true, wp_bind, wp_assign] <;> split
    · exact ha
    · exact ha
    · exact hrun.locks.trans ha
    · exact hrun.locks.trans ha

theorem runSteps_quiescent (host : Host) (hasContract : Bool) (n : ℕ) (steps : List TrustedStep) (a : Attempt) :
    (runSteps host hasContract n steps a).sourceQuiescent =
      (a.sourceQuiescent && quiesces host hasContract n steps) := by
  induction steps generalizing n a with
  | nil => simp [runSteps, quiesces]
  | cons step rest ih =>
    unfold runSteps quiesces
    cases host.runStep n step with
    | deadlineExceeded cancelled text => cases cancelled <;> simp [Attempt.cancelled, Attempt.finish]
    | containmentCleanup => simp [Attempt.finish]
    | exception cancelled e => cases cancelled <;> simp [Attempt.cancelled, Attempt.finish]
    | result r =>
      simp only []
      by_cases hstop : (r.reviewed hasContract).status ≠ .succeeded ∧ step.required = true
      · have hgo : ((r.reviewed hasContract).status != .succeeded && step.required) = true := by simpa using hstop
        rw [if_pos hstop, hgo, Bool.true_or, Bool.and_true]
        rfl
      · have hgo : ((r.reviewed hasContract).status != .succeeded && step.required) = false := by
          rw [Bool.eq_false_iff]
          simpa using hstop
        rw [if_neg hstop, ih, hgo]
        simp [Bool.and_assoc]

/-- An attempt that could not hash the locks before its `finally` block. -/
structure Unhashed (host : Host) (order : AssignedWorkOrder) (manifest : TrustedManifest) (a : Attempt) : Prop where
  locks : a.dependencyLocks = []
  identity : a.reuseIdentity = none
  lockStatus : a.dependencyLockStatus = "not_declared"
  quiescent : a.sourceQuiescent = true ↔
    (order.spec.reusePolicy = .never → host.integrity .afterCheckout = .ok () →
      quiesces host manifest.resultContract.isSome 0 manifest.executionSteps = true)

theorem attempt_unhashed (h : CheckedOut P host order manifest environment store)
    (hp : manifest.dependencyLockPaths ≠ []) (hfirst : ¬ FirstPassHashes host order manifest) :
    Unhashed host order manifest (attempt P host) := by
  -- an exception before the steps leaves the source alone
  have hraised : ∀ (e : PyException) (a : Attempt), a.dependencyLocks = [] → a.reuseIdentity = none →
      a.dependencyLockStatus = "not_declared" → a.sourceQuiescent = true →
      (order.spec.reusePolicy = .never → host.integrity .afterCheckout ≠ .ok ()) →
      Unhashed host order manifest (handleError (.exception e) a) := by
    intro e a hl hid hs hq hnever
    obtain ⟨hl', hid', hs', hq'⟩ := handleError_keeps e a
    exact ⟨hl'.trans hl, hid'.trans hid, hs'.trans hs,
      iff_of_true (hq'.trans hq) fun hn hok => absurd hok (hnever hn)⟩
  refine attempt_of_checkedOut h ?_
  unfold Ends workOnCheckout reuseOrExecute hashLocksForReuse
  simp only [wp_bind, wp_call, wp_assign]
  refine ⟨fun _ hcheckout => ?_, fun e he => hraised e _ rfl rfl rfl rfl fun _ hok => by rw [he] at hok; cases hok⟩
  by_cases hnever : order.spec.reusePolicy = .never
  · simp only [hnever, if_true, wp_pure, Option.none_or, wp_bind, wp_assign]
    generalize ha₀ : Attempt.decide .fresh _ = a₀
    have hrun := runSteps_sameReport host manifest.resultContract.isSome 0 manifest.executionSteps a₀
    have hquiet := runSteps_quiescent host manifest.resultContract.isSome 0 manifest.executionSteps a₀
    have hdone : Unhashed host order manifest
        (runSteps host manifest.resultContract.isSome 0 manifest.executionSteps a₀) := by
      subst ha₀
      refine ⟨hrun.locks, hrun.identity, hrun.lockStatus, ?_⟩
      rw [hquiet]
      simp [hnever, hcheckout, Attempt.decide, Attempt.finish, atCheckout]
    cases host.cancelledAtEnd with
    | some reason => exact ⟨hdone.locks, hdone.identity, hdone.lockStatus, hdone.quiescent⟩
    | none => exact hdone
  · simp only [hnever, if_false, hp, wp_bind, wp_call, wp_assign]
    refine ⟨fun _ hbefore => ⟨fun locks hlocks => ?_, fun e _ => ?_⟩, fun e _ => ?_⟩
    · exact absurd ⟨hnever, hcheckout, hbefore, locks, hlocks⟩ hfirst
    · exact hraised e _ rfl rfl rfl rfl fun hn => absurd hn hnever
    · exact hraised e _ rfl rfl rfl rfl fun hn => absurd hn hnever

end Switchboard
