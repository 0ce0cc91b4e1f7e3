import Switchboard.Proof.Completions
import Switchboard.Spec.Artifacts

/-!
# Diagnostic steps

A step that is not required cannot fail the attempt by its status or its parsed result,
but its declared artifacts are captured together with those of the required steps.

* `captureArtifacts_ok_iff`: the capture succeeds when every declared artifact is
  captured within the limits.
* `runSteps_returns`, `attempt_going`: the steps of an undisturbed attempt.
* `pollOnce_succeeded_iff`: such an attempt succeeds exactly when the artifacts of all
  its steps are captured within the limits.
-/

namespace Switchboard

open Transaction Try

variable {P : Platform} {host : Host} {order : AssignedWorkOrder} {manifest : TrustedManifest} {environment : String}
  {store : EvidenceStore} {a : Attempt} {limits : EvidenceLimits} {files : ArtifactFiles}

/-! ## Artifacts -/

@[simp] theorem FileState.size_regular (size : ℕ) (sha256 : String) (stable : Bool) :
    (FileState.regular size sha256 stable).size = size := rfl

/-- What the capture of one artifact checks. -/
def Captured (limits : EvidenceLimits) (files : ArtifactFiles) (artifact : TrustedArtifact) : Prop :=
  ∃ size sha256, files.retained artifact.relativePath = .regular size sha256 true ∧ size ≤ limits.maximumArtifactBytes

theorem captureDeclaredArtifact_of_captured (howned : files.ownership = .ok ()) {artifact : TrustedArtifact}
    (h : Captured limits files artifact) : captureDeclaredArtifact limits files artifact = .ok () := by
  obtain ⟨size, sha256, hfile, hsize⟩ := h
  unfold ArtifactFiles.retained at hfile
  unfold captureDeclaredArtifact
  rw [howned]
  cases hrun : files.runDirectory artifact.relativePath with
  | regular s d st => simp [Bind.bind, Except.bind, Pure.pure, Except.pure]
  | irregular => rw [hrun] at hfile; cases hfile
  | missing =>
    rw [hrun] at hfile
    simp only [] at hfile
    simp [hfile, hsize, ensure, Bind.bind, Except.bind]

/-- **The loop of `finalize_artifacts`** passes when each artifact is within its limit and the sum within the
total. -/
theorem measureArtifacts_ok_iff (limits : EvidenceLimits) (files : ArtifactFiles)
    (declared : List (String × TrustedArtifact)) {total : ℕ}
    (htotal : total ≤ limits.maximumTotalBytes) :
    (∃ measured, measureArtifacts limits files total declared = .ok measured) ↔
      (∀ d ∈ declared, Captured limits files d.2) ∧
        total + (declared.map fun d => (files.retained d.2.relativePath).size).sum ≤ limits.maximumTotalBytes := by
  induction declared generalizing total with
  | nil => simp [measureArtifacts, htotal]
  | cons d rest ih =>
    obtain ⟨step, artifact⟩ := d
    unfold measureArtifacts
    simp only [List.forall_mem_cons, List.map_cons, List.sum_cons]
    cases hfile : files.retained artifact.relativePath with
    | missing => simp [Captured, hfile]
    | irregular => simp [Captured, hfile]
    | regular size sha256 stable =>
      have hcaptured : Captured limits files artifact ↔ stable = true ∧ size ≤ limits.maximumArtifactBytes := by
        simp [Captured, hfile, and_assoc]
      rw [hcaptured]
      simp only [except_bind_ok, ensure_ok, except_pure_ok, decide_eq_true_eq, FileState.size_regular]
      constructor
      · rintro ⟨measured, _, hsize, _, hsum, _, hstable, rest', hrest, -⟩
        obtain ⟨hall, hle⟩ := (ih hsum).1 ⟨rest', hrest⟩
        exact ⟨⟨⟨hstable, hsize⟩, hall⟩, by omega⟩
      · rintro ⟨⟨⟨hstable, hsize⟩, hall⟩, hle⟩
        have hsum : total + size ≤ limits.maximumTotalBytes := by omega
        obtain ⟨rest', hrest⟩ := (ih hsum).2 ⟨hall, by omega⟩
        exact ⟨_, (), hsize, (), hsum, (), hstable, rest', hrest, rfl⟩

theorem finalizeChecks_ok_iff (howned : files.ownership = .ok ()) {declared : List (String × TrustedArtifact)} :
    finalizeChecks limits files declared = .ok () ↔ WithinLimits limits files declared := by
  have hmeasured := measureArtifacts_ok_iff limits files declared (Nat.zero_le _)
  rw [Nat.zero_add] at hmeasured
  unfold finalizeChecks
  simp only [howned, except_bind_ok, ensure_ok, except_pure_ok, decide_eq_true_eq]
  constructor
  · rintro ⟨_, -, _, hcount, _, hdistinct, measured, hm, -⟩
    obtain ⟨hcaptured, htotal⟩ := hmeasured.1 ⟨measured, hm⟩
    exact ⟨hcount, hdistinct, hcaptured, htotal⟩
  · intro h
    obtain ⟨measured, hm⟩ := hmeasured.2 ⟨h.captured, h.total⟩
    exact ⟨(), trivial, (), h.count, (), h.distinct, measured, hm, trivial⟩

/-- **The artifacts of the attempted steps are captured together.** With the checkout intact and the store
owned, the capture succeeds exactly when every declared artifact is captured within the limits. -/
theorem captureArtifacts_ok_iff (hintact : ∀ site, host.integrity site = .ok ())
    (howned : files.ownership = .ok ()) (steps : List TrustedStep) :
    (∃ artifacts, captureArtifacts (host.withFiles limits files) store steps = .ok artifacts) ↔
      WithinLimits limits files (declarations steps) := by
  have hsites : ∀ site, (host.withFiles limits files).integrity site = .ok () := hintact
  unfold captureArtifacts
  simp only [hsites, except_bind_ok]
  constructor
  · rintro ⟨_, _, -, _, -, _, haccepts, -⟩
    exact (finalizeChecks_ok_iff howned).1 haccepts
  · intro h
    have hcaptured : ∀ d ∈ declarations steps, Captured limits files d.2 := h.captured
    obtain ⟨records, hrecords⟩ : ∃ records, ((declarations steps).mapM fun d => do
        let measured ← (host.withFiles limits files).measureArtifact d.2
        return artifactRecord store d.1 d.2 measured.1 measured.2) = Except.ok records := by
      refine mapM_returns fun d hd => ?_
      obtain ⟨size, sha256, hfile, -⟩ := hcaptured d hd
      refine ⟨artifactRecord store d.1 d.2 size sha256, ?_⟩
      simp [Host.withFiles, hfile, Bind.bind, Except.bind, Pure.pure, Except.pure]
    refine ⟨records, (), except_forM_ok.2 fun d hd => ?_, (), trivial, (), (finalizeChecks_ok_iff howned).2 h,
      hrecords⟩
    exact captureDeclaredArtifact_of_captured howned (hcaptured d hd)

/-! ## Steps -/

/-- The steps from the `n`-th on return, leave no process behind, and succeed where they are required. -/
def StepsPass (host : Host) (hasContract : Bool) (n : ℕ) (steps : List TrustedStep) : Prop :=
  ∀ i step, steps[i]? = some step → ∃ r, host.runStep (n + i) step = .result r ∧
    (r.reviewed hasContract).terminalReason ≠ some "descendant_cleanup_failed" ∧
    (step.required = true → (r.reviewed hasContract).status = .succeeded)

theorem StepsPass.tail {hasContract : Bool} {n : ℕ} {step : TrustedStep} {rest : List TrustedStep}
    (h : StepsPass host hasContract n (step :: rest)) : StepsPass host hasContract (n + 1) rest := by
  intro i s hs
  obtain ⟨r, hr⟩ := h (i + 1) s (by rw [List.getElem?_cons_succ]; exact hs)
  refine ⟨r, ?_⟩
  rw [Nat.add_assoc, Nat.add_comm 1 i]
  exact hr

/-- **All steps are attempted, and those that are not required change nothing but the results.** -/
theorem runSteps_returns {hasContract : Bool} {n : ℕ} {steps : List TrustedStep}
    (h : StepsPass host hasContract n steps) (hq : a.sourceQuiescent = true) :
    ∃ results, runSteps host hasContract n steps a =
      { a with attemptedSteps := a.attemptedSteps ++ steps, results := results } := by
  induction steps generalizing n a with
  | nil => exact ⟨a.results, by rw [List.append_nil]; rfl⟩
  | cons step rest ih =>
    obtain ⟨r, hr, hreason, hrequired⟩ := h 0 step rfl
    have hpass : ¬ ((r.reviewed hasContract).status ≠ .succeeded ∧ step.required = true) :=
      fun hfail => hfail.1 (hrequired hfail.2)
    have hquiet : (a.sourceQuiescent && (r.reviewed hasContract).terminalReason != some "descendant_cleanup_failed") =
        true := by
      rw [hq, Bool.true_and, bne_iff_ne]; exact hreason
    unfold runSteps
    rw [show host.runStep n step = .result r from hr]
    simp only [if_neg hpass]
    obtain ⟨results, hrest⟩ := ih (a :=
      { a with
        attemptedSteps := a.attemptedSteps ++ [step]
        sourceQuiescent := a.sourceQuiescent &&
          (r.reviewed hasContract).terminalReason != some "descendant_cleanup_failed"
        results := a.results ++ [r.reviewed hasContract] }) h.tail hquiet
    refine ⟨results, ?_⟩
    rw [hrest, hquiet, ← hq, List.append_assoc]
    rfl

/-! ## The attempt -/

/-- The attempt is succeeding so far, with these steps attempted. -/
structure Going (steps : List TrustedStep) (a : Attempt) : Prop where
  terminal : a.terminal = .succeeded
  reason : a.reason = none
  sent : a.skipCompletion = false
  quiescent : a.sourceQuiescent = true
  attempted : a.attemptedSteps = steps

/-- The dependency locks are read, or will be at the end. -/
def LocksRead (host : Host) (manifest : TrustedManifest) (a : Attempt) : Prop :=
  manifest.dependencyLockPaths ≠ [] → a.dependencyLockStatus ≠ "succeeded" →
    ∃ locks, hashDependencyLocks host .second manifest = .ok locks

section going

/-- The first pass over the locks reads them, so no second one is made. -/
theorem wp_hashLocksForReuse_going {locks : List DependencyLockHash} (h : HashedForReuse host manifest locks)
    (ha : Going [] a) :
    wp (hashLocksForReuse host manifest)
      (fun locks' a' => locks' = locks ∧ Going [] a' ∧ LocksRead host manifest a') (fun _ _ => False) a := by
  unfold hashLocksForReuse
  rcases h with ⟨hpaths, rfl⟩ | ⟨hpaths, hbefore, hlocks, hafter⟩
  · rw [if_pos hpaths, wp_pure]
    exact ⟨rfl, ha, fun hne => absurd hpaths hne⟩
  · rw [if_neg hpaths]
    simp only [wp_bind, wp_call, wp_assign, wp_pure, hbefore, hlocks, hafter, Except.ok.injEq, reduceCtorEq,
      false_implies, implies_true, and_true]
    rintro _ - locks' rfl _ -
    exact ⟨rfl, ⟨ha.terminal, ha.reason, ha.sent, ha.quiescent, ha.attempted⟩, fun _ hne => absurd rfl hne⟩

theorem wp_lookUp_going (manifest : TrustedManifest) {identity : ReuseIdentity} (hnone : host.cancelledAfterLookup = none)
    (hsource : NoSource P host identity) (ha : Going [] a) (hlocks : LocksRead host manifest a) :
    wp (lookUp host identity (P.reuseIdentityHash identity))
      (fun r a' => r.2 = none ∧ (∀ candidate, r.1.bind ReuseLookup.candidate = some candidate →
        ∃ reason, host.verifyReuseCandidate candidate = .ok (false, reason)) ∧
        Going [] a' ∧ LocksRead host manifest a') (fun _ _ => False) a := by
  have hkept : ∀ {a'}, Going [] a' → a'.dependencyLockStatus = a.dependencyLockStatus →
      Going [] a' ∧ LocksRead host manifest a' := by
    intro a' ha' hstatus
    exact ⟨ha', by unfold LocksRead; rw [hstatus]; exact hlocks⟩
  unfold NoSource at hsource
  unfold lookUp
  cases hresolve : host.resolveReuseCandidate identity (P.reuseIdentityHash identity) with
  | ok lookup =>
    rw [hresolve] at hsource
    exact ⟨hnone, hsource, hkept ⟨ha.terminal, ha.reason, ha.sent, ha.quiescent, ha.attempted⟩ rfl⟩
  | error e =>
    rw [hresolve] at hsource
    cases e with
    | ownershipLost credentialRejected => exact hsource.elim
    | exception e =>
      have hio : e.ioOrValue = true := hsource
      simp only [hio, if_true, wp_bind, wp_assign, wp_pure]
      exact ⟨hnone, (by simp), hkept ⟨ha.terminal, ha.reason, ha.sent, ha.quiescent, ha.attempted⟩ rfl⟩

theorem wp_decideReuse_going {policy : ReusePolicy} {lookup : Option ReuseLookup} (hpolicy : policy ≠ .requireExact)
    (hsource : ∀ candidate, lookup.bind ReuseLookup.candidate = some candidate →
      ∃ reason, host.verifyReuseCandidate candidate = .ok (false, reason))
    (ha : Going [] a) (hlocks : LocksRead host manifest a) :
    wp (decideReuse host policy lookup none)
      (fun executeFresh a' => executeFresh = true ∧ Going [] a' ∧ LocksRead host manifest a') (fun _ _ => False) a := by
  unfold decideReuse
  cases hcandidate : lookup.bind ReuseLookup.candidate with
  | none =>
    rw [if_neg hpolicy, wp_pure]
    exact ⟨rfl, ha, hlocks⟩
  | some candidate =>
    obtain ⟨reason, hverify⟩ := hsource candidate hcandidate
    simp only [wp_bind, wp_call, wp_assign, hverify, Except.ok.injEq, reduceCtorEq, false_implies, implies_true, and_true]
    rintro _ rfl
    simp only [hpolicy, Bool.false_eq_true, if_false]
    exact ⟨rfl, ⟨ha.terminal, ha.reason, ha.sent, ha.quiescent, ha.attempted⟩, hlocks⟩

theorem wp_reuseOrExecute_going (h : Undisturbed P host order manifest environment store) (ha : Going [] a) :
    wp (reuseOrExecute P host order manifest environment)
      (fun r a' => r = (true, none) ∧ Going [] a' ∧ LocksRead host manifest a') (fun _ _ => False) a := by
  unfold reuseOrExecute
  rcases h.fresh with ⟨hnever, hlocks⟩ | ⟨hallow, locks, identity, hlocks, hidentity, hsource⟩
  · rw [if_pos hnever, wp_pure]
    exact ⟨rfl, ha, fun hpaths _ => hlocks hpaths⟩
  · have hpolicy : order.spec.reusePolicy ≠ .never := by rw [hallow]; decide
    rw [if_neg hpolicy]
    simp only [wp_bind, wp_call, wp_assign, wp_pure]
    refine wp_mono (wp_hashLocksForReuse_going hlocks ha) ?_ fun _ _ hf => hf
    rintro locks' a₁ ⟨rfl, ha₁, hread⟩
    refine ⟨fun identity' hbuilt => ?_, fun e he => by rw [hidentity] at he; cases he⟩
    obtain rfl : identity = identity' := by rw [hidentity] at hbuilt; exact Except.ok.inj hbuilt
    refine wp_mono (wp_lookUp_going manifest h.uncancelled.1 hsource ?_ ?_) ?_ fun _ _ hf => hf
    · exact ⟨ha₁.terminal, ha₁.reason, ha₁.sent, ha₁.quiescent, ha₁.attempted⟩
    · exact hread
    · rintro ⟨lookup, cancelled⟩ a₂ ⟨hcancelled, hcandidate, ha₂, hread₂⟩
      obtain rfl : cancelled = none := hcancelled
      refine wp_mono (wp_decideReuse_going (by rw [hallow]; decide) hcandidate ha₂ hread₂) ?_ fun _ _ hf => hf
      rintro _ a₃ ⟨rfl, ha₃, hread₃⟩
      exact ⟨rfl, ha₃, hread₃⟩

end going

/-- **After the `try` block of an undisturbed attempt** every step was attempted and nothing has failed. -/
theorem attempt_going (h : Undisturbed P host order manifest environment store)
    (hrequired : RequiredStepsSucceed host manifest) :
    Going manifest.executionSteps (attempt P host) ∧ LocksRead host manifest (attempt P host) := by
  have hpass : StepsPass host manifest.resultContract.isSome 0 manifest.executionSteps := by
    intro i step hstep
    obtain ⟨r, hr, hreason⟩ := h.returns i step hstep
    rw [Nat.zero_add]
    exact ⟨r, hr, hreason, fun hreq => hrequired i step r hstep hreq hr⟩
  refine attempt_of_checkedOut (K := fun a => Going manifest.executionSteps a ∧ LocksRead host manifest a)
    h.toCheckedOut ?_
  unfold Ends workOnCheckout
  simp only [wp_bind, wp_call, wp_assign]
  refine ⟨fun _ _ => ?_, fun e he => by rw [h.intact] at he; cases he⟩
  refine wp_mono (wp_reuseOrExecute_going h ⟨rfl, rfl, rfl, rfl, rfl⟩) ?_ fun _ _ hf => hf.elim
  rintro _ a ⟨rfl, ha, hread⟩
  simp only [if_true, wp_bind, wp_assign, Option.none_or, h.uncancelled.2, wp_pure]
  have hquiet : (a.decide .fresh).sourceQuiescent = true := ha.quiescent
  obtain ⟨results, hsteps⟩ := runSteps_returns hpass hquiet
  rw [hsteps]
  refine ⟨⟨ha.terminal, ha.reason, ha.sent, ha.quiescent, ?_⟩, hread⟩
  show a.attemptedSteps ++ manifest.executionSteps = manifest.executionSteps
  rw [ha.attempted, List.nil_append]

/-! ## The `finally` block -/

theorem Undisturbed.withFiles (h : Undisturbed P host order manifest environment store) (limits : EvidenceLimits)
    (files : ArtifactFiles) : Undisturbed P (host.withFiles limits files) order manifest environment store :=
  ⟨⟨h.assigned, h.fetched, h.monitored, h.running, h.identified, h.stored, h.checkedOut⟩, h.admitted, h.intact,
    h.uncancelled, h.fresh, h.returns, h.cleaned, h.summarised, h.identifies, h.attests, h.fingerprinted, h.recorded⟩

theorem hashLocksLate_going {locks : List DependencyLockHash} {steps : List TrustedStep}
    (hintact : ∀ site, host.integrity site = .ok ()) (hlocks : hashDependencyLocks host .second manifest = .ok locks)
    (ha : Going steps a) : Going steps (hashLocksLate host manifest a) := by
  unfold hashLocksLate
  simp only [Bind.bind, Try.bind, call, assign, hintact, hlocks]
  exact ⟨ha.terminal, ha.reason, ha.sent, ha.quiescent, ha.attempted⟩

/-- The source of an undisturbed attempt, up to its artifacts. -/
theorem settleLocks_going {steps : List TrustedStep} (hintact : ∀ site, host.integrity site = .ok ())
    (hverified : a.sourceIntegrityVerified = true) (ha : Going steps a) (hread : LocksRead host manifest a) :
    Going steps (settleLocks host manifest (verifySource host a)) := by
  have hsource : verifySource host a = a := by
    unfold verifySource
    rw [if_pos ha.quiescent, hintact]
  have hgood : ¬ (a.sourceQuiescent = false ∨ a.sourceIntegrityVerified = false) := by
    simp [ha.quiescent, hverified]
  rw [hsource]
  unfold settleLocks
  rw [if_neg hgood]
  by_cases hlate : manifest.dependencyLockPaths ≠ [] ∧ a.dependencyLockStatus ≠ "succeeded"
  · obtain ⟨locks, hlocks⟩ := hread hlate.1 hlate.2
    rw [if_pos hlate]
    exact hashLocksLate_going hintact hlocks ha
  · rw [if_neg hlate]
    exact ha

/-- How the attempt stands once its source is settled: only the artifacts decide. -/
structure Decides (captured : Prop) (a : Attempt) : Prop where
  sent : a.skipCompletion = false
  succeeded : a.terminal = .succeeded ↔ captured
  failed : ¬ captured → a.terminal = .failed ∧ a.reason = some "artifact_finalization_failed"

/-- What such an attempt reports. -/
theorem Decides.completion {captured : Prop} (h : Decides captured a) (summary : String) :
    ((a.completion summary).status = .succeeded ↔ captured) ∧
      (¬ captured → (a.completion summary).status = .failed ∧
        (a.completion summary).terminalReason = some "artifact_finalization_failed") := by
  have hstatus : (a.completion summary).status = a.terminal.toRun := rfl
  rw [hstatus]
  constructor
  · rw [← h.succeeded]
    cases a.terminal <;> simp [TerminalStatus.toRun]
  · intro hno
    obtain ⟨hterminal, hreason⟩ := h.failed hno
    rw [hterminal]
    exact ⟨rfl, hreason⟩

theorem settleArtifacts_going (host : Host) {steps : List TrustedStep} (hstore : a.store = some store)
    (hverified : a.sourceIntegrityVerified = true) (ha : Going steps a) :
    Decides (∃ artifacts, captureArtifacts host store steps = .ok artifacts) (settleArtifacts host a) := by
  have hgood : a.sourceQuiescent = true ∧ a.sourceIntegrityVerified = true := ⟨ha.quiescent, hverified⟩
  unfold settleArtifacts
  rw [hstore]
  simp only [if_pos hgood, ha.attempted]
  cases hcapture : captureArtifacts host store steps with
  | ok artifacts => exact ⟨ha.sent, iff_of_true ha.terminal ⟨artifacts, rfl⟩, fun hno => absurd ⟨artifacts, rfl⟩ hno⟩
  | error e =>
    simp only []
    rw [Attempt.failUnlessFailed, if_pos (by exact ha.terminal)]
    exact ⟨ha.sent, iff_of_false nofun nofun, fun _ => ⟨rfl, rfl⟩⟩

/-- **The `finally` block of an undisturbed attempt**: the artifacts of all attempted steps decide. -/
theorem settleSource_going {steps : List TrustedStep} (hintact : ∀ site, host.integrity site = .ok ())
    (hcleaned : host.cleanup = .ok ()) (hp : Prepared P order manifest environment store a) (ha : Going steps a)
    (hread : LocksRead host manifest a) :
    Decides (∃ artifacts, captureArtifacts host store steps = .ok artifacts) (settleSource host a) := by
  have hgoing := settleLocks_going hintact hp.verified ha hread
  have hv := verifySource_settles host a
  have hver : (verifySource host a).sourceIntegrityVerified = true :=
    (verifySource_verified hp.verified).2 ⟨ha.quiescent, hintact .atEnd⟩
  obtain ⟨hs, -, hverified⟩ := settleLocks_spec host manifest (verifySource host a)
  have hstore : (settleLocks host manifest (verifySource host a)).store = some store :=
    hs.sameStore.trans (hv.sameStore.trans hp.stored)
  have hdecides := settleArtifacts_going host hstore (hverified.trans hver) hgoing
  unfold settleSource
  rw [if_pos hp.worktree, hp.fetched]
  simp only []
  generalize settleArtifacts host (settleLocks host manifest (verifySource host a)) = a₁ at hdecides ⊢
  unfold settleCleanup
  rw [hcleaned]
  split
  · exact ⟨hdecides.sent, hdecides.succeeded, hdecides.failed⟩
  · split <;> exact ⟨hdecides.sent, hdecides.succeeded, hdecides.failed⟩

/-- Evidence that can be built and recorded changes nothing else. -/
theorem provideEvidence_recorded (runId : ℕ) {identityHash : String}
    (h : Undisturbed P host order manifest environment store) (a : Attempt) :
    ∃ evidence, provideEvidence P host runId order manifest environment identityHash a =
      { a with evidence := some evidence } := by
  unfold provideEvidence
  simp only [h.attests]
  have hbuilt : ∀ provenance t, ∃ evidence,
      buildEvidence P host runId order manifest environment provenance t a = .ok evidence := by
    intro provenance t
    unfold buildEvidence
    simp only [except_bind_ok, except_pure_ok]
    obtain ⟨fingerprint, hf⟩ := h.fingerprinted _
    exact ⟨_, fingerprint, hf, rfl⟩
  obtain ⟨evidence, he⟩ := hbuilt (reuseProvenance identityHash a) (host.clock 2)
  simp only [he, h.recorded]
  exact ⟨evidence, rfl⟩

theorem finalizeEvidence_recorded (runId : ℕ) {captured : Prop}
    (h : Undisturbed P host order manifest environment store)
    (hp : Prepared P order manifest environment store a)
    (hdecides : Decides captured (settleSource host a)) :
    Decides captured (finalizeEvidence P host runId (settleSource host a)) := by
  have hs : SettledSource host manifest store a (settleSource host a) := settleSource_settled hp
  generalize settleSource host a = a₁ at hs hdecides ⊢
  have hkept : ∀ {evidence environment identity hash}, Decides captured
      { a₁ with
        evidence := evidence, environment := environment, reuseIdentity := identity, reuseIdentityHash := hash } :=
    ⟨hdecides.sent, hdecides.succeeded, hdecides.failed⟩
  obtain ⟨hstore, horder, hmanifest, hid, hhash, henv⟩ :
      a₁.store = some store ∧ a₁.order = some order ∧ a₁.manifest = some manifest ∧
        a₁.reuseIdentity = a.reuseIdentity ∧ a₁.reuseIdentityHash = a.reuseIdentityHash ∧
        a₁.environment = some environment := by
    obtain ⟨_, _, _, _, _, _, _, _, rfl, -⟩ := hs.settles
    exact ⟨hp.stored, hp.assigned, hp.fetched, rfl, rfl, hp.identified⟩
  unfold finalizeEvidence
  rw [hstore, horder, hmanifest]
  simp only []
  split
  · unfold settleEvidence settleIdentity
    rw [henv]
    simp only [Option.elim]
    rcases hp.identity with ⟨hnone, hnohash⟩ | ⟨locks, -, hsome, hsomehash⟩
    · rw [hid, hnone, hhash, hnohash]
      have hbuild : buildReuseIdentity P host .second order manifest environment a₁.dependencyLocks =
          .ok (reuseIdentity P order manifest environment a₁.dependencyLocks) :=
        buildReuseIdentity_ok.2 ⟨rfl, h.identifies _⟩
      simp only [hbuild, Bind.bind, Except.bind, Pure.pure, Except.pure]
      obtain ⟨evidence, he⟩ := provideEvidence_recorded runId h _
      rw [he]
      exact hkept
    · rw [hid, hsome, hhash, hsomehash]
      simp only []
      obtain ⟨evidence, he⟩ := provideEvidence_recorded runId h _
      rw [he]
      exact hkept
  · exact hdecides

/-! ## Polls -/

/-- **Required steps and all artifacts decide the outcome.** An undisturbed attempt whose required steps
succeed reports success exactly when every artifact that its steps declare, required or not, is captured within
the limits; otherwise it reports a failure of the artifacts. The status and the parsed result of a step that is
not required play no part. -/
theorem pollOnce_succeeded_iff (h : Undisturbed P host order manifest environment store)
    (hrequired : RequiredStepsSucceed host manifest) (limits : EvidenceLimits) (files : ArtifactFiles)
    (howned : files.ownership = .ok ()) (runId : ℕ) :
    ∃ completion, pollOnce P (host.withFiles limits files) runId = .sent completion ∧
      (completion.status = .succeeded ↔ WithinLimits limits files (declarations manifest.executionSteps)) ∧
      (completion.status ≠ .succeeded →
        completion.status = .failed ∧ completion.terminalReason = some "artifact_finalization_failed") := by
  have h' := h.withFiles limits files
  obtain ⟨hgoing, hread⟩ := attempt_going h' hrequired
  have hp := (attempt_worked h'.toCheckedOut).toPrepared
  have hsource := settleSource_going h'.intact h'.cleaned hp hgoing hread
  have hdecides := finalizeEvidence_recorded runId h' hp hsource
  rw [captureArtifacts_ok_iff h.intact howned] at hdecides
  have horder : (settleSource (host.withFiles limits files) (attempt P (host.withFiles limits files))).order =
      some order := by
    obtain ⟨_, _, _, _, _, _, _, _, he, -⟩ := settleSource_settles (host.withFiles limits files)
      (attempt P (host.withFiles limits files))
    rw [he]
    exact hp.assigned
  obtain ⟨summary, hsummary⟩ := h'.summarised
    (settleSource (host.withFiles limits files) (attempt P (host.withFiles limits files))).results
  unfold pollOnce
  simp only [h'.admitted, horder, Option.elim_some, hsummary, hdecides.sent, Bool.false_eq_true, if_false]
  obtain ⟨hsucceeded, hfailed⟩ := hdecides.completion summary
  exact ⟨_, rfl, hsucceeded, fun hstatus => hfailed fun hcaptured => hstatus (hsucceeded.2 hcaptured)⟩

/-! ## A diagnostic report that was not written -/

def testStep : TrustedStep :=
  { sampleStep with artifacts := [⟨"log", "logs/unit.stdout.log", "text/plain", false⟩] }

def coverageStep : TrustedStep :=
  { sampleStep with
    id := "full-src-coverage", required := false, diagnosticOnly := true
    artifacts := [⟨"coverage-xml", "build/reports/full-src-coverage.xml", "application/xml", false⟩] }

def coverageManifest : TrustedManifest := { sampleManifest with executionSteps := [testStep, coverageStep] }

def coveragePlatform : Platform := { samplePlatform with manifests := [coverageManifest] }

def coverageOrder : AssignedWorkOrder :=
  ⟨1, { schemaVersion := 1, repositoryFullName := "org/repo", commitSha := sampleSha, manifestId := 1
        manifestName := "tests", manifestVersion := "1", manifestDigest := "digest", manifestParameters := []
        requiredCapabilities := [], permittedPaths := [], forbiddenScopeNotes := "", expectedArtifactKinds := []
        approvalPolicy := .explicit, timeoutSeconds := 600, resourceMetadata := [], networkPolicy := .disabled
        repositoryWriteAllowed := false, preferredExecutor := none, costCeiling := none
        routingPolicy := .firstAvailable, maximumCostUnits := none, requiredQuotaUnits := 0, reusePolicy := .never
        executionPolicyHash := "policy" }⟩

/-- The diagnostic step fails; nothing else does. -/
def coverageHost : Host :=
  { sampleHost coverageOrder with
    runStep := fun _ s => .result ⟨s.id, if s.required then .succeeded else .failed, none, false⟩ }

def coverageLimits : EvidenceLimits := ⟨64, 1000, 5000⟩

/-- The log of the test step is in the run directory; the report is at `report` in the checkout. -/
def coverageFiles (report : FileState) : ArtifactFiles :=
  { ownership := .ok ()
    runDirectory := fun path => if path = "logs/unit.stdout.log" then .regular 100 "digest" true else .missing
    checkout := fun path => if path = "build/reports/full-src-coverage.xml" then report else .missing }

theorem coverageHost_undisturbed :
    Undisturbed coveragePlatform coverageHost coverageOrder coverageManifest "env" ⟨1000⟩ where
  assigned := rfl
  fetched := by rfl
  monitored := rfl
  running := rfl
  identified := rfl
  stored := rfl
  checkedOut := rfl
  admitted := rfl
  intact _ := rfl
  uncancelled := ⟨rfl, rfl⟩
  fresh := .inl ⟨rfl, fun hpaths => absurd rfl hpaths⟩
  returns n step _ := ⟨_, rfl, nofun⟩
  cleaned := rfl
  summarised _ := ⟨_, rfl⟩
  identifies _ := rfl
  attests _ := rfl
  fingerprinted _ := ⟨_, rfl⟩
  recorded _ := rfl

theorem coverageHost_required : RequiredStepsSucceed coverageHost coverageManifest := by
  intro n step r _ hrequired hr
  obtain rfl := StepOutcome.result.inj hr
  simp [StepResult.reviewed, hrequired]

/-- The diagnostic step fails but leaves its report: the attempt succeeds. -/
theorem pollOnce_succeeded_diagnostic :
    ∃ completion,
      pollOnce coveragePlatform (coverageHost.withFiles coverageLimits (coverageFiles (.regular 200 "digest" true))) 1 =
        .sent completion ∧ completion.status = .succeeded := by
  obtain ⟨completion, hsent, hiff, -⟩ := pollOnce_succeeded_iff coverageHost_undisturbed coverageHost_required
    coverageLimits (coverageFiles (.regular 200 "digest" true)) rfl 1
  refine ⟨completion, hsent, hiff.2 ⟨by decide, by decide, ?_, by decide⟩⟩
  refine List.forall_mem_cons.2 ⟨⟨100, "digest", rfl, by decide⟩, List.forall_mem_cons.2 ⟨?_, nofun⟩⟩
  exact ⟨200, "digest", rfl, by decide⟩

/-- The diagnostic step leaves no report: the attempt fails, though everything that is required is there. -/
theorem pollOnce_failed_diagnostic :
    Undisturbed coveragePlatform coverageHost coverageOrder coverageManifest "env" ⟨1000⟩ ∧
      RequiredStepsSucceed coverageHost coverageManifest ∧
      WithinLimits coverageLimits (coverageFiles .missing)
        (declarations (coverageManifest.executionSteps.filter TrustedStep.required)) ∧
      (pollOnce coveragePlatform (coverageHost.withFiles coverageLimits (coverageFiles .missing)) 1).completion?.map
        (fun c => (c.status, c.terminalReason)) = some (.failed, some "artifact_finalization_failed") := by
  refine ⟨coverageHost_undisturbed, coverageHost_required, ⟨by decide, by decide, ?_, by decide⟩, by decide +kernel⟩
  exact List.forall_mem_cons.2 ⟨⟨100, "digest", rfl, by decide⟩, nofun⟩

end Switchboard
