import Switchboard.Proof.Worker

/-!
# What the `finally` block reports

* `settleSource_settled`: what it does with the source of the attempt.
* `finalizeEvidence_reports`: the evidence agrees with the rest of the completion.
* `Reports.complete_iff`: when the reported identity names the declared locks.
-/

namespace Switchboard

open Transaction Try

variable {P : Platform} {host : Host} {order : AssignedWorkOrder} {manifest : TrustedManifest} {environment : String}
  {store : EvidenceStore} {a : Attempt}

/-! ## The source in the `finally` block -/

/-- The variables that the `finally` block assigns before it builds evidence. No failure becomes a success. -/
def Settles (a a' : Attempt) : Prop :=
  ∃ terminal reason cleanup artifacts artifactStatus locks lockStatus verified,
    a' = { a with
      terminal := terminal, reason := reason, cleanup := cleanup, artifacts := artifacts
      artifactStatus := artifactStatus, dependencyLocks := locks, dependencyLockStatus := lockStatus
      sourceIntegrityVerified := verified } ∧
    (a.terminal ≠ .succeeded → terminal ≠ .succeeded)

theorem Settles.refl (a : Attempt) : Settles a a := ⟨_, _, _, _, _, _, _, _, rfl, id⟩

theorem Settles.trans {a₁ a₂ a₃ : Attempt} (h : Settles a₁ a₂) (h' : Settles a₂ a₃) : Settles a₁ a₃ := by
  obtain ⟨_, _, _, _, _, _, _, _, rfl, ht⟩ := h
  obtain ⟨_, _, _, _, _, _, _, _, rfl, ht'⟩ := h'
  exact ⟨_, _, _, _, _, _, _, _, rfl, fun hne => ht' (ht hne)⟩

theorem Settles.quiescent {a' : Attempt} (h : Settles a a') : a'.sourceQuiescent = a.sourceQuiescent := by
  obtain ⟨_, _, _, _, _, _, _, _, rfl, -⟩ := h
  rfl

theorem Settles.sameStore {a' : Attempt} (h : Settles a a') : a'.store = a.store := by
  obtain ⟨_, _, _, _, _, _, _, _, rfl, -⟩ := h
  rfl

theorem failUnlessFailed_settles (reason : String) (a : Attempt) : Settles a (a.failUnlessFailed reason) := by
  unfold Attempt.failUnlessFailed
  split
  · exact ⟨_, _, _, _, _, _, _, _, rfl, fun _ => nofun⟩
  · exact .refl a

theorem verifySource_settles (host : Host) (a : Attempt) : Settles a (verifySource host a) := by
  unfold verifySource
  split
  · split
    · exact .refl a
    · exact (failUnlessFailed_settles "checkout_integrity_failed" a).trans ⟨_, _, _, _, _, _, _, _, rfl, id⟩
  · exact ⟨_, _, _, _, _, _, _, _, rfl, id⟩

theorem settleCleanup_settles (host : Host) (a : Attempt) : Settles a (settleCleanup host a) := by
  unfold settleCleanup
  split
  · exact ⟨_, _, _, _, _, _, _, _, rfl, id⟩
  · split
    · exact ⟨_, _, _, _, _, _, _, _, rfl, id⟩
    · split
      · exact ⟨_, _, _, _, _, _, _, _, rfl, id⟩
      · exact Settles.trans ⟨_, _, _, _, _, _, _, _, rfl, id⟩ (failUnlessFailed_settles "cleanup_failed" _)

section fields

variable (reason : String) (a : Attempt)

@[simp] theorem failUnlessFailed_locks : (a.failUnlessFailed reason).dependencyLocks = a.dependencyLocks := by
  unfold Attempt.failUnlessFailed; split <;> rfl

@[simp] theorem failUnlessFailed_artifacts : (a.failUnlessFailed reason).artifacts = a.artifacts := by
  unfold Attempt.failUnlessFailed; split <;> rfl

@[simp] theorem failUnlessFailed_verified :
    (a.failUnlessFailed reason).sourceIntegrityVerified = a.sourceIntegrityVerified := by
  unfold Attempt.failUnlessFailed; split <;> rfl

end fields

/-- The source of the attempt may still be read. -/
def Intact (host : Host) (a : Attempt) : Prop := a.sourceQuiescent = true ∧ host.integrity .atEnd = .ok ()

theorem verifySource_verified (h : a.sourceIntegrityVerified = true) :
    (verifySource host a).sourceIntegrityVerified = true ↔ Intact host a := by
  unfold verifySource Intact
  by_cases hq : a.sourceQuiescent = true
  · cases hi : host.integrity .atEnd with
    | ok _ => simp [hq, h]
    | error e => simp [hq]
  · simp [hq]

theorem verifySource_keeps (host : Host) (a : Attempt) :
    (verifySource host a).dependencyLocks = a.dependencyLocks ∧
      (verifySource host a).dependencyLockStatus = a.dependencyLockStatus ∧
      (verifySource host a).artifacts = a.artifacts := by
  unfold verifySource Attempt.failUnlessFailed
  split
  · split
    · exact ⟨rfl, rfl, rfl⟩
    · split <;> exact ⟨rfl, rfl, rfl⟩
  · exact ⟨rfl, rfl, rfl⟩

/-- The second pass over the locks: what it reads replaces what the first pass left. -/
theorem hashLocksLate_spec (host : Host) (manifest : TrustedManifest) (a : Attempt) :
    Settles a (hashLocksLate host manifest a) ∧
      (hashLocksLate host manifest a).artifacts = a.artifacts ∧
      (hashLocksLate host manifest a).sourceIntegrityVerified = a.sourceIntegrityVerified ∧
      (HashesLocks host .second manifest → Complete manifest (hashLocksLate host manifest a).dependencyLocks) ∧
      (¬ HashesLocks host .second manifest → (hashLocksLate host manifest a).dependencyLocks = a.dependencyLocks) := by
  have hfail : ∀ (e : PyException) (a' : Attempt),
      Settles a' ({ a' with dependencyLockStatus := "failed:" ++ e.typeName }.failUnlessFailed
        "dependency_lock_hash_failed") := fun e a' =>
    Settles.trans ⟨_, _, _, _, _, _, _, _, rfl, id⟩ (failUnlessFailed_settles _ _)
  unfold hashLocksLate
  cases hbefore : host.integrity (.beforeLocks .second) with
  | error e =>
    have hno : ¬ HashesLocks host .second manifest := fun h => by rw [h.1] at hbefore; cases hbefore
    simp only [Bind.bind, Try.bind, call]
    exact ⟨hfail e a, by simp, by simp, fun h => absurd h hno, by simp⟩
  | ok _ =>
    cases hlocks : hashDependencyLocks host .second manifest with
    | error e =>
      have hno : ¬ HashesLocks host .second manifest := fun h => by
        obtain ⟨locks, hl⟩ := h.2
        rw [hl] at hlocks; cases hlocks
      simp only [Bind.bind, Try.bind, call]
      exact ⟨hfail e a, by simp, by simp, fun h => absurd h hno, by simp⟩
    | ok locks =>
      have hyes : HashesLocks host .second manifest := ⟨hbefore, locks, hlocks⟩
      have hc := hashDependencyLocks_complete hlocks
      cases hafter : host.integrity (.afterLocks .second) with
      | error e =>
        simp only [Bind.bind, Try.bind, call, assign]
        exact ⟨Settles.trans ⟨_, _, _, _, _, locks, _, _, rfl, id⟩ (hfail e { a with dependencyLocks := locks }),
          by simp, by simp, fun _ => by simpa using hc, fun hno => absurd hyes hno⟩
      | ok _ =>
        simp only [Bind.bind, Try.bind, call, assign]
        exact ⟨⟨_, _, _, _, _, _, _, _, rfl, id⟩, trivial, trivial, fun _ => hc, fun hno => absurd hyes hno⟩

theorem settleLocks_spec (host : Host) (manifest : TrustedManifest) (a : Attempt) :
    Settles a (settleLocks host manifest a) ∧
      (settleLocks host manifest a).artifacts = a.artifacts ∧
      (settleLocks host manifest a).sourceIntegrityVerified = a.sourceIntegrityVerified := by
  unfold settleLocks
  split
  · exact ⟨⟨_, _, _, _, _, _, _, _, rfl, id⟩, rfl, rfl⟩
  · split
    · obtain ⟨hs, hart, hver, -, -⟩ := hashLocksLate_spec host manifest a
      exact ⟨hs, hart, hver⟩
    · exact ⟨.refl a, rfl, rfl⟩

/-- The locks of an intact source, after both passes. -/
theorem settleLocks_complete (host : Host) (hq : a.sourceQuiescent = true) (hv : a.sourceIntegrityVerified = true)
    (hnil : a.dependencyLocks = [] ∨ Complete manifest a.dependencyLocks)
    (hstatus : a.dependencyLockStatus = "succeeded" → Complete manifest a.dependencyLocks) :
    (Complete manifest (settleLocks host manifest a).dependencyLocks ↔
      Complete manifest a.dependencyLocks ∨ HashesLocks host .second manifest) ∧
    ((settleLocks host manifest a).dependencyLocks = [] ∨
      Complete manifest (settleLocks host manifest a).dependencyLocks) := by
  unfold settleLocks
  rw [if_neg (by simp [hq, hv])]
  obtain ⟨-, -, -, hyes, hno⟩ := hashLocksLate_spec host manifest a
  by_cases hpass : manifest.dependencyLockPaths ≠ [] ∧ a.dependencyLockStatus ≠ "succeeded"
  · rw [if_pos hpass]
    by_cases hsecond : HashesLocks host .second manifest
    · exact ⟨iff_of_true (hyes hsecond) (.inr hsecond), .inr (hyes hsecond)⟩
    · rw [hno hsecond]
      exact ⟨⟨.inl, fun h => h.resolve_right hsecond⟩, hnil⟩
  · rw [if_neg hpass]
    -- no second pass: nothing is declared, or the first pass succeeded
    have hc : Complete manifest a.dependencyLocks := by
      by_cases hp : manifest.dependencyLockPaths = []
      · rcases hnil with hl | hl
        · rw [hl]; exact complete_nil hp
        · exact hl
      · exact hstatus (by_contra fun hs => hpass ⟨hp, hs⟩)
    exact ⟨iff_of_true hc (.inl hc), .inr hc⟩

theorem captureArtifacts_retention {steps : List TrustedStep} {artifacts : List ArtifactRecord}
    (h : captureArtifacts host store steps = .ok artifacts) :
    ∀ x ∈ artifacts, x.retentionExpiresAt = store.retentionExpiresAt := by
  unfold captureArtifacts at h
  simp only [except_bind_ok] at h
  obtain ⟨-, -, -, -, -, -, h⟩ := h
  intro x hx
  -- each record comes from one measured declaration
  obtain ⟨declaration, -, hrecord⟩ := exists_of_mem_mapM h hx
  obtain ⟨measured, -, hrecord⟩ := except_bind_ok.1 hrecord
  rw [← except_pure_ok.1 hrecord]
  rfl

theorem settleArtifacts_settles (host : Host) (a : Attempt) : Settles a (settleArtifacts host a) := by
  unfold settleArtifacts
  split
  · exact .refl a
  · split
    · split
      · exact ⟨_, _, _, _, _, _, _, _, rfl, id⟩
      · exact Settles.trans ⟨_, _, _, _, _, _, _, _, rfl, id⟩
          (failUnlessFailed_settles "artifact_finalization_failed" _)
    · exact .refl a

theorem settleArtifacts_spec (host : Host) (hstore : a.store = some store) (hart : a.artifacts = []) :
    Settles a (settleArtifacts host a) ∧
      (settleArtifacts host a).sourceIntegrityVerified = a.sourceIntegrityVerified ∧
      (settleArtifacts host a).dependencyLocks = a.dependencyLocks ∧
      ∀ x ∈ (settleArtifacts host a).artifacts, x.retentionExpiresAt = store.retentionExpiresAt := by
  have hnone : ∀ x ∈ a.artifacts, x.retentionExpiresAt = store.retentionExpiresAt := by simp [hart]
  refine ⟨settleArtifacts_settles host a, ?_⟩
  unfold settleArtifacts
  split
  · exact ⟨rfl, rfl, hnone⟩
  · rename_i store' hs
    obtain rfl : store = store' := Option.some.inj (hstore.symm.trans hs)
    split
    · split
      · rename_i artifacts hcap
        exact ⟨rfl, rfl, captureArtifacts_retention hcap⟩
      · exact ⟨by simp, by simp, by simpa using hnone⟩
    · exact ⟨rfl, rfl, hnone⟩

theorem settleCleanup_spec (host : Host) (a : Attempt) :
    (settleCleanup host a).sourceIntegrityVerified = a.sourceIntegrityVerified ∧
      (settleCleanup host a).dependencyLocks = a.dependencyLocks ∧
      (settleCleanup host a).artifacts = a.artifacts := by
  unfold settleCleanup
  split
  · exact ⟨rfl, rfl, rfl⟩
  · split
    · exact ⟨rfl, rfl, rfl⟩
    · split <;> simp

/-- What the `finally` block has done with the source of an attempt on its checkout. -/
structure SettledSource (host : Host) (manifest : TrustedManifest) (store : EvidenceStore) (a a' : Attempt) :
    Prop where
  settles : Settles a a'
  verified : a'.sourceIntegrityVerified = true ↔ Intact host a
  artifacts : ∀ x ∈ a'.artifacts, x.retentionExpiresAt = store.retentionExpiresAt
  complete : Intact host a → (Complete manifest a'.dependencyLocks ↔
    Complete manifest a.dependencyLocks ∨ HashesLocks host .second manifest)
  locks : Intact host a → a'.dependencyLocks = [] ∨ Complete manifest a'.dependencyLocks

theorem settleSource_settled (h : Prepared P order manifest environment store a) :
    SettledSource host manifest store a (settleSource host a) := by
  have hv := verifySource_settles host a
  have hver : (verifySource host a).sourceIntegrityVerified = true ↔ Intact host a := verifySource_verified h.verified
  unfold settleSource
  rw [if_pos h.worktree, h.fetched]
  simp only []
  obtain ⟨hlocks₁, hstatus₁, hart₁⟩ := verifySource_keeps host a
  generalize verifySource host a = a₁ at hv hver hlocks₁ hstatus₁ hart₁ ⊢
  obtain ⟨hs₂, hart₂, hver₂⟩ := settleLocks_spec host manifest a₁
  have hcomplete := fun hi : Intact host a =>
    settleLocks_complete host (hv.quiescent.trans hi.1) (hver.2 hi)
      (by rw [hlocks₁]; exact h.locks) (by rw [hlocks₁, hstatus₁]; exact h.lockStatus)
  generalize settleLocks host manifest a₁ = a₂ at hs₂ hart₂ hver₂ hcomplete ⊢
  have hstore₂ : a₂.store = some store := hs₂.sameStore.trans (hv.sameStore.trans h.stored)
  obtain ⟨hs₃, hver₃, hlocks₃, hart₃⟩ := settleArtifacts_spec host hstore₂ (hart₂.trans (hart₁.trans h.artifacts))
  generalize settleArtifacts host a₂ = a₃ at hs₃ hver₃ hlocks₃ hart₃ ⊢
  obtain ⟨hver₄, hlocks₄, hart₄⟩ := settleCleanup_spec host a₃
  have hlocks : (settleCleanup host a₃).dependencyLocks = a₂.dependencyLocks := hlocks₄.trans hlocks₃
  refine ⟨hv.trans (hs₂.trans (hs₃.trans (settleCleanup_settles host a₃))), ?_, ?_, fun hi => ?_, fun hi => ?_⟩
  · rw [hver₄, hver₃, hver₂]; exact hver
  · rw [hart₄]; exact hart₃
  · rw [hlocks, ← hlocks₁]; exact (hcomplete hi).1
  · rw [hlocks]; exact (hcomplete hi).2

theorem settleSource_settles (host : Host) (a : Attempt) : Settles a (settleSource host a) := by
  unfold settleSource
  split
  · split
    · have hlocks := (settleLocks_spec host ‹_› (verifySource host a)).1
      exact (verifySource_settles host a).trans
        (hlocks.trans ((settleArtifacts_settles host _).trans (settleCleanup_settles host _)))
    · exact settleCleanup_settles host a
  · exact .refl a

/-! ## Evidence in the `finally` block -/

/-- The evidence says what the attempt says. -/
structure Attests (P : Platform) (host : Host) (runId : ℕ) (order : AssignedWorkOrder) (manifest : TrustedManifest)
    (a : Attempt) (e : ExecutionEvidence) : Prop where
  run : e.runId = runId
  workOrder : e.workOrderId = order.id
  worker : e.workerId = host.config.workerId
  repository : e.repositoryFullName = order.spec.repositoryFullName
  sha : e.testedSha = P.lower order.spec.commitSha
  manifestName : e.manifestName = manifest.metadata.name
  manifestVersion : e.manifestVersion = manifest.metadata.version
  manifestDigest : e.manifestDigest = P.manifestDigest manifest
  status : e.terminalStatus = a.terminal
  artifacts : e.artifacts = a.artifacts
  provenance : ∃ identityHash, a.reuseIdentityHash = some identityHash ∧
    e.reuseProvenance = some (reuseProvenance identityHash a)

/-- The variables after the evidence, for an attempt whose identity is settled. -/
structure Finalized (P : Platform) (host : Host) (runId : ℕ) (order : AssignedWorkOrder) (manifest : TrustedManifest)
    (a f : Attempt) : Prop where
  identity : f.reuseIdentity = a.reuseIdentity
  identityHash : f.reuseIdentityHash = a.reuseIdentityHash
  decision : f.reuseDecision = a.reuseDecision
  lookup : f.lookup = a.lookup
  skip : f.skipCompletion = a.skipCompletion
  store : f.store = a.store
  artifacts : f.artifacts = a.artifacts
  terminal : a.terminal ≠ .succeeded → f.terminal ≠ .succeeded
  evidence : ∀ e, f.evidence = some e → Attests P host runId order manifest f e

theorem buildEvidence_attests {runId : ℕ} {identityHash : String} {finishedAt : Time} {e : ExecutionEvidence}
    (hhash : a.reuseIdentityHash = some identityHash)
    (h : buildEvidence P host runId order manifest environment (reuseProvenance identityHash a) finishedAt a = .ok e) :
    Attests P host runId order manifest { a with evidence := some e } e := by
  unfold buildEvidence at h
  obtain ⟨fingerprint, -, h⟩ := except_bind_ok.1 h
  obtain rfl := except_pure_ok.1 h
  exact ⟨rfl, rfl, rfl, rfl, rfl, rfl, rfl, rfl, rfl, rfl, identityHash, hhash, rfl⟩

theorem rebuildEvidence_finalized {runId : ℕ} {environment : Option String} {provenance : Option ReuseProvenance}
    (hprov : ∀ p, provenance = some p → ∃ identityHash, a.reuseIdentityHash = some identityHash ∧
      p = reuseProvenance identityHash a) :
    Finalized P host runId order manifest a (rebuildEvidence P host runId order manifest environment provenance a) := by
  -- the failure is recorded first; it touches neither the identity nor the lookup
  have hfail : ∀ reason, ∃ terminal why, a.failUnlessFailed reason = { a with terminal := terminal, reason := why } ∧
      (a.terminal ≠ .succeeded → terminal ≠ .succeeded) := by
    intro reason
    unfold Attempt.failUnlessFailed
    split
    · exact ⟨_, _, rfl, fun _ => nofun⟩
    · exact ⟨_, _, rfl, id⟩
  obtain ⟨terminal, why, heq, ht⟩ := hfail "local_result_record_failed"
  unfold rebuildEvidence
  rw [heq]
  simp only []
  split
  · rename_i e he
    refine ⟨rfl, rfl, rfl, rfl, rfl, rfl, rfl, ht, fun e' he' => ?_⟩
    cases he'
    split at he
    · rename_i environment p
      obtain ⟨identityHash, hhash, rfl⟩ := hprov p rfl
      exact buildEvidence_attests (a := { a with terminal := terminal, reason := why }) hhash he
    · cases he
  · exact ⟨rfl, rfl, rfl, rfl, rfl, rfl, rfl, fun _ => nofun, nofun⟩

theorem provideEvidence_finalized {runId : ℕ} {identityHash : String} (hhash : a.reuseIdentityHash = some identityHash) :
    Finalized P host runId order manifest a
      (provideEvidence P host runId order manifest environment identityHash a) := by
  have hprov : ∀ p, some (reuseProvenance identityHash a) = some p → ∃ identityHash,
      a.reuseIdentityHash = some identityHash ∧ p = reuseProvenance identityHash a :=
    fun p hp => ⟨identityHash, hhash, (Option.some.inj hp).symm⟩
  unfold provideEvidence
  simp only []
  split
  · exact rebuildEvidence_finalized nofun
  · split
    · exact rebuildEvidence_finalized hprov
    · rename_i e he
      split
      · refine ⟨rfl, rfl, rfl, rfl, rfl, rfl, rfl, id, fun e' he' => ?_⟩
        cases he'
        exact buildEvidence_attests hhash he
      · exact rebuildEvidence_finalized hprov

theorem settleIdentity_ok {identityHash : String} {a' : Attempt}
    (h : settleIdentity P host order manifest environment a = .ok (a', identityHash)) :
    a'.reuseIdentityHash = some identityHash ∧ a'.terminal = a.terminal := by
  unfold settleIdentity at h
  split at h
  · rename_i hhash
    obtain ⟨rfl, rfl⟩ := Prod.mk.inj (Except.ok.inj h)
    exact ⟨hhash, rfl⟩
  · cases h
  · obtain ⟨identity, -, h⟩ := except_bind_ok.1 h
    obtain ⟨rfl, rfl⟩ := Prod.mk.inj (except_pure_ok.1 h)
    exact ⟨rfl, rfl⟩

/-- Evidence turns no failure into a success. -/
theorem finalizeEvidence_terminal {runId : ℕ} (h : a.terminal ≠ .succeeded) :
    (finalizeEvidence P host runId a).terminal ≠ .succeeded := by
  unfold finalizeEvidence
  split
  · split
    · unfold settleEvidence
      split
      · exact (rebuildEvidence_finalized (by simp)).terminal h
      · simp only []
        split
        · exact (rebuildEvidence_finalized (by simp)).terminal h
        · rename_i hidentity
          obtain ⟨hhash, hterminal⟩ := settleIdentity_ok hidentity
          refine (provideEvidence_finalized hhash).terminal ?_
          rw [hterminal]
          exact h
    · exact h
  · exact h

/-- The variables when the attempt has its checkout and the `finally` block is done. `a` is the attempt after
its handlers, `f` the one that is reported. -/
structure Reports (P : Platform) (host : Host) (runId : ℕ) (order : AssignedWorkOrder) (manifest : TrustedManifest)
    (environment : String) (store : EvidenceStore) (a f : Attempt) : Prop where
  decision : f.reuseDecision = a.reuseDecision
  lookup : f.lookup = a.lookup
  skip : f.skipCompletion = a.skipCompletion
  terminal : a.terminal ≠ .succeeded → f.terminal ≠ .succeeded
  stored : f.store = some store
  artifacts : ∀ x ∈ f.artifacts, x.retentionExpiresAt = store.retentionExpiresAt
  evidence : ∀ e, f.evidence = some e → Attests P host runId order manifest f e
  identityHash : f.reuseIdentityHash = f.reuseIdentity.map P.reuseIdentityHash
  early : ∀ identity, a.reuseIdentity = some identity → f.reuseIdentity = some identity
  late : a.reuseIdentity = none → ∀ identity, f.reuseIdentity = some identity ↔
    Intact host a ∧ identity = reuseIdentity P order manifest environment (settleSource host a).dependencyLocks ∧
      host.acceptsIdentity .second identity = .ok ()

theorem Prepared.hash (h : Prepared P order manifest environment store a) :
    a.reuseIdentityHash = a.reuseIdentity.map P.reuseIdentityHash := by
  rcases h.identity with ⟨hid, hhash⟩ | ⟨locks, -, hid, hhash⟩ <;> rw [hid, hhash] <;> rfl

/-- Nothing but the identity may differ between the settled attempt and the one the evidence is built from. -/
theorem Finalized.reports {runId : ℕ} {a₁ a₂ f : Attempt} (h : Prepared P order manifest environment store a)
    (hs : SettledSource host manifest store a a₁) (hf : Finalized P host runId order manifest a₂ f)
    {e : Option String} {i : Option ReuseIdentity} {x : Option String}
    (ha₂ : a₂ = { a₁ with environment := e, reuseIdentity := i, reuseIdentityHash := x })
    (hx : x = i.map P.reuseIdentityHash) (hearly : ∀ identity, a.reuseIdentity = some identity → i = some identity)
    (hlate : a.reuseIdentity = none → ∀ identity, i = some identity ↔
      Intact host a ∧ identity = reuseIdentity P order manifest environment (settleSource host a).dependencyLocks ∧
        host.acceptsIdentity .second identity = .ok ()) :
    Reports P host runId order manifest environment store a f := by
  subst ha₂
  obtain ⟨_, _, _, _, _, _, _, _, rfl, hterm⟩ := hs.settles
  refine ⟨hf.decision, hf.lookup, hf.skip, fun ht => hf.terminal (hterm ht), hf.store.trans h.stored, ?_, hf.evidence,
    ?_, ?_, ?_⟩
  · rw [hf.artifacts]; exact hs.artifacts
  · rw [hf.identity, hf.identityHash]; exact hx
  · rw [hf.identity]; exact hearly
  · rw [hf.identity]; exact hlate

theorem finalizeEvidence_reports {runId : ℕ} (h : Prepared P order manifest environment store a) :
    Reports P host runId order manifest environment store a (finalizeEvidence P host runId (settleSource host a)) := by
  have hs : SettledSource host manifest store a (settleSource host a) := settleSource_settled h
  generalize ha₁ : settleSource host a = a₁ at hs ⊢
  obtain ⟨hstore, horder, hmanifest, hworktree, hquiescent, hid, hhash, henv, hevidence⟩ :
      a₁.store = some store ∧ a₁.order = some order ∧ a₁.manifest = some manifest ∧ a₁.worktree = true ∧
        a₁.sourceQuiescent = a.sourceQuiescent ∧ a₁.reuseIdentity = a.reuseIdentity ∧
        a₁.reuseIdentityHash = a.reuseIdentityHash ∧ a₁.environment = some environment ∧ a₁.evidence = none := by
    obtain ⟨_, _, _, _, _, _, _, _, rfl, -⟩ := hs.settles
    exact ⟨h.stored, h.assigned, h.fetched, h.worktree, rfl, rfl, rfl, h.identified, h.evidence⟩
  unfold finalizeEvidence
  rw [hstore, horder, hmanifest]
  simp only []
  by_cases hintact : Intact host a
  · have hcond : a₁.worktree = true ∧ a₁.sourceQuiescent = true ∧ a₁.sourceIntegrityVerified = true :=
      ⟨hworktree, hquiescent.trans hintact.1, hs.verified.2 hintact⟩
    rw [if_pos hcond]
    unfold settleEvidence settleIdentity
    rw [henv]
    simp only [Option.elim]
    rcases h.identity with ⟨hnone, hnohash⟩ | ⟨locks, -, hsome, hsomehash⟩
    · rw [hid, hnone, hhash, hnohash]
      simp only []
      cases hbuild : buildReuseIdentity P host .second order manifest environment a₁.dependencyLocks with
      | error e =>
        simp only [Bind.bind, Except.bind]
        have hno : ∀ identity, ¬ (identity = reuseIdentity P order manifest environment a₁.dependencyLocks ∧
            host.acceptsIdentity .second identity = .ok ()) := by
          rintro identity ⟨rfl, hacc⟩
          rw [buildReuseIdentity_ok.2 ⟨rfl, hacc⟩] at hbuild
          cases hbuild
        refine (rebuildEvidence_finalized (by simp)).reports h hs rfl ?_ ?_ ?_
        · rfl
        · rw [hnone]; exact nofun
        · intro _ identity
          rw [ha₁]
          exact iff_of_false nofun fun hi => hno identity hi.2
      | ok identity =>
        obtain ⟨rfl, hacc⟩ := buildReuseIdentity_ok.1 hbuild
        simp only [Bind.bind, Except.bind, Pure.pure, Except.pure]
        refine (provideEvidence_finalized (by simp)).reports h hs rfl ?_ ?_ ?_
        · rfl
        · rw [hnone]; exact nofun
        · intro _ identity
          rw [ha₁, Option.some_inj]
          refine ⟨fun he => ?_, fun hi => hi.2.1.symm⟩
          subst he
          exact ⟨hintact, rfl, hacc⟩
    · rw [hid, hsome, hhash, hsomehash]
      simp only []
      refine (provideEvidence_finalized (by simp)).reports h hs rfl ?_ ?_ ?_
      · rfl
      · rw [hsome]; exact fun _ hi => hi
      · rw [hsome]; exact nofun
  · have hcond : ¬ (a₁.worktree = true ∧ a₁.sourceQuiescent = true ∧ a₁.sourceIntegrityVerified = true) :=
      fun hc => hintact (hs.verified.1 hc.2.2)
    rw [if_neg hcond]
    have hf : Finalized P host runId order manifest a₁ a₁ :=
      ⟨rfl, rfl, rfl, rfl, rfl, rfl, rfl, id, by simp [hevidence]⟩
    refine hf.reports h hs (e := a₁.environment) (i := a₁.reuseIdentity) (x := a₁.reuseIdentityHash) rfl ?_ ?_ ?_
    · rw [hid, hhash]; exact h.hash
    · rw [hid]; exact fun _ hi => hi
    · intro hnone identity
      rw [hid, hnone]
      simp [hintact]

/-! ## Complete locks -/

theorem sortedTexts_eq_nil {texts : List String} (h : Service.sortedTexts texts = []) : texts = [] := by
  have hlen : (Service.sortedTexts texts).length = texts.length := List.length_mergeSort texts
  rw [h] at hlen
  exact List.length_eq_zero_iff.1 hlen.symm

theorem not_complete_nil (h : manifest.dependencyLockPaths ≠ []) : ¬ Complete manifest [] :=
  fun hc => h (sortedTexts_eq_nil hc.symm)

theorem sortedLocks_nil : sortedLocks [] = [] := by simp [sortedLocks]

/-- Complete locks are in order already. -/
theorem Complete.sortedLocks {locks : List DependencyLockHash} (h : Complete manifest locks) :
    sortedLocks locks = locks := by
  have hsorted : (locks.map DependencyLockHash.relativePath).Pairwise fun a b => decide (a ≤ b) = true := by
    rw [show locks.map DependencyLockHash.relativePath = _ from h]
    refine List.pairwise_mergeSort (fun a b c hab hbc => ?_) (fun a b => ?_) _
    · exact decide_eq_true (le_trans (of_decide_eq_true hab) (of_decide_eq_true hbc))
    · rcases le_total a b with hab | hba
      · simp [hab]
      · simp [hba]
  exact List.mergeSort_of_pairwise (List.pairwise_map.1 hsorted)

theorem Reports.identity_eq {runId : ℕ} {f : Attempt} {identity : ReuseIdentity}
    (hr : Reports P host runId order manifest environment store a f)
    (h : Prepared P order manifest environment store a) (hid : f.reuseIdentity = some identity) :
    ∃ locks, identity = reuseIdentity P order manifest environment locks := by
  rcases h.identity with ⟨hnone, -⟩ | ⟨locks, -, hsome, -⟩
  · exact ⟨_, ((hr.late hnone identity).1 hid).2.1⟩
  · exact ⟨locks, Option.some.inj (hid.symm.trans (hr.early _ hsome))⟩

/-- The reported identity names the declared locks unless no pass could read them. -/
theorem Reports.complete_iff {runId : ℕ} {f : Attempt} (hc : CheckedOut P host order manifest environment store)
    (hr : Reports P host runId order manifest environment store (attempt P host) f) :
    (∀ identity, f.reuseIdentity = some identity → Complete manifest identity.dependencyLockHashes) ↔
      ¬ LocksMissing P host := by
  have hw := attempt_worked hc
  have hs : SettledSource host manifest store (attempt P host) (settleSource host (attempt P host)) :=
    settleSource_settled hw.toPrepared
  constructor
  · rintro hall ⟨order', manifest', environment', store', hc', hp, hfirst, hsecond, hquiet, hend, hacc⟩
    obtain rfl : order = order' := Except.ok.inj (hc.assigned.symm.trans hc'.assigned)
    obtain rfl : manifest = manifest' := Except.ok.inj (hc.fetched.symm.trans hc'.fetched)
    obtain rfl : environment = environment' := Except.ok.inj (hc.identified.symm.trans hc'.identified)
    have hu := attempt_unhashed hc hp hfirst
    have hintact : Intact host (attempt P host) := ⟨hu.quiescent.2 hquiet, hend⟩
    have hlocks : (settleSource host (attempt P host)).dependencyLocks = [] := by
      refine (hs.locks hintact).resolve_right fun h => ?_
      rcases (hs.complete hintact).1 h with h | h
      · rw [hu.locks] at h; exact not_complete_nil hp h
      · exact hsecond h
    have hid : f.reuseIdentity = some (reuseIdentity P order manifest environment []) :=
      (hr.late hu.identity _).2 ⟨hintact, by rw [hlocks], hacc⟩
    have hnil := hall _ hid
    rw [show (reuseIdentity P order manifest environment []).dependencyLockHashes = [] from sortedLocks_nil] at hnil
    exact not_complete_nil hp hnil
  · intro hno identity hid
    -- an identity that was looked up has its locks from the first pass
    rcases hw.identity with ⟨hnone, -⟩ | ⟨locks, hcomplete, hsome, -⟩
    · obtain ⟨hintact, rfl, hacc⟩ := (hr.late hnone identity).1 hid
      suffices h : Complete manifest (settleSource host (attempt P host)).dependencyLocks by
        show Complete manifest (sortedLocks _)
        rw [h.sortedLocks]; exact h
      by_contra hbad
      have hlocks := (hs.locks hintact).resolve_right hbad
      have hp : manifest.dependencyLockPaths ≠ [] := fun hp => hbad (by rw [hlocks]; exact complete_nil hp)
      have hfirst : ¬ FirstPassHashes host order manifest := fun hf =>
        hbad ((hs.complete hintact).2 (.inl (attempt_hashed hc hf)))
      have hu := attempt_unhashed hc hp hfirst
      rw [hlocks] at hacc
      exact hno ⟨order, manifest, environment, store, hc, hp, hfirst,
        fun hsecond => hbad ((hs.complete hintact).2 (.inr hsecond)), hu.quiescent.1 hintact.1, hintact.2, hacc⟩
    · obtain rfl : identity = _ := Option.some.inj (hid.symm.trans (hr.early _ hsome))
      show Complete manifest (sortedLocks _)
      rw [hcomplete.sortedLocks]; exact hcomplete

end Switchboard
