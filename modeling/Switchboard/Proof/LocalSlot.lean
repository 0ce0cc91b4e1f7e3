import Switchboard.Proof.Diagnostics
import Switchboard.Proof.Summary
import Switchboard.Spec.LocalSlot

/-!
# When a poll gives its slot back

* `attempt_owned`: an attempt drops its completion only if the ownership of the run is lost.
* `pollSlot_released_iff`: the slot is free again exactly if nothing raises in the `finally` block.
* `sixtyFourSteps_unreleased`: a manifest with 64 steps has no summary that fits.
-/

namespace Switchboard

open Try Transaction

variable {P : Platform} {host : Host} {a : Attempt} {order : AssignedWorkOrder} {manifest : TrustedManifest}

/-! ## The attempt before its `finally` block -/

/-- The attempt has an order and a manifest, and it drops its completion only if the ownership is lost. -/
def Owned (host : Host) (order : Option AssignedWorkOrder) (manifest : Option TrustedManifest) (a : Attempt) : Prop :=
  (a.skipCompletion = true → LosesOwnership host) ∧ a.order = order ∧ a.manifest = manifest

/-- The statements keep it, and so do the handlers after them. -/
def KeepsOwned {α : Type} (host : Host) (o : Option AssignedWorkOrder) (m : Option TrustedManifest) (x : AttemptM α) :
    Prop :=
  ∀ a, Owned host o m a → wp x (fun _ => Owned host o m) (fun e a => Owned host o m (handleError e a)) a

variable {o : Option AssignedWorkOrder} {m : Option TrustedManifest}

section statements

variable {α β : Type}

theorem KeepsOwned.pure (v : α) : KeepsOwned host o m (Pure.pure v : AttemptM α) := fun _ h => h

theorem KeepsOwned.bind {x : AttemptM α} {f : α → AttemptM β} (hx : KeepsOwned host o m x)
    (hf : ∀ v, KeepsOwned host o m (f v)) : KeepsOwned host o m (x >>= f) := by
  intro a ha
  rw [wp_bind]
  exact wp_mono (hx a ha) (fun v a' ha' => hf v a' ha') fun _ _ h => h

theorem KeepsOwned.assign {f : Attempt → Attempt} (hf : ∀ a, Owned host o m a → Owned host o m (f a)) :
    KeepsOwned host o m (assign f) := fun a ha => hf a ha

theorem handleError_owned (e : PyException) (h : Owned host o m a) : Owned host o m (handleError (.exception e) a) := by
  unfold handleError
  dsimp only
  split <;> exact h

theorem KeepsOwned.local (x : Except PyException α) : KeepsOwned host o m (Try.call .exception x) := by
  intro a ha
  rw [wp_call]
  exact ⟨fun _ _ => ha, fun e _ => handleError_owned e ha⟩

theorem raised_owned {e : RemoteError} (h : ∀ rejected, e = .ownershipLost rejected → LosesOwnership host)
    (ha : Owned host o m a) : Owned host o m (handleError e.raised a) := by
  cases e with
  | ownershipLost rejected => exact ⟨fun _ => h rejected rfl, ha.2⟩
  | exception e => exact handleError_owned e ha

end statements

theorem cancelled_owned {reason : String} (h : skipsCompletion reason = true → LosesOwnership host)
    (ha : Owned host o m a) : Owned host o m (a.cancelled reason) := ⟨h, ha.2⟩

theorem runSteps_owned (hasContract : Bool) (n : ℕ) (steps : List TrustedStep) (ha : Owned host o m a) :
    Owned host o m (runSteps host hasContract n steps a) := by
  induction steps generalizing n a with
  | nil => exact ha
  | cons step rest ih =>
    unfold runSteps
    dsimp only
    split
    · rename_i hstep
      exact cancelled_owned (.atDeadline hstep) ha
    · exact ha
    · exact ha
    · rename_i hstep
      exact cancelled_owned (.inStep hstep) ha
    · exact ha
    · split
      · exact ha
      · exact ih _ ha

theorem fetchManifest_ownershipLost {rejected : Bool}
    (h : fetchManifest P host order = .error (.ownershipLost rejected)) : LosesOwnership host := by
  unfold fetchManifest at h
  cases hremote : host.remoteManifest with
  | error e =>
    rw [hremote] at h
    cases h
    exact .manifest hremote
  | ok remote =>
    rw [hremote] at h
    simp only [Bind.bind, Except.bind] at h
    split at h <;> cases h

theorem hashLocksForReuse_keepsOwned (manifest : TrustedManifest) : KeepsOwned host o m (hashLocksForReuse host manifest) := by
  unfold hashLocksForReuse
  split
  · exact .pure _
  · refine .bind (.local _) fun _ => .bind (.local _) fun _ => .bind (.assign fun _ h => h) fun _ => ?_
    exact .bind (.local _) fun _ => .bind (.assign fun _ h => h) fun _ => .pure _

/-- The token after the lookup has the reason of the host, or the lookup has lost the ownership. -/
theorem lookUp_keepsOwned (identity : ReuseIdentity) (identityHash : String) (a : Attempt) (ha : Owned host o m a) :
    wp (lookUp host identity identityHash)
      (fun r a => Owned host o m a ∧ ∀ reason, r.2 = some reason → skipsCompletion reason = true → LosesOwnership host)
      (fun e a => Owned host o m (handleError e a)) a := by
  unfold lookUp
  cases hlookup : host.resolveReuseCandidate identity identityHash with
  | ok lookup => exact ⟨ha, fun reason h hskips => .inLookup h hskips⟩
  | error e =>
    cases e with
    | ownershipLost rejected => exact ⟨ha, fun _ _ _ => .lookup hlookup⟩
    | exception e =>
      dsimp only
      split
      · exact ⟨ha, fun reason h hskips => .inLookup h hskips⟩
      · exact handleError_owned e ha

theorem decideReuse_keepsOwned (policy : ReusePolicy) (lookup : Option ReuseLookup) {cancelled : Option String}
    (h : ∀ reason, cancelled = some reason → skipsCompletion reason = true → LosesOwnership host) :
    KeepsOwned host o m (decideReuse host policy lookup cancelled) := by
  unfold decideReuse
  split
  · exact .bind (.assign fun a ha => cancelled_owned (h _ rfl) ha) fun _ => .pure _
  · refine .bind (.local _) fun verdict => .bind (.assign fun _ ha => ha) fun _ => ?_
    split
    · exact .bind (.assign fun _ ha => ha) fun _ => .pure _
    · split
      · exact .bind (.assign fun _ ha => ha) fun _ => .pure _
      · exact .pure _
  · split
    · exact .bind (.assign fun _ ha => ha) fun _ => .pure _
    · exact .pure _

theorem reuseOrExecute_keepsOwned (order : AssignedWorkOrder) (manifest : TrustedManifest) (environment : String)
    (a : Attempt) (ha : Owned host o m a) :
    wp (reuseOrExecute P host order manifest environment)
      (fun r a => Owned host o m a ∧ ∀ reason, r.2 = some reason → skipsCompletion reason = true → LosesOwnership host)
      (fun e a => Owned host o m (handleError e a)) a := by
  unfold reuseOrExecute
  split
  · exact ⟨ha, fun _ h => by cases h⟩
  · rw [wp_bind]
    refine wp_mono (hashLocksForReuse_keepsOwned manifest a ha) (fun locks a ha => ?_) fun _ _ h => h
    rw [wp_bind]
    refine wp_mono (KeepsOwned.local _ a ha) (fun identity a ha => ?_) fun _ _ h => h
    rw [wp_bind, wp_assign, wp_bind]
    refine wp_mono (lookUp_keepsOwned _ _ _ ha) (fun r a hr => ?_) fun _ _ h => h
    rw [wp_bind]
    exact wp_mono (decideReuse_keepsOwned _ r.1 hr.2 a hr.1) (fun executeFresh a ha => ⟨ha, hr.2⟩) fun _ _ h => h

theorem cancelledAtEnd_keepsOwned {cancelled : Option String}
    (h : ∀ reason, cancelled = some reason → skipsCompletion reason = true → LosesOwnership host) :
    KeepsOwned host o m (match cancelled.or host.cancelledAtEnd with
      | some reason => (assign (Attempt.cancelled reason) : AttemptM Unit)
      | none => Pure.pure ()) := by
  split
  · rename_i reason hreason
    refine .assign fun a ha => cancelled_owned (fun hskips => ?_) ha
    rcases Option.or_eq_some_iff.1 hreason with hr | ⟨-, hr⟩
    · exact h reason hr hskips
    · exact .atEnd hr hskips
  · exact .pure _

theorem workOnCheckout_keepsOwned (order : AssignedWorkOrder) (manifest : TrustedManifest) (environment : String) :
    KeepsOwned host o m (workOnCheckout P host order manifest environment) := by
  unfold workOnCheckout
  refine .bind (.local _) fun _ => .bind (.assign fun _ ha => ha) fun _ a ha => ?_
  rw [wp_bind]
  refine wp_mono (reuseOrExecute_keepsOwned order manifest environment a ha) (fun r a hr => ?_) fun _ _ h => h
  obtain ⟨executeFresh, cancelled⟩ := r
  dsimp only
  split
  · rw [wp_bind, wp_assign]
    exact cancelledAtEnd_keepsOwned hr.2 _ (runSteps_owned _ _ _ hr.1)
  · exact cancelledAtEnd_keepsOwned hr.2 a hr.1

theorem execute_keepsOwned (order : AssignedWorkOrder) (manifest : TrustedManifest) :
    KeepsOwned host o m (execute P host order manifest) := by
  unfold execute
  refine .bind (.assign fun _ ha => ha) fun _ => .bind (.local _) fun environment => ?_
  refine .bind (.assign fun _ ha => ha) fun _ => .bind (.local _) fun store => ?_
  refine .bind (.assign fun _ ha => ha) fun _ => .bind (fun a ha => ?_) fun _ => ?_
  · rw [wp_call]
    refine ⟨fun _ _ => ha, fun e _ => ?_⟩
    cases e with
    | localCommitUnavailable => exact ha
    | exception e => exact handleError_owned e ha
  · exact .bind (.assign fun _ ha => ha) fun _ => workOnCheckout_keepsOwned order manifest environment

/-- The manifest that an attempt has. -/
def fetchedManifest (P : Platform) (host : Host) : Option TrustedManifest :=
  host.workOrder.toOption.bind fun order => (fetchManifest P host order).toOption

/-- **An attempt drops its completion only if the ownership of the run is lost**; it has its order and its manifest
exactly if they could be fetched. -/
theorem attempt_owned (P : Platform) (host : Host) :
    Owned host host.workOrder.toOption (fetchedManifest P host) (attempt P host) := by
  refine attempt_of_ends ?_
  unfold Ends attemptBody fetchedManifest
  simp only [wp_bind, wp_call, wp_assign]
  refine ⟨fun order horder => ⟨fun manifest hmanifest => ?_, fun e he => ?_⟩, fun e he => ?_⟩
  · have ha : Owned host (some order) (some manifest)
        { startedAt := host.clock 0, order := some order, manifest := some manifest } := ⟨fun h => absurd h Bool.false_ne_true, rfl, rfl⟩
    rw [horder, show (Except.ok order : Except RemoteError _).toOption = some order from rfl, Option.bind_some, hmanifest]
    refine ⟨fun cancelled hmonitor => ?_, fun e he => raised_owned (fun rejected h => .monitor (h ▸ he)) ha⟩
    split
    · exact cancelled_owned (.atStart hmonitor) ha
    · split
      · exact ha
      · exact execute_keepsOwned order manifest _ ha
  · rw [horder, show (Except.ok order : Except RemoteError _).toOption = some order from rfl, Option.bind_some, he]
    exact raised_owned (fun rejected h => fetchManifest_ownershipLost (h ▸ he)) ⟨fun h => absurd h Bool.false_ne_true, rfl, rfl⟩
  · rw [he]
    exact raised_owned (fun rejected h => .workOrder (h ▸ he)) ⟨fun h => absurd h Bool.false_ne_true, rfl, rfl⟩

/-! ## The `finally` block -/

theorem Settles.sameSummary {a' : Attempt} (h : Settles a a') :
    a'.order = a.order ∧ a'.results = a.results ∧ a'.skipCompletion = a.skipCompletion := by
  obtain ⟨_, _, _, _, _, _, _, _, rfl, -⟩ := h
  exact ⟨rfl, rfl, rfl⟩

theorem toOption_some {ε α : Type} {x : Except ε α} {v : α} : x.toOption = some v ↔ x = .ok v := by
  cases x <;> simp [Except.toOption]

section slot

variable {slotHost : SlotHost} {runId : ℕ} {w : LocalWorker Unit}

theorem summaryOf_ok_iff (slotHost : SlotHost) (a : Attempt) :
    (∃ summary, slotHost.summaryOf a = .ok summary) ↔
      ∀ order, a.order = some order → SummaryFits order (slotHost.results a.results) := by
  unfold SlotHost.summaryOf
  cases a.order with
  | none => exact iff_of_true ⟨_, rfl⟩ fun _ h => by cases h
  | some order =>
    have hreturns := resultSummary_returns_iff order (slotHost.results a.results)
    dsimp only
    constructor
    · rintro ⟨text, htext⟩ order' horder'
      cases horder'
      cases hsummary : resultSummary order (slotHost.results a.results) with
      | error e => rw [hsummary] at htext; cases htext
      | ok summary => exact hreturns.1 ⟨summary, hsummary⟩
    · intro hfits
      obtain ⟨summary, hsummary⟩ := hreturns.2 (hfits order rfl)
      exact ⟨_, by rw [hsummary]; rfl⟩

theorem stopMonitor_ok_iff (a : Attempt) :
    slotHost.stopMonitor a = .ok () ↔ ∀ manifest, a.manifest = some manifest → slotHost.monitorStop = .ok () := by
  unfold SlotHost.stopMonitor
  cases a.manifest with
  | none => exact iff_of_true rfl fun _ h => by cases h
  | some manifest => exact ⟨fun h _ _ => h, fun h => h manifest rfl⟩

theorem failUnlessFailed_skip (reason : String) (a : Attempt) :
    (a.failUnlessFailed reason).skipCompletion = a.skipCompletion := by
  unfold Attempt.failUnlessFailed
  split <;> rfl

theorem rebuildEvidence_skip (order : AssignedWorkOrder) (manifest : TrustedManifest) (environment : Option String)
    (provenance : Option ReuseProvenance) (a : Attempt) :
    (rebuildEvidence P host runId order manifest environment provenance a).skipCompletion = a.skipCompletion := by
  unfold rebuildEvidence
  dsimp only
  split <;> exact failUnlessFailed_skip _ a

theorem provideEvidence_skip (order : AssignedWorkOrder) (manifest : TrustedManifest) (environment identityHash : String)
    (a : Attempt) :
    (provideEvidence P host runId order manifest environment identityHash a).skipCompletion = a.skipCompletion := by
  unfold provideEvidence
  dsimp only
  split
  · exact rebuildEvidence_skip _ _ _ _ a
  · split
    · exact rebuildEvidence_skip _ _ _ _ a
    · split
      · rfl
      · exact rebuildEvidence_skip _ _ _ _ a

/-- The evidence of the attempt does not change whether its completion is dropped. -/
theorem finalizeEvidence_skip (runId : ℕ) (a : Attempt) :
    (finalizeEvidence P host runId a).skipCompletion = a.skipCompletion := by
  unfold finalizeEvidence
  split
  · split
    · unfold settleEvidence
      split
      · exact rebuildEvidence_skip _ _ _ _ a
      · dsimp only
        split
        · exact rebuildEvidence_skip _ _ _ _ _
        · rename_i hidentity
          rw [provideEvidence_skip]
          unfold settleIdentity at hidentity
          split at hidentity
          · cases hidentity; rfl
          · cases hidentity
          · obtain ⟨_, _, h⟩ := except_bind_ok.1 hidentity
            cases h; rfl
    · rfl
  · rfl

theorem finishPoll_released_iff (hactive : w.activeRunId = some runId)
    (hskip : a.skipCompletion = true → LosesOwnership slotHost.toHost) :
    Released slotHost (finishPoll P slotHost runId a w) ↔
      (∀ manifest, a.manifest = some manifest → slotHost.monitorStop = .ok ()) ∧
        ∀ order, a.order = some order → SummaryFits order (slotHost.results a.results) := by
  obtain ⟨horder, hresults, hskip'⟩ := (settleSource_settles slotHost.toHost a).sameSummary
  have hsummary := summaryOf_ok_iff slotHost (settleSource slotHost.toHost a)
  rw [horder, hresults] at hsummary
  rw [← stopMonitor_ok_iff, ← hsummary]
  have hheld : ∀ {e : PyException} {w' : LocalWorker Unit}, w'.activeRunId = some runId →
      ¬ Released slotHost ⟨w', [], some e⟩ := by
    intro e w' hw' hr
    have hnone := hr.1
    rw [hw'] at hnone
    cases hnone
  unfold finishPoll
  cases hstop : slotHost.stopMonitor a with
  | error e => exact iff_of_false (hheld hactive) fun h => by cases h.1
  | ok _ =>
    dsimp only
    have hactive' : (if a.sourceQuiescent then w.unregister else w.unregister.setShutdown).activeRunId = some runId := by
      split <;> exact hactive
    cases htext : slotHost.summaryOf (settleSource slotHost.toHost a) with
    | error e => exact iff_of_false (hheld hactive') fun h => by obtain ⟨_, h⟩ := h.2; cases h
    | ok summary =>
      refine iff_of_true ?_ ⟨rfl, _, rfl⟩
      dsimp only
      rw [finalizeEvidence_skip, hskip']
      split
      · rename_i hskips
        exact ⟨if_pos hactive', .inr ⟨rfl, hskip hskips⟩⟩
      · exact ⟨if_pos hactive', .inl rfl⟩

theorem beginRun_active (hadmitted : (w.beginRun () runId).1 = none) :
    (w.beginRun () runId).2.activeRunId = some runId := by
  unfold LocalWorker.beginRun at hadmitted ⊢
  split at hadmitted <;> try cases hadmitted
  split at hadmitted <;> try cases hadmitted
  split at hadmitted <;> try cases hadmitted
  simp_all

theorem pollSlot_admitted (hadmitted : (w.beginRun () runId).1 = none) :
    pollSlot P slotHost runId w = finishPoll P slotHost runId (attempt P slotHost.toHost) (w.beginRun () runId).2 := by
  unfold pollSlot
  split
  · rename_i hrejected
    rw [hrejected] at hadmitted
    cases hadmitted
  · rename_i hw
    rw [hw]

/-- An admitted poll is released exactly if the `finally` block does not raise on its attempt. -/
theorem released_iff_attempt (hadmitted : (w.beginRun () runId).1 = none) :
    Released slotHost (pollSlot P slotHost runId w) ↔
      (∀ manifest, fetchedManifest P slotHost.toHost = some manifest → slotHost.monitorStop = .ok ()) ∧
        ∀ order, slotHost.workOrder = .ok order →
          SummaryFits order (slotHost.results (attempt P slotHost.toHost).results) := by
  obtain ⟨hskip, horder, hmanifest⟩ := attempt_owned P slotHost.toHost
  rw [pollSlot_admitted hadmitted, finishPoll_released_iff (beginRun_active hadmitted) hskip, horder, hmanifest]
  refine and_congr_right fun _ => forall_congr' fun order => imp_congr_left ?_
  cases slotHost.workOrder <;> simp [Except.toOption]

end slot

/-! ## A manifest with too many steps -/

/-- As many steps as a workload profile may have. -/
def longManifest : TrustedManifest :=
  { sampleManifest with executionSteps := (List.range 64).map fun n => { sampleStep with id := s!"step{n}" } }

def longPlatform : Platform := { samplePlatform with manifests := [longManifest] }

/-- Nothing fails on this host, and no step writes anything. -/
def quietHost (manifest : TrustedManifest) : SlotHost :=
  { sampleHost coverageOrder with
    remoteManifest := .ok ⟨manifest.metadata, "digest"⟩
    describe := fun _ =>
      { stdoutSummary := [], stderrSummary := [], summariesTruncated := false, stepId := "", status := .succeeded
        exitCode := some 0, durationSeconds := ⟨"0.1", by decide⟩, stdoutLog := "unit.stdout.log", stderrLog := "unit.stderr.log"
        environmentSummary := [], terminalReason := none }
    monitorStop := .ok (), completed := .ok () }

end Switchboard
