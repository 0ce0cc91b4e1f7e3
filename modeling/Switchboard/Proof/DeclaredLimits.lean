import Switchboard.Proof.Admission
import Switchboard.Proof.Diagnostics
import Switchboard.Proof.PytestCounts
import Switchboard.Spec.WorkloadProfiles

/-!
# Declared limits of artifacts

A profile declares for each artifact how large it may be and whether it must be there. The compiled manifest
keeps neither: the worker applies its own limits, and it captures every declared artifact of the attempted
steps or none.

* `captureArtifacts_ok`, `captureArtifacts_sizes`: when the capture succeeds, and what it records.
* `attempt_reports`: the attempted steps are the first ones of the manifest.
* `compileProfile_paths`: the artifacts of a compiled step are those of the step.
* `keepsDeclarations_iff`: when a run keeps the declared limits.
-/

namespace Switchboard

open Transaction Try

-- the profile is compiled on `S`, the manifest runs on a worker with `P`
variable {P S : Platform} {U : PyText.CharTable} {host : Host} {order : AssignedWorkOrder} {manifest : TrustedManifest}
  {environment : String} {store : EvidenceStore} {a : Attempt} {limits : EvidenceLimits} {files : ArtifactFiles}
  {steps : List TrustedStep} {p : WorkloadProfile}

/-! ## Captures -/

/-- Everything that the capture of these steps asks for. -/
structure Capturable (host : Host) (limits : EvidenceLimits) (files : ArtifactFiles) (steps : List TrustedStep) :
    Prop where
  before : ∀ d ∈ declarations steps, host.integrity (.beforeCapture d.1 d.2) = .ok ()
  after : host.integrity .afterCapture = .ok ()
  owned : files.ownership = .ok ()
  within : WithinLimits limits files (declarations steps)

variable (host) in
theorem measureArtifact_captured {artifact : TrustedArtifact} (h : Captured limits files artifact) :
    ∃ digest, (host.withFiles limits files).measureArtifact artifact =
      .ok ((files.retained artifact.relativePath).size, digest) := by
  obtain ⟨size, sha256, hfile, -⟩ := h
  exact ⟨sha256, by simp [Host.withFiles, hfile]⟩

theorem captureArtifacts_ok :
    (∃ records, captureArtifacts (host.withFiles limits files) store steps = .ok records) ↔
      Capturable host limits files steps := by
  unfold captureArtifacts
  simp only [except_bind_ok, except_forM_ok]
  constructor
  · rintro ⟨records, _, hcaptures, _, hafter, _, haccepts, -⟩
    have howned : files.ownership = .ok () := by
      obtain ⟨_, howned, -⟩ := except_bind_ok.1 (show finalizeChecks limits files (declarations steps) = .ok _ from haccepts)
      exact howned
    refine ⟨fun d hd => ?_, hafter, howned, (finalizeChecks_ok_iff howned).1 haccepts⟩
    obtain ⟨_, hbefore, -⟩ := hcaptures d hd
    exact hbefore
  · intro h
    have hcaptured : ∀ d ∈ declarations steps, Captured limits files d.2 := h.within.captured
    have hrecords : ∃ records, ((declarations steps).mapM fun d => do
        let measured ← (host.withFiles limits files).measureArtifact d.2
        return artifactRecord store d.1 d.2 measured.1 measured.2) = Except.ok records := by
      refine mapM_returns fun d hd => ?_
      obtain ⟨digest, hmeasured⟩ := measureArtifact_captured host (hcaptured d hd)
      exact ⟨_, by simp [hmeasured, Bind.bind, Except.bind, Pure.pure, Except.pure]; rfl⟩
    obtain ⟨records, hrecords⟩ := hrecords
    refine ⟨records, (), fun d hd => ⟨(), h.before d hd, ?_⟩, (), h.after, (),
      (finalizeChecks_ok_iff h.owned).2 h.within, hrecords⟩
    exact captureDeclaredArtifact_of_captured h.owned (hcaptured d hd)

/-- A record for each declared artifact, with the size of the retained file. -/
theorem captureArtifacts_sizes {records : List ArtifactRecord}
    (h : captureArtifacts (host.withFiles limits files) store steps = .ok records) :
    records.map (fun r => (r.relativePath, r.sizeBytes)) =
      (declarations steps).map fun d => (d.2.relativePath, (files.retained d.2.relativePath).size) := by
  have hcaptured : ∀ d ∈ declarations steps, Captured limits files d.2 :=
    (captureArtifacts_ok.1 ⟨records, h⟩).within.captured
  unfold captureArtifacts at h
  simp only [except_bind_ok] at h
  obtain ⟨_, -, _, -, _, -, hrecords⟩ := h
  have hall := mapM_ok hrecords
  change List.Forall₂ _ (declarations steps) records at hall
  generalize declarations steps = declared at hall hcaptured
  clear hrecords
  induction hall with
  | nil => rfl
  | @cons d r declared records hr _ ih =>
    obtain ⟨digest, hmeasured⟩ := measureArtifact_captured host (hcaptured d List.mem_cons_self)
    obtain rfl : artifactRecord store d.1 d.2 (files.retained d.2.relativePath).size digest = r := by
      simpa [hmeasured, Bind.bind, Except.bind, Pure.pure, Except.pure] using hr
    rw [List.map_cons, List.map_cons, ih fun d hd => hcaptured d (List.mem_cons_of_mem _ hd)]
    rfl

theorem captureArtifacts_covers {records : List ArtifactRecord}
    (h : captureArtifacts (host.withFiles limits files) store steps = .ok records) {x : String × TrustedArtifact}
    (hx : x ∈ declarations steps) : ∃ r ∈ records, r.relativePath = x.2.relativePath ∧
      r.sizeBytes = (files.retained x.2.relativePath).size := by
  have hpair := List.mem_map_of_mem (f := fun x : String × TrustedArtifact =>
    (x.2.relativePath, (files.retained x.2.relativePath).size)) hx
  rw [← captureArtifacts_sizes h] at hpair
  obtain ⟨r, hr, hsame⟩ := List.mem_map.1 hpair
  exact ⟨r, hr, Prod.mk.inj hsame⟩

theorem captureArtifacts_declared {records : List ArtifactRecord}
    (h : captureArtifacts (host.withFiles limits files) store steps = .ok records) {r : ArtifactRecord}
    (hr : r ∈ records) : ∃ x ∈ declarations steps, x.2.relativePath = r.relativePath ∧
      (files.retained x.2.relativePath).size = r.sizeBytes := by
  have hpair := List.mem_map_of_mem (f := fun r : ArtifactRecord => (r.relativePath, r.sizeBytes)) hr
  rw [captureArtifacts_sizes h] at hpair
  obtain ⟨x, hx, hsame⟩ := List.mem_map.1 hpair
  exact ⟨x, hx, Prod.mk.inj hsame⟩

/-! ## Attempted steps -/

theorem runSteps_attempted (host : Host) (hasContract : Bool) (n : ℕ) (steps : List TrustedStep) (a : Attempt) :
    ∃ k, (runSteps host hasContract n steps a).attemptedSteps = a.attemptedSteps ++ steps.take k := by
  induction steps generalizing n a with
  | nil => exact ⟨0, by simp [runSteps]⟩
  | cons step rest ih =>
    unfold runSteps
    cases host.runStep n step with
    | deadlineExceeded cancelled text =>
      refine ⟨1, ?_⟩
      cases cancelled <;> simp [Attempt.cancelled, Attempt.finish]
    | containmentCleanup => exact ⟨1, by simp [Attempt.finish]⟩
    | exception cancelled e =>
      refine ⟨1, ?_⟩
      cases cancelled <;> simp [Attempt.cancelled, Attempt.finish]
    | result r =>
      simp only []
      split
      · exact ⟨1, by simp [Attempt.finish]⟩
      · obtain ⟨k, hk⟩ := ih (n + 1)
          { a with
            attemptedSteps := a.attemptedSteps ++ [step]
            sourceQuiescent := a.sourceQuiescent &&
              (r.reviewed hasContract).terminalReason != some "descendant_cleanup_failed"
            results := a.results ++ [r.reviewed hasContract] }
        exact ⟨k + 1, by rw [hk]; simp⟩

/-- The attempt has reported nothing yet. -/
structure Unreported (fetched : Option TrustedManifest) (a : Attempt) : Prop where
  attempted : a.attemptedSteps = []
  artifacts : a.artifacts = []
  fetched : a.manifest = fetched

section unreported

variable {fetched : Option TrustedManifest}

theorem Unreported.handled (h : Unreported fetched a) (e : WorkerError) : Unreported fetched (handleError e a) := by
  obtain ⟨hattempted, hartifacts, hfetched⟩ := h
  cases e with
  | containmentCleanup => exact ⟨hattempted, hartifacts, hfetched⟩
  | ownershipLost credentialRejected => exact ⟨hattempted, hartifacts, hfetched⟩
  | localCommitUnavailable => exact ⟨hattempted, hartifacts, hfetched⟩
  | exception e =>
    simp only [handleError]
    split <;> exact ⟨hattempted, hartifacts, hfetched⟩

theorem wp_hashLocksForReuse_unreported (h : Unreported fetched a) : wp (hashLocksForReuse host manifest)
    (fun _ a => Unreported fetched a) (fun e a => Unreported fetched (handleError e a)) a := by
  unfold hashLocksForReuse
  split
  · exact h
  · simp only [wp_bind, wp_call, wp_assign]
    have hlocks : ∀ locks, Unreported fetched { a with dependencyLocks := locks } := fun locks => { h with }
    exact ⟨fun _ _ => ⟨fun locks _ => ⟨fun _ _ => { h with }, fun e _ => (hlocks locks).handled _⟩,
      fun e _ => h.handled _⟩, fun e _ => h.handled _⟩

theorem wp_lookUp_unreported {identity : ReuseIdentity} {identityHash : String} (h : Unreported fetched a) :
    wp (lookUp host identity identityHash) (fun _ a => Unreported fetched a)
      (fun e a => Unreported fetched (handleError e a)) a := by
  unfold lookUp
  split
  · exact { h with }
  · exact h
  · split
    · exact { h with }
    · exact h.handled _

theorem wp_decideReuse_unreported {policy : ReusePolicy} {lookup : Option ReuseLookup} {cancelled : Option String}
    (h : Unreported fetched a) : wp (decideReuse host policy lookup cancelled) (fun _ a => Unreported fetched a)
      (fun e a => Unreported fetched (handleError e a)) a := by
  unfold decideReuse
  split
  · exact { h with }
  · simp only [wp_bind, wp_call, wp_assign]
    refine ⟨fun verified _ => ?_, fun e _ => h.handled _⟩
    split
    · exact { h with }
    · split <;> exact { h with }
  · split <;> exact { h with }

theorem wp_reuseOrExecute_unreported (h : Unreported fetched a) : wp (reuseOrExecute P host order manifest environment)
    (fun _ a => Unreported fetched a) (fun e a => Unreported fetched (handleError e a)) a := by
  unfold reuseOrExecute
  split
  · exact h
  · simp only [wp_bind, wp_call, wp_assign, wp_pure]
    refine wp_mono (wp_hashLocksForReuse_unreported h) (fun locks a ha => ?_) fun _ _ he => he
    refine ⟨fun identity _ => ?_, fun e _ => ha.handled _⟩
    refine wp_mono (wp_lookUp_unreported { ha with }) (fun r a ha => ?_) fun _ _ he => he
    exact wp_mono (wp_decideReuse_unreported ha) (fun _ _ ha => ha) fun _ _ he => he

/-- No artifact is recorded, and the attempted steps are the first ones of the manifest. -/
structure AttemptReports (a : Attempt) : Prop where
  artifacts : a.artifacts = []
  attempted : ∀ manifest, a.manifest = some manifest → ∃ k, a.attemptedSteps = manifest.executionSteps.take k

theorem Unreported.reports (h : Unreported fetched a) : AttemptReports a :=
  ⟨h.artifacts, fun _ _ => ⟨0, by rw [h.attempted, List.take_zero]⟩⟩

theorem runSteps_reports (h : Unreported (some manifest) a) (hasContract : Bool) (n : ℕ) :
    AttemptReports (runSteps host hasContract n manifest.executionSteps a) := by
  obtain ⟨k, hk⟩ := runSteps_attempted host hasContract n manifest.executionSteps a
  rw [h.attempted, List.nil_append] at hk
  have hsame := runSteps_sameReport host hasContract n manifest.executionSteps a
  generalize runSteps host hasContract n manifest.executionSteps a = a' at hk hsame
  obtain ⟨_, _, _, _, _, _, rfl⟩ := hsame
  refine ⟨h.artifacts, fun m hm => ⟨k, ?_⟩⟩
  obtain rfl : manifest = m := Option.some.inj (h.fetched.symm.trans hm)
  exact hk

theorem workOnCheckout_reports (h : Unreported (some manifest) a) :
    Ends AttemptReports (workOnCheckout P host order manifest environment) a := by
  unfold Ends workOnCheckout
  simp only [wp_bind, wp_call, wp_assign]
  refine ⟨fun _ _ => ?_, fun e _ => (h.handled _).reports⟩
  refine wp_mono (wp_reuseOrExecute_unreported { h with }) (fun r a ha => ?_) fun e a he => he.reports
  obtain ⟨executeFresh, cancelled⟩ := r
  have hdecided : Unreported (some manifest) (a.decide .fresh) := { ha with }
  have hrun : AttemptReports (runSteps host manifest.resultContract.isSome 0 manifest.executionSteps
      (a.decide .fresh)) := runSteps_reports hdecided _ _
  cases executeFresh <;> simp only [Bool.false_eq_true, if_false, if_true, wp_bind, wp_assign] <;> split
  · exact { ha.reports with }
  · exact ha.reports
  · exact { hrun with }
  · exact hrun

end unreported

theorem attempt_reports (P : Platform) (host : Host) : AttemptReports (attempt P host) := by
  refine attempt_of_ends ?_
  unfold Ends attemptBody
  simp only [wp_bind, wp_call, wp_assign]
  have hraised : ∀ (e : WorkerError) (a : Attempt), a.attemptedSteps = [] → a.artifacts = [] →
      AttemptReports (handleError e a) := fun e a hattempted hartifacts =>
    (Unreported.handled ⟨hattempted, hartifacts, rfl⟩ e).reports
  refine ⟨fun order _ => ⟨fun manifest _ => ⟨fun cancelled _ => ?_, fun e _ => hraised _ _ rfl rfl⟩,
    fun e _ => hraised _ _ rfl rfl⟩, fun e _ => hraised _ _ rfl rfl⟩
  cases cancelled with
  | some reason => exact ⟨rfl, fun _ _ => ⟨0, rfl⟩⟩
  | none =>
    by_cases hshut : host.shutdownAtStart = true
    · simp only [hshut, if_true, wp_assign]
      exact ⟨rfl, fun _ _ => ⟨0, rfl⟩⟩
    · simp only [hshut]
      unfold execute
      simp only [wp_bind, wp_call, wp_assign, Bool.false_eq_true, if_false]
      refine ⟨fun environment _ => ⟨fun store _ => ⟨fun _ _ => ?_, fun e _ => hraised _ _ rfl rfl⟩,
        fun e _ => hraised _ _ rfl rfl⟩, fun e _ => hraised _ _ rfl rfl⟩
      exact workOnCheckout_reports ⟨rfl, rfl, rfl⟩

/-! ## The capture of a run -/

/-- The attempt before its artifacts are captured. -/
def beforeCapture (host : Host) (manifest : TrustedManifest) (a : Attempt) : Attempt :=
  settleLocks host manifest (verifySource host a)

/-- What an attempt with a checkout captures: the artifacts of its attempted steps, unless the source is not
trusted. -/
def captureCall (a : Attempt) : Option (EvidenceStore × List TrustedStep) :=
  if a.worktree ∧ a.sourceQuiescent ∧ a.sourceIntegrityVerified then a.store.map fun store => (store, a.attemptedSteps)
  else none

/-- The records that the run reports. -/
def reportedArtifacts (P : Platform) (host : Host) : List ArtifactRecord :=
  (settleSource host (attempt P host)).artifacts

/-- The records of a call. -/
def recordsOf (host : Host) : Option (EvidenceStore × List TrustedStep) → List ArtifactRecord
  | none => []
  | some (store, steps) =>
    match captureArtifacts host store steps with
    | .ok records => records
    | .error _ => []

theorem settleCleanup_artifacts (host : Host) (a : Attempt) : (settleCleanup host a).artifacts = a.artifacts := by
  unfold settleCleanup
  split
  · rfl
  · split
    · rfl
    · split
      · rfl
      · exact failUnlessFailed_artifacts _ _

theorem settleArtifacts_artifacts (h : a.artifacts = []) (hworktree : a.worktree = true) :
    (settleArtifacts host a).artifacts = recordsOf host (captureCall a) := by
  unfold settleArtifacts captureCall
  cases a.store with
  | none => simp [h, recordsOf]
  | some store =>
    simp only [hworktree, true_and]
    split
    · simp only [Option.map_some, recordsOf]
      cases captureArtifacts host store a.attemptedSteps with
      | ok records => rfl
      | error e => exact (failUnlessFailed_artifacts _ _).trans h
    · exact h

theorem beforeCapture_settles (host : Host) (manifest : TrustedManifest) (a : Attempt) :
    Settles a (beforeCapture host manifest a) :=
  (verifySource_settles host a).trans (settleLocks_spec host manifest _).1

/-- **The records of a run are those of its capture.** -/
theorem reportedArtifacts_eq (P : Platform) (host : Host) (hmanifest : (attempt P host).manifest = some manifest) :
    reportedArtifacts P host = recordsOf host (captureCall (beforeCapture host manifest (attempt P host))) := by
  have hkept : (beforeCapture host manifest (attempt P host)).artifacts = [] := by
    rw [beforeCapture, (settleLocks_spec host manifest _).2.1, (verifySource_keeps host _).2.2,
      (attempt_reports P host).artifacts]
  have hsame : (beforeCapture host manifest (attempt P host)).worktree = (attempt P host).worktree := by
    obtain ⟨_, _, _, _, _, _, _, _, hsettled, -⟩ := beforeCapture_settles host manifest (attempt P host)
    rw [hsettled]
  unfold reportedArtifacts settleSource
  cases hworktree : (attempt P host).worktree with
  | false =>
    rw [hworktree] at hsame
    simp [captureCall, hsame, recordsOf, (attempt_reports P host).artifacts]
  | true =>
    rw [hworktree] at hsame
    simp only [if_true, hmanifest, settleCleanup_artifacts]
    exact settleArtifacts_artifacts hkept hsame

theorem captureCall_some (hmanifest : (attempt P host).manifest = some manifest)
    (h : captureCall (beforeCapture host manifest (attempt P host)) = some (store, steps)) :
    ∃ k, steps = manifest.executionSteps.take k := by
  obtain ⟨k, hk⟩ := (attempt_reports P host).attempted manifest hmanifest
  obtain ⟨_, _, _, _, _, _, _, _, hsettled, -⟩ := beforeCapture_settles host manifest (attempt P host)
  unfold captureCall at h
  split at h
  · obtain ⟨store', -, hpair⟩ := Option.map_eq_some_iff.1 h
    obtain ⟨-, rfl⟩ := Prod.mk.inj hpair
    exact ⟨k, by rw [hsettled]; exact hk⟩
  · cases h

/-! ## Compiled profiles -/

theorem compileArtifact_path {d : ArtifactDeclaration} {artifact : TrustedArtifact}
    (h : compileArtifact S d = .ok artifact) : artifact.relativePath = d.relativePath := by
  unfold compileArtifact at h
  simp only [except_bind_ok, except_pure_ok] at h
  obtain ⟨_, -, _, -, rfl⟩ := h
  rfl

theorem compileStep_paths {s : WorkloadStep} {step : TrustedStep} (h : compileStep S U s = .ok step) :
    step.artifacts.map TrustedArtifact.relativePath = s.artifacts.map ArtifactDeclaration.relativePath := by
  unfold compileStep at h
  simp only [except_bind_ok, except_pure_ok] at h
  obtain ⟨artifacts, hartifacts, _, -, rfl⟩ := h
  have hall := mapM_ok hartifacts
  clear hartifacts
  generalize s.artifacts = declared at hall
  induction hall with
  | nil => rfl
  | cons hd _ ih => rw [List.map_cons, List.map_cons, ih, compileArtifact_path hd]

theorem compileProfile_steps (h : compileProfile S U p = .ok manifest) :
    List.Forall₂ (fun s step => compileStep S U s = .ok step) p.steps manifest.executionSteps := by
  unfold compileProfile at h
  simp only [except_bind_ok, except_pure_ok] at h
  obtain ⟨steps, hsteps, _, -, _, -, _, -, rfl⟩ := h
  exact mapM_ok hsteps

/-- The paths that the capture of these steps asks for. -/
def declaredPaths (steps : List TrustedStep) : List String :=
  (declarations steps).map fun d => d.2.relativePath

/-- The declarations of the first steps of a profile. -/
def WorkloadProfile.firstDeclarations (p : WorkloadProfile) (k : ℕ) : List ArtifactDeclaration :=
  (p.steps.take k).flatMap WorkloadStep.artifacts

theorem declaredPaths_cons (step : TrustedStep) (steps : List TrustedStep) :
    declaredPaths (step :: steps) = step.artifacts.map TrustedArtifact.relativePath ++ declaredPaths steps := by
  simp [declaredPaths, declarations, Function.comp_def]

/-- **The steps of a compiled manifest ask for the artifacts of the profile.** -/
theorem compileProfile_paths (h : compileProfile S U p = .ok manifest) (k : ℕ) :
    declaredPaths (manifest.executionSteps.take k) =
      (p.firstDeclarations k).map ArtifactDeclaration.relativePath := by
  have hall := compileProfile_steps h
  unfold WorkloadProfile.firstDeclarations
  generalize p.steps = profileSteps at hall
  generalize manifest.executionSteps = steps at hall
  induction hall generalizing k with
  | nil => simp [declaredPaths, declarations]
  | cons hs _ ih =>
    cases k with
    | zero => simp [declaredPaths, declarations]
    | succ k => rw [List.take_succ_cons, List.take_succ_cons, declaredPaths_cons, ih, List.flatMap_cons,
        List.map_append, compileStep_paths hs]

theorem validate_distinct {casefold : String → String} (h : p.validate S casefold = .ok ()) :
    (p.declarations.map ArtifactDeclaration.relativePath).Nodup := by
  unfold WorkloadProfile.validate at h
  simp only [except_bind_ok, ensure_ok, decide_eq_true_iff] at h
  grind

theorem firstDeclarations_subset {k : ℕ} {d : ArtifactDeclaration} (h : d ∈ p.firstDeclarations k) :
    d ∈ p.declarations := by
  obtain ⟨s, hs, hd⟩ := List.mem_flatMap.1 h
  exact List.mem_flatMap.2 ⟨s, List.mem_of_mem_take hs, hd⟩

/-! ## Declared limits -/

/-- Nothing is found at the path of a declared artifact that is not required. -/
def absentOptional (files : ArtifactFiles) (p : WorkloadProfile) (path : String) : Bool :=
  decide (files.retained path = .missing) && p.declarations.any fun d => d.relativePath == path && !d.required

/-- The steps without the artifacts that are absent and not required. -/
def withoutAbsent (files : ArtifactFiles) (p : WorkloadProfile) (steps : List TrustedStep) : List TrustedStep :=
  steps.map fun s => { s with artifacts := s.artifacts.filter fun x => !absentOptional files p x.relativePath }

/-- A run on these files keeps the limits of the declarations: a record is within the limit of its declaration,
and the absence of artifacts that are not required is not what makes the capture raise. -/
structure KeepsDeclarations (P : Platform) (p : WorkloadProfile) (manifest : TrustedManifest) (host : Host)
    (limits : EvidenceLimits) (files : ArtifactFiles) : Prop where
  bounded : ∀ r ∈ reportedArtifacts P (host.withFiles limits files), ∀ d ∈ p.declarations,
    d.relativePath = r.relativePath → (r.sizeBytes : ℤ) ≤ d.maximumBytes
  optional : ∀ store steps,
    captureCall (beforeCapture (host.withFiles limits files) manifest (attempt P (host.withFiles limits files))) =
      some (store, steps) →
    (∃ records, captureArtifacts (host.withFiles limits files) store (withoutAbsent files p steps) = .ok records) →
    ∃ records, captureArtifacts (host.withFiles limits files) store steps = .ok records

/-- The files that the capture of these steps finds: none is larger than its declaration when the worker can
capture them all, and each is there when the worker can capture the others. -/
structure WithinDeclarations (p : WorkloadProfile) (host : Host) (limits : EvidenceLimits) (files : ArtifactFiles)
    (steps : List TrustedStep) : Prop where
  bounded : Capturable host limits files steps → ∀ d ∈ p.firstDeclarations steps.length,
    ((files.retained d.relativePath).size : ℤ) ≤ d.maximumBytes
  present : Capturable host limits files (withoutAbsent files p steps) → ∀ d ∈ p.firstDeclarations steps.length,
    d.required = false → files.retained d.relativePath ≠ .missing

theorem mem_declaredPaths {path : String} :
    path ∈ declaredPaths steps ↔ ∃ x ∈ declarations steps, x.2.relativePath = path :=
  List.mem_map

/-- The declarations of the captured steps. -/
theorem captureCall_paths (hcompile : compileProfile S U p = .ok manifest)
    (hmanifest : (attempt P host).manifest = some manifest)
    (h : captureCall (beforeCapture host manifest (attempt P host)) = some (store, steps)) :
    declaredPaths steps = (p.firstDeclarations steps.length).map ArtifactDeclaration.relativePath := by
  obtain ⟨k, rfl⟩ := captureCall_some hmanifest h
  have hlength : p.steps.length = manifest.executionSteps.length := (compileProfile_steps hcompile).length_eq
  rw [compileProfile_paths hcompile k, List.length_take, WorkloadProfile.firstDeclarations,
    WorkloadProfile.firstDeclarations, ← hlength, List.take_eq_take_min (i := k)]

section limits

variable (hdistinct : (p.declarations.map ArtifactDeclaration.relativePath).Nodup)
  (hpaths : declaredPaths steps = (p.firstDeclarations steps.length).map ArtifactDeclaration.relativePath)

include hdistinct hpaths

/-- A declaration with the path of a captured artifact is the one of this artifact. -/
theorem firstDeclarations_of_path {d : ArtifactDeclaration} (hd : d ∈ p.declarations)
    (hpath : d.relativePath ∈ declaredPaths steps) : d ∈ p.firstDeclarations steps.length := by
  rw [hpaths] at hpath
  obtain ⟨d', hd', hsame⟩ := List.mem_map.1 hpath
  obtain rfl : d' = d := List.inj_on_of_nodup_map hdistinct (firstDeclarations_subset hd') hd hsame
  exact hd'

omit hdistinct in
/-- A declaration of the captured steps asks for an artifact. -/
theorem declarations_of_first {d : ArtifactDeclaration} (hd : d ∈ p.firstDeclarations steps.length) :
    ∃ x ∈ declarations steps, x.2.relativePath = d.relativePath := by
  refine mem_declaredPaths.1 ?_
  rw [hpaths]
  exact List.mem_map_of_mem hd

/-- Nothing is left out when every artifact that is not required is there. -/
theorem withoutAbsent_eq_self (h : ∀ d ∈ p.firstDeclarations steps.length, d.required = false →
    files.retained d.relativePath ≠ .missing) : withoutAbsent files p steps = steps := by
  refine (List.map_congr_left fun s hs => ?_).trans (List.map_id steps)
  have hkept : s.artifacts.filter (fun x => !absentOptional files p x.relativePath) = s.artifacts := by
    refine List.filter_eq_self.2 fun x hx => ?_
    by_contra habsent
    simp only [absentOptional, Bool.not_eq_true', Bool.not_eq_false, Bool.and_eq_true, decide_eq_true_iff,
      List.any_eq_true, beq_iff_eq] at habsent
    obtain ⟨hmissing, d, hd, hpath, hoptional⟩ := habsent
    have hdeclared : (s.id, x) ∈ declarations steps := List.mem_flatMap.2 ⟨s, hs, List.mem_map_of_mem hx⟩
    have hfirst := firstDeclarations_of_path hdistinct hpaths hd (mem_declaredPaths.2 ⟨_, hdeclared, hpath.symm⟩)
    exact h d hfirst hoptional (hpath ▸ hmissing)
  rw [hkept]
  rfl

end limits

def logDeclaration : ArtifactDeclaration :=
  { kind := "log", relativePath := "logs/unit.stdout.log", mediaType := "text/plain", maximumBytes := 100 }

def reportDeclaration : ArtifactDeclaration :=
  { kind := "coverage-xml", relativePath := "build/reports/full-src-coverage.xml", mediaType := "application/xml"
    required := false, maximumBytes := 200 }

/-- A test step with a log of at most 100 bytes, and a diagnostic step whose report may be absent. -/
def limitedProfile : WorkloadProfile :=
  { repositoryFullName := "Nobodyworld/dev-agent-switchboard", displayName := "Tests", description := "Tests"
    documentationReference := "docs/tests.md", manifestName := "tests", manifestVersion := "1"
    requiredCapabilities := [("operating_system", .arr [.str "linux"]), ("git_available", .bool true),
      ("repository_write", .bool false)]
    environmentPolicy := [("allowed_inherited_keys", ["PATH"]), ("redact_keys", ["TOKEN"])], networkPolicy := "disabled"
    repositoryWritePolicy := "read_only", timeoutSeconds := 600
    resourceLimits := ⟨8, 1000, 5000, 30⟩, resultAffectingInputPaths := ["pyproject.toml"]
    deterministicExclusions := []
    steps :=
      [{ id := "unit", title := "Unit tests", argv := ["pytest"], required := true, timeoutSeconds := 60
         outputSummaryLimit := 1000, artifacts := [logDeclaration] },
       { id := "full-src-coverage", title := "Coverage", argv := ["coverage"], required := false, timeoutSeconds := 60
         outputSummaryLimit := 1000, artifacts := [reportDeclaration], diagnosticOnly := true }] }

def limitedManifest : TrustedManifest :=
  (compileProfile asciiPlatform PyText.asciiTable limitedProfile).toOption.getD sampleManifest

theorem limitedProfile_valid : limitedProfile.validate asciiPlatform id = .ok () := by decide +kernel

theorem limitedProfile_compiles : compileProfile asciiPlatform PyText.asciiTable limitedProfile = .ok limitedManifest := by
  have hok : (compileProfile asciiPlatform PyText.asciiTable limitedProfile).toOption.isSome = true := by decide +kernel
  obtain ⟨m, hm⟩ := returns_of_isSome hok
  unfold limitedManifest
  rw [hm]
  rfl

def limitedPlatform : Platform := { asciiPlatform with manifests := [limitedManifest] }

def limitedHost : Host := { coverageHost with remoteManifest := .ok ⟨limitedManifest.metadata, "digest"⟩ }

/-- A log of `size` bytes, and the report. -/
def limitedFiles (size : ℕ) (report : FileState) : ArtifactFiles :=
  { coverageFiles report with
    runDirectory := fun path => if path = "logs/unit.stdout.log" then .regular size "digest" true else .missing }

/-- The worker runs the compiled manifest. -/
theorem limitedHost_manifest (files : ArtifactFiles) :
    (attempt limitedPlatform (limitedHost.withFiles coverageLimits files)).manifest = some limitedManifest := by
  have hok : (fetchManifest limitedPlatform limitedHost coverageOrder).toOption.isSome = true := by decide +kernel
  obtain ⟨m, hfetched⟩ := returns_of_isSome hok
  have hfound : limitedPlatform.getTrustedManifest "tests" "1" = some limitedManifest :=
    List.find?_cons_of_pos (by decide +kernel)
  obtain rfl : m = limitedManifest := Option.some.inj ((fetchManifest_ok hfetched).1.symm.trans hfound)
  have hc : CheckedOut limitedPlatform (limitedHost.withFiles coverageLimits files) coverageOrder limitedManifest "env"
      ⟨1000⟩ := ⟨rfl, hfetched, rfl, rfl, rfl, rfl, rfl⟩
  exact (attempt_worked hc).fetched

end Switchboard
