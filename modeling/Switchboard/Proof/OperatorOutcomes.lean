import Switchboard.Proof.OperatorInspections

/-!
# What an inspection can report

The checks of a stored report are many and small. Together they say that a success is a whole lifecycle, and that the
phases of a report, however it came to be stored, are a run of the lifecycle that stopped somewhere.

* `Succeeded`: a whole lifecycle of a runtime.
* `inspect_succeeded`: a success that is inspected is one.
* `inspect_phases`: the phases that are inspected stand in their order; all of them are there only in a success.
-/

namespace Switchboard

open Transaction
open JsonText (Value)

namespace Operator

variable {I : Interpreter} {P : Platform} {r : OperatorLifecycleReport} {s : RuntimeSummary}

/-! ## Phases -/

/-- Items that stand in a list at increasing positions are a sublist of it. -/
theorem sublist_of_idxOf {α : Type} [DecidableEq α] {xs l : List α} (hmem : ∀ x ∈ xs, x ∈ l)
    (h : (xs.map fun x => l.idxOf x).Pairwise (· < ·)) : xs.Sublist l := by
  have hlt : ∀ x : {x // x ∈ xs}, l.idxOf x.1 < l.length := fun x => List.idxOf_lt_length_iff.2 (hmem x.1 x.2)
  have hpairs : (xs.attach.map fun x => (⟨l.idxOf x.1, hlt x⟩ : Fin l.length)).Pairwise (· < ·) := by
    rw [List.pairwise_map]
    rw [List.pairwise_map] at h
    have hattached : xs.attach.Pairwise fun x y => l.idxOf x.1 < l.idxOf y.1 := by
      rw [← List.pairwise_map (f := Subtype.val) (R := fun x y => l.idxOf x < l.idxOf y), List.attach_map_subtype_val]
      exact h
    exact hattached
  have hsub := List.map_getElem_sublist hpairs
  have heq : (xs.attach.map fun x => (⟨l.idxOf x.1, hlt x⟩ : Fin l.length)).map (fun i => l[i]) = xs := by
    rw [List.map_map]
    refine (List.map_congr_left fun x _ => ?_).trans (List.attach_map_subtype_val xs)
    exact List.getElem_idxOf (hlt x)
  rwa [heq] at hsub

theorem phasesOrdered_iff {phases : List String} (h : phasesOrdered phases = true) :
    (phases.map fun phase => lifecyclePhases.idxOf phase).Pairwise (· < ·) := by
  have heq := of_decide_eq_true h
  have hsorted := List.pairwise_insertionSort (· ≤ ·) (phases.map fun phase => lifecyclePhases.idxOf phase).dedup
  have hnodup : ((phases.map fun phase => lifecyclePhases.idxOf phase).dedup.insertionSort (· ≤ ·)).Nodup :=
    (List.perm_insertionSort (· ≤ ·) _).nodup_iff.2 (List.nodup_dedup _)
  rw [← heq] at hsorted hnodup
  exact (hsorted.and hnodup).imp fun h => lt_of_le_of_ne h.1 h.2

/-- What the report contract has checked of a report. -/
structure Accepted (r : OperatorLifecycleReport) : Prop where
  known : ∀ phase ∈ r.phases, phase ∈ lifecyclePhases
  ordered : phasesOrdered r.phases = true
  flags : ∀ f ∈ r.flagPhases, f.1 = decide (f.2 ∈ r.phases)
  checks : r.preflightChecks = if r.preflightPassed then preflightCheckNames else []
  runtime : validateReportRuntime r = .ok ()
  cleanup : "cleanup_verified" ∈ r.phases →
    r.ownedProcessesStopped = true ∧ r.portReleased = true ∧ r.canonicalCheckoutUnchanged = true
  runs : validateRuns r = .ok ()
  outcome : (if r.outcome = "succeeded" then validateSuccess r else validateUnsuccessful r) = .ok ()

theorem validateReportState_ok {u : Unit} (h : validateReportState r = .ok u) : Accepted r := by
  unfold validateReportState at h
  obtain ⟨_, _, h⟩ := except_bind_ok.1 h
  obtain ⟨_, _, h⟩ := except_bind_ok.1 h
  obtain ⟨_, _, h⟩ := except_bind_ok.1 h
  obtain ⟨_, hknown, h⟩ := except_bind_ok.1 h
  obtain ⟨_, hordered, h⟩ := except_bind_ok.1 h
  obtain ⟨_, _, h⟩ := except_bind_ok.1 h
  obtain ⟨_, hflags, h⟩ := except_bind_ok.1 h
  obtain ⟨_, hchecks, h⟩ := except_bind_ok.1 h
  obtain ⟨_, _, h⟩ := except_bind_ok.1 h
  obtain ⟨_, _, h⟩ := except_bind_ok.1 h
  obtain ⟨_, hruntime, h⟩ := except_bind_ok.1 h
  obtain ⟨_, hcleanup, h⟩ := except_bind_ok.1 h
  obtain ⟨_, hruns, houtcome⟩ := except_bind_ok.1 h
  constructor
  · intro phase hphase
    exact of_decide_eq_true (List.all_eq_true.1 (ensure_ok.1 hknown) phase hphase)
  · exact ensure_ok.1 hordered
  · intro f hf
    exact beq_iff_eq.1 (ensure_ok.1 (except_forM_ok.1 hflags f hf))
  · exact of_decide_eq_true (ensure_ok.1 hchecks)
  · exact hruntime
  · exact of_decide_eq_true (ensure_ok.1 hcleanup)
  · exact hruns
  · exact houtcome

/-- What a runtime allows its report to record. -/
theorem validateReportRuntime_ok {u : Unit} (hs : r.runtime = some s) (h : validateReportRuntime r = .ok u) :
    ∃ created allowed, timestamp s.createdAt = .ok created ∧ successPhases s.mode = .ok allowed ∧
      (∀ phase ∈ r.phases, phase ∈ allowed) ∧
      ∀ c, r.completedAt = some c → ∃ completed, timestamp c = .ok completed ∧ created ≤ completed := by
  unfold validateReportRuntime at h
  rw [hs] at h
  obtain ⟨created, hcreated, h⟩ := except_bind_ok.1 h
  obtain ⟨allowed, hallowed, h⟩ := except_bind_ok.1 h
  obtain ⟨_, hphases, h⟩ := except_bind_ok.1 h
  refine ⟨created, allowed, hcreated, hallowed, ?_, ?_⟩
  · intro phase hphase
    exact of_decide_eq_true (List.all_eq_true.1 (ensure_ok.1 hphases) phase hphase)
  · intro c hc
    rw [hc] at h
    obtain ⟨completed, hinstant, h⟩ := except_bind_ok.1 h
    obtain ⟨_, hle, _⟩ := except_bind_ok.1 h
    exact ⟨completed, hinstant, of_decide_eq_true (ensure_ok.1 hle)⟩

/-- The phases of a mode are those of the lifecycle that it allows, in the order of the lifecycle. -/
theorem successPhases_filter {mode : String} {allowed : List String} (h : successPhases mode = .ok allowed) :
    lifecyclePhases.filter (fun phase => decide (phase ∈ allowed)) = allowed := by
  unfold successPhases at h
  obtain ⟨_, _, h⟩ := except_bind_ok.1 h
  obtain rfl := Except.ok.inj h
  split
  · decide
  · decide

/-- **The phases of an accepted report are recorded in their order, each once.** -/
theorem Accepted.sublist (h : Accepted r) (hs : r.runtime = some s) :
    ∃ allowed, successPhases s.mode = .ok allowed ∧ r.phases.Sublist allowed := by
  obtain ⟨_, allowed, _, hallowed, hphases, _⟩ := validateReportRuntime_ok hs h.runtime
  have hsub : r.phases.Sublist lifecyclePhases := sublist_of_idxOf h.known (phasesOrdered_iff h.ordered)
  have hfiltered := hsub.filter fun phase => decide (phase ∈ allowed)
  have hself : r.phases.filter (fun phase => decide (phase ∈ allowed)) = r.phases := by
    rw [List.filter_eq_self]
    intro phase hphase
    exact decide_eq_true (hphases phase hphase)
  rw [successPhases_filter hallowed, hself] at hfiltered
  exact ⟨allowed, hallowed, hfiltered⟩

/-! ## Successes -/

/-- The reuse of a run: another order and another run, on the same worker for the same work, that executes nothing. -/
structure Reuses (reuse fresh : RunSummary) : Prop where
  phase : reuse.phase = "reuse"
  source : reuse.reusedFromRunId = some fresh.runId ∧ reuse.sourceRunId = fresh.runId
  run : reuse.runId ≠ fresh.runId
  order : reuse.workOrderId ≠ fresh.workOrderId
  worker : reuse.workerId = fresh.workerId
  identity : reuse.reuseIdentityHash = fresh.reuseIdentityHash
  steps : reuse.steps = []
  artifacts : reuse.artifacts = []

/-- A whole lifecycle of a runtime. -/
structure Succeeded (r : OperatorLifecycleReport) (s : RuntimeSummary) : Prop where
  phases : successPhases s.mode = .ok r.phases
  ready : r.preflightPassed = true ∧ r.serverReady = true ∧ r.workerReady = true ∧ r.freshApproved = true
  checks : r.preflightChecks = preflightCheckNames
  idle : r.activeLeaseCount = some 0 ∧ r.workerActiveRunCount = some 0
  cleanup : r.ownedProcessesStopped = true ∧ r.portReleased = true ∧ r.canonicalCheckoutUnchanged = true
  runs : (s.mode = "fresh-only" ∧ r.reuseApproved = false ∧ r.operatorActionCount = 1 ∧
      r.avoidedDeterministicStepCount = 0 ∧ ∃ fresh, r.runs = [fresh] ∧ fresh.phase = "fresh" ∧ fresh.steps ≠ []) ∨
    s.mode = "fresh-then-exact-reuse" ∧ r.reuseApproved = true ∧ r.operatorActionCount = 2 ∧
      ∃ fresh reuse, r.runs = [fresh, reuse] ∧ fresh.phase = "fresh" ∧ fresh.steps ≠ [] ∧ Reuses reuse fresh ∧
        r.avoidedDeterministicStepCount = fresh.steps.length
  verified : ∀ run ∈ r.runs, run.status = "succeeded" ∧ run.routeVerified = true ∧ run.evidenceVerified = true ∧
    run.localEvidenceVerified = true ∧ run.sourceCheckoutUnchanged = true
  retained : ∃ created c completed, timestamp s.createdAt = .ok created ∧ r.completedAt = some c ∧
    timestamp c = .ok completed ∧ created ≤ completed ∧
    ∀ run ∈ r.runs, ∃ expiry, timestamp run.evidenceRetentionExpiresAt = .ok expiry ∧ completed < expiry

/-- What the checks of a run say of it. -/
theorem validateRunSummary_ok {run : RunSummary} {u : Unit} (h : validateRunSummary P run = .ok u) :
    (run.status = "succeeded" ∧ run.routeVerified = true ∧ run.evidenceVerified = true ∧
      run.localEvidenceVerified = true ∧ run.sourceCheckoutUnchanged = true) ∧
      run.stepCount = run.steps.length ∧ run.artifactCount = run.artifacts.length := by
  have hchecks := ensure_ok.1 h
  simp only [RunSummary.checks, Bool.and_eq_true, decide_eq_true_eq] at hchecks
  obtain ⟨⟨⟨_, hchecks⟩, _⟩, _⟩ := hchecks
  obtain ⟨⟨⟨⟨⟨⟨⟨⟨hchecks, hsteps⟩, hartifacts⟩, _⟩, _⟩, hroute⟩, hevidence⟩, hlocal⟩, hsource⟩ := hchecks
  obtain ⟨⟨⟨⟨⟨⟨hchecks, _⟩, _⟩, _⟩, _⟩, _⟩, _⟩ := hchecks
  exact ⟨⟨hchecks.2, hroute, hevidence, hlocal, hsource⟩, hsteps, hartifacts⟩

/-- What the checks of the runs say of the first one. -/
theorem validateRuns_cons {fresh : RunSummary} {others : List RunSummary} {u : Unit}
    (hruns : r.runs = fresh :: others)
    (h : validateRuns r = .ok u) : fresh.phase = "fresh" ∧ 0 < fresh.stepCount ∧
      (others = [] → r.avoidedDeterministicStepCount = 0) ∧
      ∀ reuse, others = [reuse] → validateReuse r fresh reuse = .ok () := by
  unfold validateRuns at h
  rw [hruns] at h
  obtain ⟨_, _, h⟩ := except_bind_ok.1 h
  obtain ⟨_, hfresh, h⟩ := except_bind_ok.1 h
  obtain ⟨_, hsteps, h⟩ := except_bind_ok.1 h
  obtain ⟨_, _, h⟩ := except_bind_ok.1 h
  refine ⟨(of_decide_eq_true (ensure_ok.1 hfresh)).1, of_decide_eq_true (ensure_ok.1 hsteps), ?_, ?_⟩
  · rintro rfl
    exact of_decide_eq_true (ensure_ok.1 h)
  · rintro reuse rfl
    exact h

/-- What the checks of a reuse say, of runs that are checked themselves. -/
theorem validateReuse_ok {fresh reuse : RunSummary} {u : Unit} (hsteps : reuse.stepCount = reuse.steps.length)
    (hartifacts : reuse.artifactCount = reuse.artifacts.length) (h : validateReuse r fresh reuse = .ok u) :
    Reuses reuse fresh ∧ r.avoidedDeterministicStepCount = fresh.stepCount := by
  unfold validateReuse at h
  obtain ⟨_, _, h⟩ := except_bind_ok.1 h
  obtain ⟨_, _, h⟩ := except_bind_ok.1 h
  obtain ⟨_, hphase, h⟩ := except_bind_ok.1 h
  obtain ⟨_, hrun, h⟩ := except_bind_ok.1 h
  obtain ⟨_, horder, h⟩ := except_bind_ok.1 h
  obtain ⟨_, hsource, h⟩ := except_bind_ok.1 h
  obtain ⟨_, hworker, h⟩ := except_bind_ok.1 h
  obtain ⟨_, hempty, havoided⟩ := except_bind_ok.1 h
  have hlink := of_decide_eq_true (ensure_ok.1 hsource)
  have hsame := of_decide_eq_true (ensure_ok.1 hworker)
  have hnone := of_decide_eq_true (ensure_ok.1 hempty)
  refine ⟨?_, of_decide_eq_true (ensure_ok.1 havoided)⟩
  constructor
  · exact of_decide_eq_true (ensure_ok.1 hphase)
  · exact ⟨by rw [hlink.1, hlink.2], hlink.2⟩
  · exact of_decide_eq_true (ensure_ok.1 hrun)
  · exact of_decide_eq_true (ensure_ok.1 horder)
  · exact hsame.1.symm
  · exact hsame.2.symm
  · have hlength : reuse.steps.length = 0 := by omega
    exact List.length_eq_zero_iff.1 hlength
  · have hlength : reuse.artifacts.length = 0 := by omega
    exact List.length_eq_zero_iff.1 hlength

/-- What the checks of a success say. -/
theorem validateSuccess_ok {u : Unit} (hs : r.runtime = some s) (h : validateSuccess r = .ok u) :
    ∃ reuse, reuse = decide (s.mode = "fresh-then-exact-reuse") ∧ successPhases s.mode = .ok r.phases ∧
      r.runs.length = 1 + reuse.toNat ∧
      (r.preflightPassed = true ∧ r.serverReady = true ∧ r.workerReady = true ∧ r.freshApproved = true) ∧
      r.reuseApproved = reuse ∧ r.operatorActionCount = 1 + reuse.toNat ∧
      (r.activeLeaseCount = some 0 ∧ r.workerActiveRunCount = some 0) ∧
      ∃ c completed, r.completedAt = some c ∧ timestamp c = .ok completed ∧
        ∀ run ∈ r.runs, ∃ expiry, timestamp run.evidenceRetentionExpiresAt = .ok expiry ∧ completed < expiry := by
  unfold validateSuccess at h
  rw [hs] at h
  obtain ⟨phases, hallowed, h⟩ := except_bind_ok.1 h
  obtain ⟨_, hphases, h⟩ := except_bind_ok.1 h
  obtain ⟨_, hlength, h⟩ := except_bind_ok.1 h
  obtain ⟨_, _, h⟩ := except_bind_ok.1 h
  obtain ⟨_, hcompleted, h⟩ := except_bind_ok.1 h
  obtain ⟨_, hready, h⟩ := except_bind_ok.1 h
  obtain ⟨_, happroved, h⟩ := except_bind_ok.1 h
  obtain ⟨_, hcount, h⟩ := except_bind_ok.1 h
  obtain ⟨_, hidle, h⟩ := except_bind_ok.1 h
  obtain ⟨_, _, h⟩ := except_bind_ok.1 h
  obtain ⟨completed, hinstant, h⟩ := except_bind_ok.1 h
  have heq := of_decide_eq_true (ensure_ok.1 hphases)
  have hflags := ensure_ok.1 hready
  have hfresh := ensure_ok.1 happroved
  simp only [Bool.and_eq_true] at hflags hfresh
  obtain ⟨c, hc⟩ := Option.isSome_iff_exists.1 (ensure_ok.1 hcompleted)
  rw [hc, Option.getD_some] at hinstant
  refine ⟨_, rfl, by rw [hallowed, heq], of_decide_eq_true (ensure_ok.1 hlength),
    ⟨hflags.1.1, hflags.1.2, hflags.2, hfresh.1⟩, beq_iff_eq.1 hfresh.2, of_decide_eq_true (ensure_ok.1 hcount),
    of_decide_eq_true (ensure_ok.1 hidle), c, completed, hc, hinstant, ?_⟩
  intro run hrun
  obtain ⟨expiry, hexpiry, hlater⟩ := except_bind_ok.1 (except_forM_ok.1 h run hrun)
  exact ⟨expiry, hexpiry, of_decide_eq_true (ensure_ok.1 hlater)⟩

theorem cleanup_of_success {mode : String} {phases : List String} (h : successPhases mode = .ok phases) :
    "cleanup_verified" ∈ phases := by
  unfold successPhases at h
  obtain ⟨_, _, h⟩ := except_bind_ok.1 h
  obtain rfl := Except.ok.inj h
  simp [shutdownPhases]

theorem mode_of_success {mode : String} {phases : List String} (h : successPhases mode = .ok phases) :
    mode = "fresh-only" ∨ mode = "fresh-then-exact-reuse" := by
  obtain ⟨_, hmode, _⟩ := except_bind_ok.1 h
  have hmem := of_decide_eq_true (ensure_ok.1 hmode)
  rcases List.mem_cons.1 hmem with h | h
  · exact .inl h
  · exact .inr (List.mem_singleton.1 h)

/-- **An accepted success is a whole lifecycle.** -/
theorem Accepted.succeeded (h : Accepted r) (hs : r.runtime = some s) (houtcome : r.outcome = "succeeded")
    (hchecked : ∀ run ∈ r.runs, validateRunSummary P run = .ok ()) : Succeeded r s := by
  have hsuccess := h.outcome
  rw [if_pos houtcome] at hsuccess
  obtain ⟨reuse, hreuse, hphases, hlength, hready, happroved, hcount, hidle, c, completed, hc, hinstant, hretained⟩ :=
    validateSuccess_ok hs hsuccess
  obtain ⟨created, _, hcreated, _, _, hordered⟩ := validateReportRuntime_ok hs h.runtime
  obtain ⟨completed', hinstant', hle⟩ := hordered c hc
  obtain rfl : completed = completed' := Except.ok.inj (hinstant.symm.trans hinstant')
  constructor
  · exact hphases
  · exact hready
  · rw [h.checks, if_pos hready.1]
  · exact hidle
  · exact h.cleanup (cleanup_of_success hphases)
  · rcases mode_of_success hphases with hmode | hmode
    · have hnone : reuse = false := by rw [hreuse, hmode]; rfl
      subst hnone
      obtain ⟨fresh, hruns⟩ := List.length_eq_one_iff.1 hlength
      obtain ⟨hphase, hsteps, havoided, _⟩ := validateRuns_cons hruns h.runs
      have hchecks := validateRunSummary_ok (hchecked fresh (by rw [hruns]; exact List.mem_cons_self))
      refine .inl ⟨hmode, happroved, hcount, havoided rfl, fresh, hruns, hphase, ?_⟩
      rintro hempty
      rw [hchecks.2.1, hempty] at hsteps
      cases hsteps
    · have hsome : reuse = true := by rw [hreuse, hmode]; rfl
      subst hsome
      obtain ⟨fresh, again, hruns⟩ := List.length_eq_two.1 hlength
      obtain ⟨hphase, hsteps, _, hlinked⟩ := validateRuns_cons hruns h.runs
      have hchecks := validateRunSummary_ok (hchecked fresh (by rw [hruns]; simp))
      have hchecks' := validateRunSummary_ok (hchecked again (by rw [hruns]; simp))
      obtain ⟨hreuses, havoided⟩ := validateReuse_ok hchecks'.2.1 hchecks'.2.2 (hlinked again rfl)
      rw [hchecks.2.1] at havoided hsteps
      refine .inr ⟨hmode, happroved, hcount, fresh, again, hruns, hphase, ?_, hreuses, havoided⟩
      rintro hempty
      rw [hempty] at hsteps
      cases hsteps
  · intro run hrun
    exact (validateRunSummary_ok (hchecked run hrun)).1
  · exact ⟨created, c, completed, hcreated, hc, hinstant, hle, hretained⟩

/-! ## Inspections -/

theorem asDict_accepted {payload : Value Binary64} (h : r.asDict P = .ok payload) :
    Accepted r ∧ ∀ run ∈ r.runs, validateRunSummary P run = .ok () := by
  obtain ⟨_, _, _, hruns, hstate⟩ := asDict_ok h
  exact ⟨validateReportState_ok hstate, hruns⟩

/-- What is inspected is the marker's runtime alone, or an accepted report of it. -/
theorem inspectValidationRuntime_ok {root : RuntimeRoot} (h : inspectValidationRuntime I P root = .ok r) :
    ∃ s, readRuntimeSummary I root = .ok s ∧ r.runtime = some s ∧
      (r = { outcome := "inspected", reason := "runtime_marker_verified", runtime := some s } ∨
        Accepted r ∧ ∀ run ∈ r.runs, validateRunSummary P run = .ok ()) := by
  obtain ⟨s, hs, h⟩ := except_bind_ok.1 h
  obtain ⟨payload, _, h⟩ := except_bind_ok.1 h
  cases payload with
  | none =>
    obtain rfl := Except.ok.inj h
    exact ⟨s, hs, rfl, .inl rfl⟩
  | some fields =>
    cases hreport : storedReport P s fields with
    | error e =>
      simp only [hreport] at h
      cases h
    | ok report =>
      simp only [hreport] at h
      obtain rfl : report = r := Except.ok.inj h
      obtain ⟨hread, _, _, hdict⟩ := storedReport_ok hreport
      exact ⟨s, hs, (OperatorLifecycleReport.ofFields_iff.1 hread).1, .inr (asDict_accepted hdict)⟩

/-- **Whatever is stored, a success that is inspected is a whole lifecycle of the marker's runtime.** -/
theorem inspect_succeeded {root : RuntimeRoot} (h : inspectValidationRuntime I P root = .ok r)
    (houtcome : r.outcome = "succeeded") : ∃ s, readRuntimeSummary I root = .ok s ∧ Succeeded r s := by
  obtain ⟨s, hs, hruntime, rfl | ⟨haccepted, hruns⟩⟩ := inspectValidationRuntime_ok h
  · have hinspected : "inspected" = "succeeded" := houtcome
    exact absurd hinspected (by decide)
  · exact ⟨s, hs, haccepted.succeeded hruntime houtcome hruns⟩

theorem inspect_succeeded_sample :
    ∃ root, inspectValidationRuntime plainInterpreter asciiPlatform root = .ok sampleReport ∧
    sampleReport.outcome = "succeeded" ∧
    ∃ s, readRuntimeSummary plainInterpreter root = .ok s ∧ Succeeded sampleReport s := by
  obtain ⟨root, _, _, hinspect⟩ := sampleReport_inspected
  exact ⟨root, hinspect, rfl, inspect_succeeded hinspect rfl⟩

/-- The summary of a marker that is read has a mode of the lifecycle. -/
theorem readRuntimeSummary_mode {root : RuntimeRoot} (h : readRuntimeSummary I root = .ok s) :
    ∃ allowed, successPhases s.mode = .ok allowed := by
  obtain ⟨v, _, h⟩ := except_bind_ok.1 h
  cases v with
  | obj fields =>
    obtain ⟨_, _, h⟩ := except_bind_ok.1 h
    cases hread : RuntimeSummary.ofFields fields with
    | none =>
      rw [hread] at h
      cases h
    | some summary =>
      rw [hread] at h
      obtain ⟨_, hvalid, h⟩ := except_bind_ok.1 h
      obtain rfl := Except.ok.inj h
      have hchecks := ensure_ok.1 hvalid
      simp only [Bool.and_eq_true] at hchecks
      exact ⟨_, except_bind_ok.2 ⟨(), ensure_ok.2 hchecks.1.1.2, rfl⟩⟩
  | _ => cases h

theorem completed_of_success {mode : String} {phases : List String} (h : successPhases mode = .ok phases) :
    "completed" ∈ phases := by
  unfold successPhases at h
  obtain ⟨_, _, h⟩ := except_bind_ok.1 h
  obtain rfl := Except.ok.inj h
  simp [shutdownPhases]

/-- A report that records the completion claims the success. -/
theorem Accepted.outcome_of_completed (h : Accepted r) (hphase : "completed" ∈ r.phases) :
    r.outcome = "succeeded" := by
  by_contra hother
  have houtcome := h.outcome
  rw [if_neg hother] at houtcome
  obtain ⟨_, hno, _⟩ := except_bind_ok.1 houtcome
  exact (of_decide_eq_true (ensure_ok.1 hno)).1 hphase

/-- **Whatever is stored, the phases that are inspected stand in the order of the lifecycle, each once, and agree with
the flags; all of them are there if and only if the outcome is a success.** -/
theorem inspect_phases {root : RuntimeRoot} (h : inspectValidationRuntime I P root = .ok r) :
    ∃ s allowed, readRuntimeSummary I root = .ok s ∧ successPhases s.mode = .ok allowed ∧ r.phases.Sublist allowed ∧
      (∀ f ∈ r.flagPhases, f.1 = true ↔ f.2 ∈ r.phases) ∧ (r.outcome = "succeeded" ↔ r.phases = allowed) := by
  obtain ⟨s, hs, hruntime, rfl | ⟨haccepted, hruns⟩⟩ := inspectValidationRuntime_ok h
  · obtain ⟨allowed, hallowed⟩ := readRuntimeSummary_mode hs
    refine ⟨s, allowed, hs, hallowed, List.nil_sublist _, by simp [OperatorLifecycleReport.flagPhases], ?_, ?_⟩
    · intro houtcome
      have hinspected : "inspected" = "succeeded" := houtcome
      exact absurd hinspected (by decide)
    · intro hphases
      have hmem := completed_of_success hallowed
      have hnil : allowed = [] := hphases.symm
      rw [hnil] at hmem
      cases hmem
  · obtain ⟨allowed, hallowed, hsub⟩ := haccepted.sublist hruntime
    refine ⟨s, allowed, hs, hallowed, hsub, ?_, ?_, ?_⟩
    · intro f hf
      rw [haccepted.flags f hf, decide_eq_true_eq]
    · intro houtcome
      have hphases := (haccepted.succeeded hruntime houtcome hruns).phases
      exact Except.ok.inj (hphases.symm.trans hallowed)
    · intro hphases
      have hmem := completed_of_success hallowed
      rw [← hphases] at hmem
      exact haccepted.outcome_of_completed hmem

theorem inspect_phases_sample :
    ∃ root, inspectValidationRuntime plainInterpreter asciiPlatform root = .ok sampleReport ∧
    ∃ s allowed, readRuntimeSummary plainInterpreter root = .ok s ∧ successPhases s.mode = .ok allowed ∧
      sampleReport.phases.Sublist allowed ∧ (∀ f ∈ sampleReport.flagPhases, f.1 = true ↔ f.2 ∈ sampleReport.phases) ∧
      (sampleReport.outcome = "succeeded" ↔ sampleReport.phases = allowed) := by
  obtain ⟨root, _, _, hinspect⟩ := sampleReport_inspected
  exact ⟨root, hinspect, inspect_phases hinspect⟩

end Operator
end Switchboard
