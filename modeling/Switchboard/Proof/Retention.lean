import Switchboard.Proof.Reuse

/-!
# Evidence retention

`_reuse_completion_values` stores the submitted retention as it came, the column drops
the UTC offset, and `_validated_reuse_candidate` reads the wall clock back as UTC.

* `completeRun_stored`: what an accepted completion leaves in the retention column.
* `validatedReuseCandidate_until`: a run is offered exactly until the instant in that
  column.
* `runCalls_retention`: the submitted instant is kept exactly when its offset is zero.
-/

namespace Switchboard

open Table Transaction

variable {P : Platform} {s : Database} {ss ss' : Session Database}

/-- The evidence of run `r` is retained until `t`: `_validated_reuse_candidate` reads `t`, and what it
offers before `t` does not depend on the time, while from `t` on it offers nothing. -/
structure RetainedUntil (P : Platform) (t : Time) (r : ExecutionRun) : Prop where
  instant : r.reuse.evidenceRetentionExpiresAt = some t
  offered : ∀ o expected s, ∃ candidate : Option ReuseCandidate, ∀ now,
    Service.validatedReuseCandidate P r o expected now s = if now < t then candidate else none

/-! ## Reading the column -/

/-- The clock enters the checks on a source through its retention only. -/
theorem eligibleSource_congr {r : ExecutionRun} {o : WorkOrder} {w : Worker} {e : ExecutionEvidence}
    {stored expected : ReuseIdentity} {t now now' : Time} {provenance : ReuseProvenance} (h : now < t ↔ now' < t) :
    Service.eligibleSource P r o w e stored expected t now provenance =
      Service.eligibleSource P r o w e stored expected t now' provenance := by
  unfold Service.eligibleSource
  rw [decide_eq_decide.2 h]

theorem eligibleSource_expired {r : ExecutionRun} {o : WorkOrder} {w : Worker} {e : ExecutionEvidence}
    {stored expected : ReuseIdentity} {t now : Time} {provenance : ReuseProvenance} (h : t ≤ now) :
    Service.eligibleSource P r o w e stored expected t now provenance = false := by
  have hlate : decide (now < t) = false := decide_eq_false (not_lt.2 h)
  unfold Service.eligibleSource
  simp only [hlate, Bool.and_false, Bool.false_and]

/-- **A run is offered exactly until the instant in its retention column.** -/
theorem validatedReuseCandidate_until {r : ExecutionRun} {t : Time} (h : r.reuse.evidenceRetentionExpiresAt = some t) :
    RetainedUntil P t r := by
  refine ⟨h, fun o expected s => ⟨Service.validatedReuseCandidate P r o expected (t - 1) s, fun now => ?_⟩⟩
  unfold Service.validatedReuseCandidate
  simp only [h, Option.bind_eq_bind, Option.bind_some]
  split
  · rename_i hnow
    have hsame : now < t ↔ t - 1 < t := ⟨fun _ => Int.sub_lt_self t Int.one_pos, fun _ => hnow⟩
    simp only [eligibleSource_congr hsame]
  · rename_i hnow
    simp only [eligibleSource_expired (not_lt.1 hnow), Bool.false_eq_true, guard_false, Option.bind_none,
      Option.failure_eq_none, Option.bind_fun_none]

/-! ## Writing it -/

theorem reuseCompletionValues_retention {n : LeaseSnapshot} {completion : ExecutionCompletion} {reuse : RunReuse}
    (h : Service.reuseCompletionValues P n completion s = .ok reuse) :
    reuse.evidenceRetentionExpiresAt = completion.evidenceRetentionExpiresAt.map DateTime.stored := by
  unfold Service.reuseCompletionValues Service.reuseColumns at h
  simp only [except_bind_ok, except_pure_ok] at h
  obtain ⟨_, -, _, -, _, -, _, -, _, -, _, -, _, -, rfl⟩ := h
  rfl

/-- **An accepted completion stores the wall clock of its retention.** -/
theorem completeRun_stored {env : Env} {runId : ℕ} {workerId : String} {completion : ExecutionCompletion}
    {run : ExecutionRun} (hk : Keys ss.db)
    (h : Service.completeRun P env runId workerId completion ss = .ok (run, ss')) :
    ∃ r ∈ ss'.db.runs, r.id = runId ∧ r.status.isTerminal = true ∧
      r.reuse.evidenceRetentionExpiresAt = completion.evidenceRetentionExpiresAt.map DateTime.stored := by
  unfold Service.completeRun at h
  simp only [bind_ok, require_ok, read_ok, requireSome_ok, query_ok] at h
  obtain ⟨_, _, ⟨hterminal, rfl⟩, _, _, ⟨-, rfl⟩, _, _, ⟨rfl, rfl⟩, n, _, ⟨hn, rfl⟩, _, _, ⟨-, rfl⟩, hfinish⟩ := h
  obtain ⟨reuse, l, r, o, w, profiles, rfl, hcl, hdb, -⟩ := finishActiveLease_closing hk hterminal hfinish
  obtain ⟨l₀, -, hl₀, hsnapshot⟩ := getLeaseSnapshotForRun_some hn
  obtain ⟨-, -, hreuse⟩ := hcl.justified
  refine ⟨Service.finishedRun completion reuse (env.clock 0) (settledRun .released r), ?_, ?_, hterminal,
    reuseCompletionValues_retention hreuse⟩
  · rw [hdb]
    exact mem_put_self hcl.run (settledRun_id .released r).symm
  · show (settledRun .released r).id = runId
    rw [settledRun_id, hcl.runId, ← hl₀]
    exact (congrArg LeaseSnapshot.executionRunId hsnapshot).symm

/-! ## Runs -/

theorem utcNaive_eq_stored_iff (wall offset : ℤ) :
    DateTime.stored ⟨wall, some offset⟩ = DateTime.utcNaive ⟨wall, some offset⟩ ↔ offset = 0 := by
  show wall = wall - offset ↔ offset = 0
  constructor <;> intro h <;> omega

/-- **The submitted instant is kept exactly when its offset is zero.** Whatever calls came before an accepted
completion with an aware retention, and whatever calls follow it, the run is retained until the submitted
instant if and only if that was written with a zero offset. -/
theorem runCalls_retention (P : Platform) (before after : List Call) {env : Env} {runId : ℕ} {workerId : String}
    {completion : ExecutionCompletion} {run : ExecutionRun} {wall offset : ℤ}
    (hretention : completion.evidenceRetentionExpiresAt = some ⟨wall, some offset⟩)
    (haccepted : Service.completeRun P env runId workerId completion (runCalls P before) = .ok (run, ss')) :
    (∃ r ∈ (runCalls P (before ++ ⟨env, .completeRun runId workerId completion⟩ :: after)).db.runs,
      r.id = runId ∧ RetainedUntil P (DateTime.utcNaive ⟨wall, some offset⟩) r) ↔ offset = 0 := by
  set calls := before ++ [⟨env, .completeRun runId workerId completion⟩] with hcalls
  have hsplit : before ++ ⟨env, .completeRun runId workerId completion⟩ :: after = calls ++ after := by
    rw [hcalls, List.append_assoc]; rfl
  have hstep : runCalls P calls = ss' := by
    unfold runCalls
    rw [hcalls, List.foldl_append, List.foldl_cons, List.foldl_nil]
    refine commit_of_ok (a := ()) ?_
    simp only [Call.transaction, bind_ok, pure_ok]
    exact ⟨run, ss', haccepted, trivial, rfl⟩
  obtain ⟨r, hr, hid, hterminal, hstored⟩ := completeRun_stored (runCalls_keys P before) haccepted
  rw [hretention, Option.map_some] at hstored
  -- the row is terminal, so the later calls leave it alone
  have hlater : r ∈ (runCalls P (calls ++ after)).db.runs := by
    refine ((runCalls_transitions P calls).2 after).run_mem ?_ hterminal
    rw [hstep]; exact hr
  have hk := runCalls_keys P (calls ++ after)
  rw [hsplit, ← utcNaive_eq_stored_iff wall]
  constructor
  · rintro ⟨r', hr', hid', hkept⟩
    obtain rfl : r' = r := hk.runs.unique.eq_of_key hr' hlater (hid'.trans hid.symm)
    have hinstant := hkept.instant
    rw [hstored, Option.some.injEq] at hinstant
    exact hinstant
  · intro hsame
    refine ⟨r, hlater, hid, validatedReuseCandidate_until ?_⟩
    rw [hstored, hsame]

/-! ## A run retained until noon -/

/-- Hours after midnight. -/
def hours (n : ℤ) : Time := n * 3600000000

/-- A completion whose evidence is retained until noon, at this offset from UTC. -/
def retainingCompletion (offset : ℤ) : ExecutionCompletion :=
  { status := .succeeded, reuseDecision := some .fresh, reuseIdentity := some sampleIdentity
    reuseIdentityHash := some "identity"
    evidenceMetadata := some (sampleEvidence 1 1 ⟨.fresh, "fresh", "identity", none, none⟩)
    evidenceRetentionExpiresAt := some ⟨hours 12, some offset⟩ }

def retainingCalls : List Call :=
  [⟨sampleEnv (hours 9), .registerWorker sampleRegistration⟩,
   ⟨sampleEnv (hours 9), .createWorkOrder (sampleDraft .allowExact)⟩,
   ⟨sampleEnv (hours 9), .approveWorkOrder 1 true⟩,
   ⟨sampleEnv (hours 9), .checkout "w"⟩]

def retainingAccepted (offset : ℤ) : Except ExecutionError (ExecutionRun × Session Database) :=
  Service.completeRun samplePlatform (sampleEnv (hours 9)) 1 "w" (retainingCompletion offset)
    (runCalls samplePlatform retainingCalls)

/-- A second order of the same work, and its lookup at eleven. -/
def lookupCalls : List Call :=
  [⟨sampleEnv (hours 11), .heartbeatWorker "w" none⟩,
   ⟨sampleEnv (hours 11), .createWorkOrder (sampleDraft .requireExact)⟩,
   ⟨sampleEnv (hours 11), .approveWorkOrder 2 true⟩,
   ⟨sampleEnv (hours 11), .checkout "w"⟩,
   ⟨sampleEnv (hours 11), .resolveReuseCandidate 2 "w" sampleIdentity "identity"⟩]

def retainingRun (offset : ℤ) : Session Database :=
  runCalls samplePlatform
    (retainingCalls ++ ⟨sampleEnv (hours 9), .completeRun 1 "w" (retainingCompletion offset)⟩ :: lookupCalls)

/-- In UTC the lookup at eleven is offered the run, and its evidence is retained until noon. -/
theorem runCalls_retention_utc :
    (retainingAccepted 0).toBool = true ∧
      (∃ r ∈ (retainingRun 0).db.runs, r.id = 1 ∧ RetainedUntil samplePlatform (hours 12) r) ∧
      (retainingRun 0).db.runs.map (fun r => (r.id, r.reuse.candidateMetadata.map ReuseCandidate.sourceRunId)) =
        [(1, none), (2, some 1)] := by
  have hok : (retainingAccepted 0).toBool = true := by decide +kernel
  refine ⟨hok, ?_, by decide +kernel⟩
  cases haccepted : retainingAccepted 0 with
  | error e => rw [haccepted] at hok; cases hok
  | ok result => exact (runCalls_retention samplePlatform retainingCalls lookupCalls rfl haccepted).2 rfl

/-- Two hours east of UTC noon is ten o'clock: the column still says twelve, and the lookup at eleven is
offered evidence that expired an hour before. -/
theorem runCalls_retention_shifted :
    (retainingAccepted (hours 2)).toBool = true ∧
      DateTime.utcNaive ⟨hours 12, some (hours 2)⟩ = hours 10 ∧
      (¬ ∃ r ∈ (retainingRun (hours 2)).db.runs, r.id = 1 ∧ RetainedUntil samplePlatform (hours 10) r) ∧
      (retainingRun (hours 2)).db.runs.map
          (fun r => (r.id, r.reuse.candidateMetadata.map ReuseCandidate.sourceRunId)) =
        [(1, none), (2, some 1)] := by
  have hcolumn : ∀ r ∈ (retainingRun (hours 2)).db.runs, r.id = 1 →
      r.reuse.evidenceRetentionExpiresAt = some (hours 12) := by decide +kernel
  refine ⟨by decide +kernel, by decide, ?_, by decide +kernel⟩
  rintro ⟨r, hr, hid, hkept⟩
  have hinstant := hkept.instant
  rw [hcolumn r hr hid] at hinstant
  revert hinstant
  decide

end Switchboard
