import Switchboard.Proof.Manifests

/-!
# Eligibility and ranking

* `Eligible`, `evaluate_candidate`: what a worker that `evaluate_routing_candidate` accepts has.
* `candidates_map`: the accepted workers do not depend on the poll times of workers that polled
  recently enough.
* `rank_head_map`: neither does the winner of the ranking.
-/

namespace Switchboard

open Table

variable {P : Platform} {s : Database} {w : Worker} {profile : Option RoutingProfile}
  {request : RoutingEvaluationRequest} {now : Time} {heartbeat poll : ℤ}

/-! ## Eligible workers -/

/-- What the evaluator checks before it accepts a worker. -/
structure Eligible (P : Platform) (w : Worker) (profile : Option RoutingProfile) (request : RoutingEvaluationRequest)
    (now : Time) (heartbeat poll : ℤ) : Prop where
  repository : request.repositoryFullName ∈ servedRepositories w.declaration
  pin : ∀ preferred, request.preferredExecutor = some preferred → w.workerId = preferred
  online : w.status = .online
  free : w.activeRunCount < w.maxConcurrency
  beating : fresh (some w.lastHeartbeatAt) now heartbeat = true
  polling : fresh w.lastCheckoutPollAt now poll = true
  capable : matchWorkerCapabilities P w.declaration request.manifestRequirements request.requestedRequirements
    request.networkPolicy = []
  profiled : request.routingPolicy = .cheapestCapable → ∃ p, profile = some p ∧ validProfile p = true ∧
    p.enabled = true ∧ (∀ maximum, request.maximumCostUnits = some maximum → p.estimatedCostUnitsPerRun ≤ maximum) ∧
    request.requiredQuotaUnits ≤ p.quotaRemainingUnits

theorem evaluate_worker :
    (evaluateRoutingCandidate P w profile request now heartbeat poll).worker = w ∧
      (evaluateRoutingCandidate P w profile request now heartbeat poll).profile = profile := by
  unfold evaluateRoutingCandidate
  dsimp only
  generalize List.eraseDups (_ : List String) = reasons
  by_cases h : reasons = [] <;> simp [h]

theorem eraseDups_eq_nil {α : Type*} [BEq α] {l : List α} : l.eraseDups = [] ↔ l = [] := by
  cases l with
  | nil => simp
  | cons a l => simp [List.eraseDups_cons]

/-- **The evaluator accepts exactly the eligible workers.** -/
theorem evaluate_candidate {c : RoutingCandidate} :
    (evaluateRoutingCandidate P w profile request now heartbeat poll).candidate = some c ↔
      c = ⟨w, profile⟩ ∧ Eligible P w profile request now heartbeat poll := by
  unfold evaluateRoutingCandidate
  dsimp only
  generalize hreasons : List.eraseDups (_ : List String) = reasons
  by_cases h : reasons = []
  · rw [h, eraseDups_eq_nil] at hreasons
    simp only [List.append_eq_nil_iff] at hreasons
    simp only [h, if_true]
    obtain ⟨⟨⟨⟨⟨hrepository, hpin⟩, hprofile⟩, ⟨⟨honline, hfree⟩, hbeat⟩, hpoll⟩, hcapable⟩, hcost⟩ := hreasons
    simp only [Option.some.injEq]
    refine ⟨fun h => ⟨h.symm, ?_⟩, fun h => h.1.symm⟩
    refine ⟨?_, ?_, ?_, ?_, ?_, ?_, hcapable, ?_⟩
    · by_contra hne
      simp [hne] at hrepository
    · intro preferred hpref
      by_contra hne
      simp [hpref, hne] at hpin
    · by_contra hne
      simp [hne] at honline
    · by_contra hge
      rw [not_lt] at hge
      simp [hge] at hfree
    · by_contra hne
      simp [hne] at hbeat
    · by_contra hne
      simp [hne] at hpoll
    · intro hcheap
      cases hp : profile with
      | none => simp [hcheap, hp] at hprofile
      | some p =>
        have hvalid : validProfile p = true := by
          by_contra hne
          rw [Bool.not_eq_true] at hne
          simp [hcheap, hp, hne] at hprofile
        have henabled : p.enabled = true := by
          by_contra hne
          rw [Bool.not_eq_true] at hne
          simp [hcheap, hp, hvalid, hne] at hprofile
        simp only [hp, hcheap, hvalid, and_self, if_true, List.append_eq_nil_iff] at hcost
        refine ⟨p, rfl, hvalid, henabled, ?_, ?_⟩
        · intro maximum hmax
          by_contra hgt
          rw [not_le] at hgt
          simp [hmax, hgt] at hcost
        · by_contra hlt
          rw [not_le] at hlt
          simp [hlt] at hcost
  · simp only [h, if_false, reduceCtorEq, false_iff, not_and]
    rintro - ⟨hrepository, hpin, honline, hfree, hbeat, hpoll, hcapable, hprofiled⟩
    apply h
    rw [← hreasons, eraseDups_eq_nil]
    simp only [List.append_eq_nil_iff]
    refine ⟨⟨⟨⟨⟨?_, ?_⟩, ?_⟩, ⟨⟨?_, ?_⟩, ?_⟩, ?_⟩, hcapable⟩, ?_⟩
    · simp [hrepository]
    · split
      · rename_i preferred hpreferred
        simp [hpin preferred hpreferred]
      · rfl
    · by_cases hcheap : request.routingPolicy = .cheapestCapable
      · obtain ⟨p, rfl, hvalid, henabled, -, -⟩ := hprofiled hcheap
        simp [hvalid, henabled]
      · simp [hcheap]
    · simp [honline]
    · simp [hfree]
    · simp [hbeat]
    · simp [hpoll]
    · split
      · rename_i p
        split
        · rename_i hcheap
          obtain ⟨x, hx, -, -, hmax, hquota⟩ := hprofiled hcheap.1
          obtain rfl : p = x := by simpa using hx
          refine List.append_eq_nil_iff.2 ⟨?_, by simp [hquota]⟩
          split
          · rename_i maximum hm
            simp [hmax maximum hm]
          · rfl
        · rfl
      · rfl

/-! ## A poll -/

/-- The row of the worker that has just polled. -/
def Worker.polledAt (workerId : String) (t : Time) (w : Worker) : Worker :=
  if w.workerId == workerId then { w with lastCheckoutPollAt := some t } else w

/-- The database after the poll of `checkout`. -/
def polled (workerId : String) (t : Time) (s : Database) : Database :=
  (Repository.recordCheckoutPoll workerId t s).1

variable {workerId : String} {t : Time}

theorem polled_workers : (polled workerId t s).workers = s.workers.map (Worker.polledAt workerId t) := rfl

@[simp] theorem polledAt_workerId : (w.polledAt workerId t).workerId = w.workerId := by
  unfold Worker.polledAt
  split <;> rfl

theorem polledAt_of_ne (h : w.workerId ≠ workerId) : w.polledAt workerId t = w := by
  simp [Worker.polledAt, h]

/-- A poll keeps everything that ranking reads. -/
theorem polledAt_columns (workerId : String) (t : Time) (w : Worker) : (w.polledAt workerId t).status = w.status ∧
    (w.polledAt workerId t).activeRunCount = w.activeRunCount ∧
    (w.polledAt workerId t).maxConcurrency = w.maxConcurrency := by
  unfold Worker.polledAt
  split <;> exact ⟨rfl, rfl, rfl⟩

theorem listWorkersWithProfiles_polled :
    Repository.listWorkersWithProfiles (polled workerId t s) =
      (Repository.listWorkersWithProfiles s).map fun wp => (wp.1.polledAt workerId t, wp.2) := by
  unfold Repository.listWorkersWithProfiles
  rw [polled_workers, ← List.map_mergeSort (r := fun a b : Worker => decide (a.workerId ≤ b.workerId)),
    List.map_map, List.map_map]
  · refine List.map_congr_left fun x _ => ?_
    simp only [Function.comp_apply, polledAt_workerId]
    rfl
  · intro a _ b _
    simp only [polledAt_workerId]

/-- The candidate with the poll of its worker recorded. -/
def RoutingCandidate.polledAt (workerId : String) (t : Time) (c : RoutingCandidate) : RoutingCandidate :=
  ⟨c.worker.polledAt workerId t, c.profile⟩

theorem fresh_self {seconds' : ℤ} (h : 0 < seconds') : fresh (some t) t seconds' = true := by
  have hle : t - seconds seconds' ≤ t := by
    unfold seconds
    have : 0 ≤ seconds' * 1000000 := by omega
    exact Int.sub_le_self t this
  simp [fresh, h, hle]

/-- An eligible worker stays eligible when it polls. -/
theorem Eligible.polledAt (h : Eligible P w profile request t heartbeat poll) :
    Eligible P (w.polledAt workerId t) profile request t heartbeat poll := by
  by_cases hid : w.workerId = workerId
  · have hpos : 0 < poll := by
      have hpolling := h.polling
      cases hp : w.lastCheckoutPollAt with
      | none => simp [fresh, hp] at hpolling
      | some v =>
        simp only [fresh, hp, Bool.and_eq_true, decide_eq_true_eq] at hpolling
        exact hpolling.1
    have hrow : w.polledAt workerId t = { w with lastCheckoutPollAt := some t } := by
      simp [Worker.polledAt, hid]
    rw [hrow]
    exact ⟨h.repository, h.pin, h.online, h.free, h.beating, fresh_self hpos, h.capable, h.profiled⟩
  · rw [polledAt_of_ne hid]
    exact h

/-- Recording the poll of a worker that was eligible before changes no decision of the evaluator. -/
theorem evaluate_polledAt (h : w.workerId = workerId → Eligible P w profile request t heartbeat poll) :
    (evaluateRoutingCandidate P (w.polledAt workerId t) profile request t heartbeat poll).candidate =
      ((evaluateRoutingCandidate P w profile request t heartbeat poll).candidate).map
        (RoutingCandidate.polledAt workerId t) := by
  by_cases hid : w.workerId = workerId
  · have hbefore := evaluate_candidate.2 ⟨rfl, h hid⟩
    have heligible : Eligible P (w.polledAt workerId t) profile request t heartbeat poll := (h hid).polledAt
    have hafter := evaluate_candidate.2 ⟨rfl, heligible⟩
    rw [hbefore, hafter]
    rfl
  · rw [polledAt_of_ne hid]
    cases hc : (evaluateRoutingCandidate P w profile request t heartbeat poll).candidate with
    | none => rfl
    | some c =>
      obtain ⟨rfl, -⟩ := evaluate_candidate.1 hc
      simp [RoutingCandidate.polledAt, polledAt_of_ne hid]

/-- The accepted candidates of a request. -/
def candidatesFor (P : Platform) (env : Env) (request : RoutingEvaluationRequest) (now : Time) (s : Database) :
    List RoutingCandidate :=
  (Service.routingEligibilities P env request now s).filterMap RoutingEligibility.candidate

theorem candidatesFor_polled {env : Env}
    (h : ∀ wp ∈ Repository.listWorkersWithProfiles s, wp.1.workerId = workerId → Eligible P wp.1 wp.2 request t
      env.heartbeatFreshnessSeconds env.activePollFreshnessSeconds) :
    candidatesFor P env request t (polled workerId t s) =
      (candidatesFor P env request t s).map (RoutingCandidate.polledAt workerId t) := by
  unfold candidatesFor Service.routingEligibilities
  rw [listWorkersWithProfiles_polled]
  simp only [List.map_map, List.filterMap_map, List.map_filterMap]
  refine List.filterMap_congr fun wp hwp => ?_
  exact evaluate_polledAt (h wp hwp)

/-! ## Ranking -/

theorem candidateLe_polledAt {units : ℤ} (a b : RoutingCandidate) :
    candidateLe units a b = candidateLe units (a.polledAt workerId t) (b.polledAt workerId t) := by
  obtain ⟨a, p⟩ := a
  obtain ⟨b, q⟩ := b
  obtain ⟨-, hacount, hamax⟩ := polledAt_columns workerId t a
  obtain ⟨-, hbcount, hbmax⟩ := polledAt_columns workerId t b
  cases p with
  | none => rfl
  | some p =>
    cases q with
    | none => rfl
    | some q =>
      simp only [candidateLe, RoutingCandidate.polledAt, compareCandidates, hacount, hamax, hbcount, hbmax,
        polledAt_workerId]

/-- **Polls do not change a ranking.** -/
theorem rankRoutingCandidates_polledAt {units : ℤ} (candidates : List RoutingCandidate) :
    rankRoutingCandidates (candidates.map (RoutingCandidate.polledAt workerId t)) units =
      (rankRoutingCandidates candidates units).map (List.map (RoutingCandidate.polledAt workerId t)) := by
  have hany : ((candidates.map (RoutingCandidate.polledAt workerId t)).any fun c => c.profile.isNone) =
      candidates.any fun c => c.profile.isNone := by
    rw [List.any_map]
    rfl
  unfold rankRoutingCandidates
  rw [List.length_map, hany]
  split
  · rfl
  · simp only [Except.map]
    rw [List.map_mergeSort fun a _ b _ => candidateLe_polledAt a b]

end Switchboard
