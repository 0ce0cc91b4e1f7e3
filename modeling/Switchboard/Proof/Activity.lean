import Switchboard.Spec.Activity
import Switchboard.Proof.Reuse

/-!
# Activity of workers in two views

* `capability_reasons`: no mismatch of a capability reads like a reason about the worker itself.
* `mem_reasons`: the diagnostics about the worker itself, whatever the request.
* `SameActivity`: the rows that both views classify alike.
* `activityStates_agree_iff`: these are all.
-/

namespace Switchboard

variable {P : Platform} {d : WorkerDeclaration} {name reason : String} {required : Json}

/-! ## Mismatches of capabilities -/

/-- The first letter of the reasons about the worker itself. -/
def AboutWorker (reason : String) : Prop := reason.toList.head? = some 'w'

instance : DecidablePred AboutWorker := fun reason => inferInstanceAs (Decidable (reason.toList.head? = some 'w'))

theorem not_aboutWorker_append {first rest : String} (hne : first.toList ≠ []) (h : ¬AboutWorker first) :
    ¬AboutWorker (first ++ rest) := by
  unfold AboutWorker at *
  rw [String.toList_append, List.head?_append_of_ne_nil _ hne]
  exact h

theorem platformMismatch_reason {actual : String} (hne : name.toList ≠ []) (hname : ¬AboutWorker name)
    (h : platformMismatch P actual required name = some reason) : ¬AboutWorker reason := by
  unfold platformMismatch at h
  split at h
  · obtain rfl := Option.some.inj h
    exact not_aboutWorker_append (by decide) (by decide)
  · split at h
    · obtain rfl := Option.some.inj h
      exact not_aboutWorker_append hne hname
    · cases h

theorem versionMismatch_reason {actual : Option String} (hne : name.toList ≠ []) (hname : ¬AboutWorker name)
    (h : versionMismatch P actual name required = some reason) : ¬AboutWorker reason := by
  unfold versionMismatch at h
  split at h
  · obtain rfl := Option.some.inj h
    exact not_aboutWorker_append (by decide) (by decide)
  split at h
  · cases h
  split at h
  · obtain rfl := Option.some.inj h
    decide
  · obtain rfl := Option.some.inj h
    exact not_aboutWorker_append hne hname

theorem booleanCapabilityMismatch_reason {available : Bool} (hne : name.toList ≠ []) (hname : ¬AboutWorker name)
    (h : booleanCapabilityMismatch available name required = some reason) : ¬AboutWorker reason := by
  unfold booleanCapabilityMismatch at h
  split at h
  · split at h
    · obtain rfl := Option.some.inj h
      exact not_aboutWorker_append hne hname
    · cases h
  · obtain rfl := Option.some.inj h
    exact not_aboutWorker_append (by decide) (by decide)

theorem browserMismatch_reason {browsers : List String} (h : browserMismatch P browsers required = some reason) :
    ¬AboutWorker reason := by
  unfold browserMismatch at h
  split at h
  · obtain rfl := Option.some.inj h
    decide
  · split at h
    · cases h
    · obtain rfl := Option.some.inj h
      decide

theorem repositoryWriteMismatch_reason (h : repositoryWriteMismatch required = some reason) : ¬AboutWorker reason := by
  unfold repositoryWriteMismatch at h
  split at h
  · split at h
    · obtain rfl := Option.some.inj h
      decide
    · cases h
  · obtain rfl := Option.some.inj h
    decide

theorem networkPolicyUnsupported_reason {offered policy : NetworkPolicy}
    (h : networkPolicyUnsupported offered policy = some reason) : ¬AboutWorker reason := by
  unfold networkPolicyUnsupported at h
  split at h
  · cases h
  · split at h
    · obtain rfl := Option.some.inj h
      decide
    · cases h

theorem networkPolicyMismatch_reason {offered : NetworkPolicy} (h : networkPolicyMismatch offered required = some reason) :
    ¬AboutWorker reason := by
  unfold networkPolicyMismatch at h
  split at h
  · obtain rfl := Option.some.inj h
    decide
  · exact networkPolicyUnsupported_reason h

/-- A custom capability is named behind a colon. -/
theorem customCapabilityMismatch_reason {capabilities : List (String × Json)}
    (h : customCapabilityMismatch P capabilities name required = some reason) : ¬AboutWorker reason := by
  have hmissing : ¬AboutWorker s!"capability_missing:{name}" := not_aboutWorker_append (by decide) (by decide)
  have hinvalid : ¬AboutWorker s!"invalid_capability_requirement:{name}" :=
    not_aboutWorker_append (by decide) (by decide)
  unfold customCapabilityMismatch at h
  dsimp only at h
  repeat' split at h
  all_goals first
    | exact Option.some.inj h ▸ hmissing
    | exact Option.some.inj h ▸ hinvalid
    | cases h

theorem capabilityMismatch_reason (h : capabilityMismatch P d name required = some reason) : ¬AboutWorker reason := by
  unfold capabilityMismatch at h
  split at h
  · exact platformMismatch_reason (by decide) (by decide) h
  · exact platformMismatch_reason (by decide) (by decide) h
  · exact versionMismatch_reason (by decide) (by decide) h
  · exact versionMismatch_reason (by decide) (by decide) h
  · exact versionMismatch_reason (by decide) (by decide) h
  · exact booleanCapabilityMismatch_reason (by decide) (by decide) h
  · exact booleanCapabilityMismatch_reason (by decide) (by decide) h
  · exact booleanCapabilityMismatch_reason (by decide) (by decide) h
  · exact booleanCapabilityMismatch_reason (by decide) (by decide) h
  · exact browserMismatch_reason h
  · exact browserMismatch_reason h
  · exact repositoryWriteMismatch_reason h
  · exact networkPolicyMismatch_reason h
  · exact customCapabilityMismatch_reason h

/-- **No mismatch of a capability reads like a reason about the worker itself.** -/
theorem capability_reasons {manifest requested : List (String × Json)} {policy : NetworkPolicy}
    (h : reason ∈ matchWorkerCapabilities P d manifest requested policy) : ¬AboutWorker reason := by
  have hmapping : ∀ requirements, reason ∈ matchCapabilityMapping P d requirements → ¬AboutWorker reason := by
    intro requirements hreason
    obtain ⟨⟨name, required⟩, -, hmismatch⟩ := List.mem_filterMap.1 hreason
    exact capabilityMismatch_reason hmismatch
  unfold matchWorkerCapabilities at h
  rw [List.mem_eraseDups] at h
  simp only [List.mem_append] at h
  rcases h with ((h | h) | h) | h
  · exact hmapping manifest h
  · exact hmapping requested h
  · exact networkPolicyUnsupported_reason (Option.mem_toList.1 h)
  · split at h
    · obtain rfl := List.mem_singleton.1 h
      decide
    · cases h

/-! ## Diagnostics about the worker -/

section diagnostics

variable {w : Worker} {profile : Option RoutingProfile} {request : RoutingEvaluationRequest} {now : Time}
  {heartbeat poll : ℤ}

/-- A reason of the evaluator that is about the worker itself, its repositories apart. -/
def WorkerReason (w : Worker) (now : Time) (heartbeat poll : ℤ) (reason : String) : Prop :=
  (w.status ≠ .online ∧ reason = "worker_not_available") ∨
    (w.maxConcurrency ≤ w.activeRunCount ∧ reason = "worker_concurrency_limit") ∨
    (fresh (some w.lastHeartbeatAt) now heartbeat = false ∧ reason = "worker_heartbeat_stale") ∨
    (fresh w.lastCheckoutPollAt now poll = false ∧ reason = "worker_checkout_poll_stale")

theorem mem_conditional {c : Prop} [Decidable c] {text : String} :
    reason ∈ (if c then [text] else []) ↔ c ∧ reason = text := by
  split
  · rename_i hc
    rw [List.mem_singleton, and_iff_right hc]
  · rename_i hc
    exact iff_of_false (by simp) fun h => hc h.1

/-- **The diagnostics about the worker itself do not depend on the request.** -/
theorem mem_reasons (hworker : AboutWorker reason) (hrepository : reason ≠ "worker_repository_unavailable") :
    reason ∈ (evaluateRoutingCandidate P w profile request now heartbeat poll).reasons ↔
      WorkerReason w now heartbeat poll reason := by
  have hfield : ∀ (reasons : List String) (candidate : RoutingCandidate),
      (if reasons = [] then (⟨w, profile, some candidate, []⟩ : RoutingEligibility)
        else ⟨w, profile, none, reasons⟩).reasons = reasons := by
    intro reasons candidate
    split
    · rename_i hnil
      rw [hnil]
    · rfl
  unfold evaluateRoutingCandidate
  dsimp only
  rw [hfield, List.mem_eraseDups]
  simp only [List.mem_append, mem_conditional]
  constructor
  · rintro (((((h | h) | h) | h) | h) | h)
    · exact absurd h.2 hrepository
    · -- the pinned executor
      split at h
      · obtain ⟨-, rfl⟩ := mem_conditional.1 h
        exact absurd hworker (by decide)
      · cases h
    · -- the profile
      split at h
      · split at h
        · obtain rfl := List.mem_singleton.1 h
          exact absurd hworker (by decide)
        · split at h
          · obtain rfl := List.mem_singleton.1 h
            exact absurd hworker (by decide)
          · obtain ⟨-, rfl⟩ := mem_conditional.1 h
            exact absurd hworker (by decide)
      · cases h
    · simpa [WorkerReason, or_assoc] using h
    · exact absurd hworker (capability_reasons h)
    · -- cost and quota
      split at h
      · split at h
        · rcases List.mem_append.1 h with h | h
          · split at h
            · obtain ⟨-, rfl⟩ := mem_conditional.1 h
              exact absurd hworker (by decide)
            · cases h
          · obtain ⟨-, rfl⟩ := mem_conditional.1 h
            exact absurd hworker (by decide)
        · cases h
      · cases h
  · intro h
    exact .inl (.inl (.inr (by simpa [WorkerReason, or_assoc] using h)))

theorem mem_notAvailable :
    "worker_not_available" ∈ (evaluateRoutingCandidate P w profile request now heartbeat poll).reasons ↔
      w.status ≠ .online := by
  rw [mem_reasons (by decide) (by decide)]
  simp [WorkerReason]

theorem mem_concurrencyLimit :
    "worker_concurrency_limit" ∈ (evaluateRoutingCandidate P w profile request now heartbeat poll).reasons ↔
      w.maxConcurrency ≤ w.activeRunCount := by
  rw [mem_reasons (by decide) (by decide)]
  simp [WorkerReason]

theorem mem_heartbeatStale :
    "worker_heartbeat_stale" ∈ (evaluateRoutingCandidate P w profile request now heartbeat poll).reasons ↔
      fresh (some w.lastHeartbeatAt) now heartbeat = false := by
  rw [mem_reasons (by decide) (by decide)]
  simp [WorkerReason]

theorem mem_checkoutPollStale :
    "worker_checkout_poll_stale" ∈ (evaluateRoutingCandidate P w profile request now heartbeat poll).reasons ↔
      fresh w.lastCheckoutPollAt now poll = false := by
  rw [mem_reasons (by decide) (by decide)]
  simp [WorkerReason]

end diagnostics

/-! ## The two views -/

section views

variable {w : Worker} {now : Time} {heartbeat poll : ℤ}

/-- What the projection refuses to classify. -/
def Malformed (w : Worker) (heartbeat poll : ℤ) : Prop :=
  w.activeRunCount < 0 ∨ w.maxConcurrency < 1 ∨ w.maxConcurrency < w.activeRunCount ∨ heartbeat < 0 ∨ poll < 0

/-- The rows that both views classify alike: a busy worker only when the projection refuses its row, an online worker
only when it does not. A window of zero seconds counts only for a worker that is stale without it. -/
def SameActivity (w : Worker) (now : Time) (heartbeat poll : ℤ) : Prop :=
  match w.status with
  | .draining | .offline => True
  | .busy => Malformed w heartbeat poll
  | .online =>
    ¬Malformed w heartbeat poll ∧
      ((0 < heartbeat ∧ 0 < poll) ∨ projectedFresh (some w.lastHeartbeatAt) now heartbeat = false ∨
        projectedFresh w.lastCheckoutPollAt now poll = false)

/-- The evaluator knows windows that are switched off. -/
theorem fresh_eq (value : Option Time) (window : ℤ) :
    fresh value now window = (decide (0 < window) && projectedFresh value now window) := by
  cases value with
  | none => simp [fresh, projectedFresh]
  | some v => rfl

/-- What the readiness view shows, whatever the request. -/
theorem repositoryActivityState_eq {profile : Option RoutingProfile} {request : RoutingEvaluationRequest} :
    repositoryActivityState (evaluateRoutingCandidate P w profile request now heartbeat poll) =
      if w.status ≠ .online then .unavailable
      else if fresh (some w.lastHeartbeatAt) now heartbeat = false ∨ fresh w.lastCheckoutPollAt now poll = false then
        .stale
      else if w.maxConcurrency ≤ w.activeRunCount then .capacityConstrained
      else .active := by
  unfold repositoryActivityState
  simp only [mem_notAvailable, mem_concurrencyLimit, mem_heartbeatStale, mem_checkoutPollStale]

/-- What the projection shows of a worker that is neither draining nor offline. -/
theorem activityState_malformed (hstatus : w.status = .busy ∨ w.status = .online) (h : Malformed w heartbeat poll) :
    w.activityState now heartbeat poll = .unavailable := by
  have hother : ¬(w.status = .draining ∨ w.status = .offline) := by
    rcases hstatus with hstatus | hstatus <;> simp [hstatus]
  exact (if_neg hother).trans (if_pos h)

theorem activityState_wellFormed (hstatus : w.status = .busy ∨ w.status = .online) (h : ¬Malformed w heartbeat poll) :
    w.activityState now heartbeat poll =
      if projectedFresh (some w.lastHeartbeatAt) now heartbeat = false ∨
          projectedFresh w.lastCheckoutPollAt now poll = false then .stale
      else if w.status = .busy ∨ w.maxConcurrency ≤ w.activeRunCount then .capacityConstrained
      else .active := by
  have hother : ¬(w.status = .draining ∨ w.status = .offline) := by
    rcases hstatus with hstatus | hstatus <;> simp [hstatus]
  refine (if_neg hother).trans ((if_neg h).trans ?_)
  simp

/-- **Which workers the two views classify alike**, whatever routing request is evaluated. -/
theorem activityStates_agree_iff (P : Platform) (w : Worker) (profile : Option RoutingProfile)
    (request : RoutingEvaluationRequest) (now : Time) (heartbeat poll : ℤ) :
    w.activityState now heartbeat poll =
        repositoryActivityState (evaluateRoutingCandidate P w profile request now heartbeat poll) ↔
      SameActivity w now heartbeat poll := by
  rw [repositoryActivityState_eq]
  unfold SameActivity
  cases hstatus : w.status with
  | draining => simp [Worker.activityState, workerActivityState, hstatus]
  | offline => simp [Worker.activityState, workerActivityState, hstatus]
  | busy =>
    by_cases h : Malformed w heartbeat poll
    · simp [activityState_malformed (.inl hstatus) h, h]
    · -- the projection shows a state, the evaluator none
      simp only [activityState_wellFormed (.inl hstatus) h, h, iff_false]
      split
      · simp
      · simp [hstatus]
  | online =>
    by_cases h : Malformed w heartbeat poll
    · -- the evaluator shows a state, the projection none
      simp only [activityState_malformed (.inr hstatus) h, h, not_true, false_and, iff_false]
      repeat' split
      all_goals simp_all
    · have hbounds : 0 ≤ heartbeat ∧ 0 ≤ poll := by
        unfold Malformed at h
        omega
      simp only [activityState_wellFormed (.inr hstatus) h, h, not_false_iff, true_and, fresh_eq, hstatus]
      by_cases hpositive : 0 < heartbeat ∧ 0 < poll
      · simp [hpositive]
      · -- a window is switched off: the evaluator shows a stale worker
        have hoff : (decide (0 < heartbeat) && projectedFresh (some w.lastHeartbeatAt) now heartbeat) = false ∨
            (decide (0 < poll) && projectedFresh w.lastCheckoutPollAt now poll) = false := by
          by_cases hbeat : 0 < heartbeat
          · have hpoll : ¬0 < poll := fun hpoll => hpositive ⟨hbeat, hpoll⟩
            exact .inr (by simp [hpoll])
          · exact .inl (by simp [hbeat])
        simp only [hoff, hpositive, false_or, if_true, ne_eq, not_true, if_false]
        by_cases hstale : projectedFresh (some w.lastHeartbeatAt) now heartbeat = false ∨
            projectedFresh w.lastCheckoutPollAt now poll = false
        · simp only [hstale, if_true]
        · simp only [hstale, if_false, iff_false]
          split <;> simp

end views

/-! ### Examples -/

/-- A worker registers and polls; an order then occupies its only slot. -/
def busyCalls : List Call :=
  [⟨sampleEnv 0, .registerWorker sampleRegistration⟩,
   ⟨sampleEnv 0, .createWorkOrder (sampleDraft .allowExact)⟩,
   ⟨sampleEnv 0, .approveWorkOrder 1 true⟩,
   ⟨sampleEnv 0, .checkout "w"⟩]

/-- The claim makes the worker busy: the overview shows a lack of capacity, the readiness view an unavailable
worker, whatever the request. -/
theorem busy_activityStates_differ :
    ∃ w ∈ (runCalls samplePlatform busyCalls).db.workers, w.status = .busy ∧
      w.activityState 0 60 60 = .capacityConstrained ∧
      ∀ profile request,
        repositoryActivityState (evaluateRoutingCandidate samplePlatform w profile request 0 60 60) = .unavailable := by
  obtain ⟨w, hw, hstatus, hoverview⟩ : ∃ w ∈ (runCalls samplePlatform busyCalls).db.workers, w.status = .busy ∧
      w.activityState 0 60 60 = .capacityConstrained := by decide +kernel
  refine ⟨w, hw, hstatus, hoverview, fun profile request => ?_⟩
  rw [repositoryActivityState_eq, hstatus, if_pos (by decide)]

end Switchboard
