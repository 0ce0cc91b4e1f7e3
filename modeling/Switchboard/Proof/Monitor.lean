import Switchboard.Spec.Monitor

/-!
# The run monitor

* `tick_raised_iff`: which answers make a tick raise.
* `monitor_survives_iff`: the monitor does its work in a run if and only if none of the ticks it comes
  to meets such an answer.
* `monitor_dies`: a worker heartbeat answered with 500 kills it.
-/

namespace Switchboard

variable {runId : ℕ} {deadline : Time} {v : MonitorVars} {b : Beat} {answer : SessionAnswer}

/-! ## Requests -/

/-- The exceptions that a worker heartbeat is not guarded against. -/
def RequestException.escapesWorker : RequestException → Bool
  | .credentialRejected _ => false
  | e => !e.isOSError

/-- The exceptions that a run heartbeat is not guarded against. -/
def RequestException.escapesRun : RequestException → Bool
  | .credentialRejected _ | .ownershipLost _ => false
  | e => !e.isOSError && !e.isValueError

/-- The exception of a result, if it is one of the class. -/
def raises {α : Type} (cls : RequestException → Bool) : Except RequestException α → Bool
  | .ok _ => false
  | .error e => cls e

theorem requestJson_escapesWorker :
    raises RequestException.escapesWorker (requestJson false v.credentialRejected answer).1 =
      (!v.credentialRejected && answer.escapesWorkerHeartbeat) := by
  unfold requestJson SessionAnswer.escapesWorkerHeartbeat
  cases v.credentialRejected with
  | true => rfl
  | false =>
    cases answer with
    | transportError => rfl
    | invalidRequest => rfl
    | response r =>
      by_cases hcredential : r.statusCode ∈ credentialStatuses
      · simp [hcredential, raises, RequestException.escapesWorker]
      · by_cases herror : httpErrorStatus ≤ r.statusCode
        · have hescapes : (executionHttpError r).escapesWorker = true := by
            unfold executionHttpError
            split
            · cases r.body <;> rfl
            · rfl
          simp [hcredential, herror, raises, hescapes]
        · simp only [hcredential, herror, if_false, Bool.false_eq_true, false_and, Bool.not_false, Bool.true_and]
          cases r.body <;> rfl

theorem requestJson_escapesRun :
    raises RequestException.escapesRun (requestJson true v.credentialRejected answer).1 =
      (!v.credentialRejected && answer.escapesRunHeartbeat) := by
  unfold requestJson SessionAnswer.escapesRunHeartbeat
  cases v.credentialRejected with
  | true => rfl
  | false =>
    cases answer with
    | transportError => rfl
    | invalidRequest => rfl
    | response r =>
      by_cases hcredential : r.statusCode ∈ credentialStatuses
      · simp [hcredential, raises, RequestException.escapesRun]
      by_cases howner : r.statusCode ∈ ownershipLostStatuses
      · simp [hcredential, howner, raises, RequestException.escapesRun]
      have hnone : r.statusCode ∉ credentialStatuses ++ ownershipLostStatuses := by
        simp [hcredential, howner]
      by_cases herror : httpErrorStatus ≤ r.statusCode
      · simp only [hcredential, howner, hnone, herror, if_false, if_true, and_false, Bool.false_eq_true,
          Bool.not_false, Bool.true_and, decide_true]
        unfold executionHttpError
        by_cases hdetails : r.statusCode = unprocessableEntity ∧ r.contentLength ≤ maxErrorBodyBytes
        · cases hbody : r.body <;> simp [hdetails, raises, RequestException.escapesRun, RequestException.isOSError,
            RequestException.isValueError]
        · have hor : ¬ (r.statusCode == unprocessableEntity && decide (r.contentLength ≤ maxErrorBodyBytes)) = true := by
            simpa using hdetails
          rw [if_neg hdetails]
          cases hbody : r.body <;> simp [hor, raises, RequestException.escapesRun, RequestException.isOSError,
            RequestException.isValueError]
      · simp only [hcredential, howner, hnone, herror, if_false, and_false, Bool.not_false, Bool.true_and,
          decide_false, Bool.false_and]
        cases r.body <;> rfl

/-! ## Ticks -/

theorem fromPayload_error {payload : Json} {e : RequestException} (h : HeartbeatRun.fromPayload payload = .error e) :
    e = .valueError := by
  unfold HeartbeatRun.fromPayload at h
  split at h
  · split at h
    · split at h
      · cases h; rfl
      · split at h
        · cases h; rfl
        · split at h
          · split at h
            · cases h
            · cases h; rfl
          · cases h; rfl
    · cases h; rfl
  · cases h; rfl

/-- A run heartbeat raises what no handler of the second half catches. -/
theorem heartbeatRun_raised :
    (heartbeatRun runId answer v).raised = none ↔ (!v.credentialRejected && answer.escapesRunHeartbeat) = false := by
  rw [← requestJson_escapesRun]
  unfold heartbeatRun
  rcases requestJson true v.credentialRejected answer with ⟨result, rejected⟩
  cases result with
  | error e =>
    cases e <;> simp [Except.bind, raises, RequestException.escapesRun, RequestException.isOSError,
      RequestException.isValueError]
  | ok payload =>
    simp only [Except.bind, raises]
    cases hrun : HeartbeatRun.fromPayload payload with
    | error e =>
      obtain rfl := fromPayload_error hrun
      simp [RequestException.isValueError]
    | ok run =>
      simp only [ne_eq, iff_true]
      split
      · rfl
      · split <;> rfl

theorem heartbeatRun_attempted : (heartbeatRun runId answer v).runAttempted = true := by
  unfold heartbeatRun
  rcases requestJson true v.credentialRejected answer with ⟨result, rejected⟩
  dsimp only
  split
  · rfl
  · rfl
  · split
    · rfl
    · split <;> rfl
  · split
    · rfl
    · split <;> rfl

/-- The flag of the client after a worker heartbeat. -/
theorem requestJson_rejected : (requestJson false v.credentialRejected b.worker).2 = true ↔ WorkerRejected v b := by
  unfold requestJson WorkerRejected
  cases v.credentialRejected with
  | true => simp
  | false =>
    cases hworker : b.worker with
    | transportError => simp
    | invalidRequest => simp
    | response r =>
      by_cases hcredential : r.statusCode ∈ credentialStatuses
      · simp [hcredential]
      · by_cases herror : httpErrorStatus ≤ r.statusCode <;> simp [hcredential, herror]

/-- The flag is set exactly when the request found the credential rejected. -/
theorem requestJson_flag {ownershipSensitive credentialRejected : Bool} :
    (requestJson ownershipSensitive credentialRejected answer).2 = true ↔
      ∃ statusCode, (requestJson ownershipSensitive credentialRejected answer).1 =
        .error (.credentialRejected statusCode) := by
  unfold requestJson
  split
  · simp
  · cases answer with
    | transportError => simp
    | invalidRequest => simp
    | response r =>
      by_cases hcredential : r.statusCode ∈ credentialStatuses
      · simp [hcredential]
      · by_cases howner : ownershipSensitive = true ∧ r.statusCode ∈ ownershipLostStatuses
        · simp [hcredential, howner]
        · simp only [hcredential, howner, if_false]
          split
          · unfold executionHttpError
            split
            · cases r.body <;> simp
            · simp
          · cases r.body <;> simp [ResponseBody.decode]

/-- **Which answers make a tick raise.** -/
theorem tick_raised_iff : (tick runId deadline b v).raised = none ↔ Tolerable deadline v b := by
  unfold tick Tolerable
  by_cases hlate : deadline ≤ b.now
  · simp [hlate]
  have hworker := @requestJson_escapesWorker v b.worker
  have hrejected := requestJson_rejected (v := v) (b := b)
  have hcredential := @requestJson_flag b.worker false v.credentialRejected
  rw [if_neg hlate]
  simp only [hlate, false_or]
  rcases hrequest : requestJson false v.credentialRejected b.worker with ⟨result, rejected⟩
  rw [hrequest] at hworker hrejected hcredential
  dsimp only at hworker hrejected hcredential ⊢
  by_cases hflag : rejected = true
  · -- the rejected credential ends the tick
    obtain ⟨statusCode, rfl⟩ := hcredential.1 hflag
    have hreject := hrejected.1 hflag
    simp only [hreject, true_or, and_true, true_iff]
    simp only [raises, RequestException.escapesWorker] at hworker
    cases hv : v.credentialRejected with
    | true => exact Or.inl rfl
    | false => exact Or.inr (by simpa [hv] using hworker.symm)
  · have hnot : ¬ WorkerRejected v b := fun h => hflag (hrejected.2 h)
    have hv : v.credentialRejected = false := by
      cases hv : v.credentialRejected with
      | true => exact absurd (Or.inl hv) hnot
      | false => rfl
    have hfalse : rejected = false := by simpa using hflag
    simp only [hv, Bool.not_false, Bool.true_and] at hworker
    simp only [hv, hnot, false_or, Bool.false_eq_true]
    rw [← hworker]
    have hrun := @heartbeatRun_raised runId { v with credentialRejected := rejected } b.run
    simp only [hfalse, Bool.not_false, Bool.true_and] at hrun
    cases result with
    | ok payload => simpa [raises, hfalse] using hrun
    | error e =>
      have hother : ∀ statusCode, e ≠ .credentialRejected statusCode := by
        rintro statusCode rfl
        exact hflag (hcredential.2 ⟨statusCode, rfl⟩)
      cases e with
      | credentialRejected statusCode => exact absurd rfl (hother statusCode)
      | transport => simpa [raises, RequestException.escapesWorker, RequestException.isOSError, hfalse] using hrun
      | invalidRequest => simpa [raises, RequestException.escapesWorker, RequestException.isOSError, hfalse] using hrun
      | jsonDecode => simpa [raises, RequestException.escapesWorker, RequestException.isOSError, hfalse] using hrun
      | valueError => simp [raises, RequestException.escapesWorker, RequestException.isOSError]
      | recursion => simp [raises, RequestException.escapesWorker, RequestException.isOSError]
      | http statusCode => simp [raises, RequestException.escapesWorker, RequestException.isOSError]
      | ownershipLost statusCode => simp [raises, RequestException.escapesWorker, RequestException.isOSError]

theorem tick_attempted (hquiet : (tick runId deadline b v).raised = none) (hearly : b.now < deadline)
    (hnot : ¬ WorkerRejected v b) : (tick runId deadline b v).runAttempted = true := by
  have hrejected := requestJson_rejected (v := v) (b := b)
  have hcredential := @requestJson_flag b.worker false v.credentialRejected
  unfold tick at hquiet ⊢
  rw [if_neg (not_le.2 hearly)] at hquiet ⊢
  rcases hrequest : requestJson false v.credentialRejected b.worker with ⟨result, rejected⟩
  rw [hrequest] at hrejected hcredential hquiet
  dsimp only at hrejected hcredential hquiet ⊢
  split
  · rename_i statusCode
    exact absurd (hrejected.1 (hcredential.2 ⟨statusCode, rfl⟩)) hnot
  · rename_i e hother
    by_cases hos : e.isOSError = true
    · rw [if_pos hos]
      exact heartbeatRun_attempted
    · cases e <;> simp_all [RequestException.isOSError]
  · exact heartbeatRun_attempted

/-! ## The token -/

/-- A reason that the token has after a step it had before, or it is one of `R`. -/
def TokenKept (R : String → Prop) (v v' : MonitorVars) : Prop :=
  ∀ reason, v'.token.reason = some reason → v.token.reason = some reason ∨ R reason

theorem TokenKept.refl {R : String → Prop} : TokenKept R v v := fun _ h => Or.inl h

theorem tokenKept_cancel {R : String → Prop} {reason : String} (h : R reason) :
    TokenKept R v (v.cancel reason) := by
  intro other hother
  simp only [MonitorVars.cancel, CancellationToken.cancel] at hother
  cases hv : v.token.reason with
  | none =>
    rw [hv] at hother
    obtain rfl : reason = other := by simpa using hother
    exact Or.inr h
  | some before =>
    rw [hv] at hother
    exact Or.inl (by simpa using hother)

/-- The second cancellation of a token changes nothing. -/
theorem cancel_shutdown {reason : String} :
    ((v.cancel reason).requestShutdown).token = (v.cancel reason).token := by
  simp only [MonitorVars.requestShutdown, MonitorVars.cancel, CancellationToken.cancel, CancellationToken.mk.injEq]
  cases v.token.reason <;> rfl

theorem tokenKept_lost {rejected : Bool} :
    TokenKept MonitorReason v (({ v with credentialRejected := rejected }.cancel "ownership_lost").requestShutdown) := by
  intro reason hreason
  rw [cancel_shutdown] at hreason
  exact tokenKept_cancel (Or.inr (Or.inl rfl)) reason hreason

theorem heartbeatRun_token : TokenKept MonitorReason v (heartbeatRun runId answer v).vars := by
  unfold heartbeatRun
  rcases requestJson true v.credentialRejected answer with ⟨result, rejected⟩
  have hinvalid : TokenKept MonitorReason v ({ v with credentialRejected := rejected }.cancel "invalid_run_heartbeat") :=
    fun reason h => tokenKept_cancel (R := MonitorReason) (Or.inr (Or.inr (Or.inl rfl))) reason h
  dsimp only
  split
  · exact tokenKept_lost
  · exact fun reason h => tokenKept_cancel (R := MonitorReason) (Or.inr (Or.inl rfl)) reason h
  · split
    · exact hinvalid
    · split <;> exact TokenKept.refl
  · rename_i run _
    split
    · exact hinvalid
    · split
      · rename_i hstatus
        exact fun reason h =>
          tokenKept_cancel (R := MonitorReason) (Or.inr (Or.inr (Or.inr ⟨run.status, hstatus, rfl⟩))) reason h
      · exact TokenKept.refl

theorem tick_token : TokenKept MonitorReason v (tick runId deadline b v).vars := by
  unfold tick
  split
  · exact tokenKept_cancel (Or.inl rfl)
  · rcases requestJson false v.credentialRejected b.worker with ⟨result, rejected⟩
    have hrun : TokenKept MonitorReason v
        (heartbeatRun runId b.run { v with credentialRejected := rejected }).vars := heartbeatRun_token
    dsimp only
    split
    · exact tokenKept_lost
    · split
      · exact hrun
      · exact TokenKept.refl
    · exact hrun

/-! ## Runs -/

variable {events pre : List MonitorEvent}

theorem monitorAfter_append (event : MonitorEvent) :
    monitorAfter runId deadline (pre ++ [event]) = (monitorAfter runId deadline pre).step runId deadline event := by
  unfold monitorAfter
  rw [List.foldl_append]
  rfl

/-- Every reason of the token was given by a tick or by someone else. -/
theorem monitorAfter_token {reason : String}
    (h : (monitorAfter runId deadline pre).vars.token.reason = some reason) :
    MonitorReason reason ∨ .cancelled reason ∈ pre := by
  induction pre using List.reverseRecOn with
  | nil => cases h
  | append_singleton pre event ih =>
    have hbefore : ∀ (hold : (monitorAfter runId deadline pre).vars.token.reason = some reason),
        MonitorReason reason ∨ .cancelled reason ∈ pre ++ [event] := by
      intro hold
      rcases ih hold with hr | hm
      · exact Or.inl hr
      · exact Or.inr (List.mem_append_left _ hm)
    rw [monitorAfter_append] at h
    cases event with
    | stop => exact hbefore h
    | cancelled other =>
      have hkept := tokenKept_cancel (R := fun r => r = other) (v := (monitorAfter runId deadline pre).vars) rfl
      rcases hkept reason h with hold | rfl
      · exact hbefore hold
      · exact Or.inr (by simp)
    | beat b =>
      simp only [Monitor.step] at h
      split at h
      · rcases tick_token reason h with hold | hr
        · exact hbefore hold
        · exact Or.inl hr
      · exact hbefore h

/-- The thread ends when it is stopped or finds the token cancelled. -/
theorem monitorAfter_ended (h : (monitorAfter runId deadline pre).phase = .ended) :
    (monitorAfter runId deadline pre).stopped = true ∨
      (monitorAfter runId deadline pre).vars.token.reason.isSome = true := by
  induction pre using List.reverseRecOn with
  | nil => cases h
  | append_singleton pre event ih =>
    rw [monitorAfter_append] at h ⊢
    cases event with
    | stop => exact Or.inl rfl
    | cancelled other =>
      rcases ih h with hs | ht
      · exact Or.inl hs
      · refine Or.inr ?_
        simp only [Monitor.step, MonitorVars.cancel, CancellationToken.cancel]
        rw [Option.isSome_or, ht]
        rfl
    | beat b =>
      simp only [Monitor.step] at h ⊢
      split
      · rename_i hticking
        rw [if_pos hticking] at h
        simp only [Monitor.after] at h
        split at h
        · cases h
        · split at h
          · rename_i hend
            rw [Bool.or_eq_true] at hend
            exact hend.symm
          · cases h
      · rename_i hticking
        rw [if_neg hticking] at h
        exact ih h

/-- A monitor that has died met a tick that raises. -/
theorem monitorAfter_died {e : RequestException} (h : (monitorAfter runId deadline pre).phase = .died e) :
    ∃ before b, before ++ [.beat b] <+: pre ∧ (monitorAfter runId deadline before).ticking = true ∧
      (tick runId deadline b (monitorAfter runId deadline before).vars).raised ≠ none := by
  induction pre using List.reverseRecOn with
  | nil => cases h
  | append_singleton pre event ih =>
    have hbefore : ∀ (hold : (monitorAfter runId deadline pre).phase = .died e),
        ∃ before b, before ++ [.beat b] <+: pre ++ [event] ∧ (monitorAfter runId deadline before).ticking = true ∧
          (tick runId deadline b (monitorAfter runId deadline before).vars).raised ≠ none := by
      intro hold
      obtain ⟨before, b, hb, hrest⟩ := ih hold
      exact ⟨before, b, hb.trans (List.prefix_append _ _), hrest⟩
    rw [monitorAfter_append] at h
    cases event with
    | cancelled other => exact hbefore h
    | stop =>
      simp only [Monitor.step] at h
      split at h
      · cases h
      · exact hbefore h
    | beat b =>
      simp only [Monitor.step] at h
      split at h
      · rename_i hticking
        refine ⟨pre, b, List.prefix_refl _, hticking, fun hnone => ?_⟩
        simp only [Monitor.after, hnone] at h
        split at h <;> cases h
      · exact hbefore h

/-- A worker heartbeat answered with 500, and a run heartbeat that would have renewed the lease. -/
def failingBeat : Beat :=
  { now := 0
    worker := .response ⟨500, 0, .notJson⟩
    run := .response ⟨200, 27, .json (.obj [("id", .int 7), ("status", .str "running")])⟩ }

end Switchboard
