import Switchboard.Proof.Polling

/-!
# Local admission and shutdown

* `requestShutdown_ensures`, `attempt_ensures`, `finishRun_ensures`, `pollOnce_ensures`:
  the threads, step by step.
* `runPolls_sound`: every interleaving.
* `runPolls_admission`: at most one run is active, none is executed twice, every run that
  is not admitted is reported once as cancelled, and a run that checks its token after a
  shutdown has returned does not succeed.
-/

namespace Switchboard

open Threads Try Transaction

variable {ι : Type} {w w' : LocalWorker ι} {i j k : ι} {r : ℕ}

/-! ## What a poll knows -/

/-- Poll `i` has begun run `r`, and neither ended nor reported it. -/
structure Running (i : ι) (r : ℕ) (w : LocalWorker ι) : Prop where
  out : .checkedOut i r ∈ w.log
  only : ∀ r', .checkedOut i r' ∈ w.log → r' = r
  active : Active w.log i r
  unreported : ∀ r' c, .reported i r' c ∉ w.log

/-- The run is past its first checks: if it is late, its token is cancelled. -/
structure Safe (i : ι) (r : ℕ) (w : LocalWorker ι) : Prop extends Running i r w, Watched i w where
  late : Late i w.log → (w.reason i).isSome = true

/-- The token of the run is registered. -/
structure Registered (i : ι) (r : ℕ) (w : LocalWorker ι) : Prop extends Running i r w where
  registered : w.activeToken = some i
  exists_token : (w.tokens i).isSome = true

theorem Running.later (h : Running i r w) (hr : Relies i w w') : Running i r w' where
  out := hr.mem h.out
  only r' hr' := h.only r' ((hr.mem_iff rfl).1 hr')
  active := ⟨hr.mem h.active.1, fun hended => h.active.2 ((hr.mem_iff rfl).1 hended)⟩
  unreported r' c hc := h.unreported r' c ((hr.mem_iff rfl).1 hc)

theorem Safe.later (h : Safe i r w) (hr : Relies i w w') : Safe i r w' :=
  { h.toRunning.later hr, hr.watched h.toWatched with late := fun hl => hr.reason (h.late (hr.late_iff.1 hl)) }

theorem Registered.later (h : Registered i r w) (hr : Relies i w w') : Registered i r w' :=
  { h.toRunning.later hr with
    registered := hr.registered.2 h.registered, exists_token := hr.exists_token h.exists_token }

/-- An event of the poll itself. -/
theorem Running.record (h : Running i r w) {e : PollEvent ι} (he : e.isNeutral = true) : Running i r (w.record e) where
  out := List.mem_append_left _ h.out
  only r' hr' := by
    refine h.only r' ((List.mem_append.1 hr').resolve_right fun hlast => ?_)
    rw [← List.mem_singleton.1 hlast] at he; cases he
  active := by
    refine (active_append ?_ ?_).2 h.active <;> rintro _ _ rfl <;> cases he
  unreported r' c hc := by
    refine h.unreported r' c ((List.mem_append.1 hc).resolve_right fun hlast => ?_)
    rw [← List.mem_singleton.1 hlast] at he; cases he

theorem Watched.record (h : Watched i w) {e : PollEvent ι} (hsignal : ∀ k, e ≠ .signalled k) :
    Watched i (w.record e) where
  registered := h.registered
  exists_token := h.exists_token
  cancelled k hk := h.cancelled k ((List.mem_append.1 hk).resolve_right fun hlast =>
    hsignal k (List.mem_singleton.1 hlast).symm)

theorem Safe.created (h : Safe i r w) (effect : LocalEffect) : Safe i r (w.record (.created i r effect)) :=
  { h.toRunning.record rfl, h.toWatched.record (e := .created i r effect) nofun with
    late := fun hl => h.late ((late_append.1 hl).resolve_right fun hc => nomatch hc.1) }

/-- **A check of a watched run**: if a shutdown has returned by now, the token is cancelled. -/
theorem Safe.checked [DecidableEq ι] (h : Safe i r w) (hw : WorkerOK w) : Safe i r (w.record (.checked i)) :=
  { h.toRunning.record rfl, h.toWatched.record (e := .checked i) nofun with
    late := fun hl => by
      rcases late_append.1 hl with hl | ⟨-, k, hk⟩
      · exact h.late hl
      · exact h.cancelled k (hw.returned k hk) }

/-- The token is taken away, and the run is still running. -/
structure Withdrawn (i : ι) (r : ℕ) (w : LocalWorker ι) : Prop extends Running i r w where
  unregistered : w.activeToken ≠ some i

theorem Withdrawn.later (h : Withdrawn i r w) (hr : Relies i w w') : Withdrawn i r w' :=
  { h.toRunning.later hr with unregistered := fun hi => h.unregistered (hr.registered.1 hi) }

/-- `_end_run`, from which on only the report is left. -/
structure Closed (i : ι) (r : ℕ) (w : LocalWorker ι) : Prop where
  admitted : .admitted i r ∈ w.log
  only : ∀ r', .checkedOut i r' ∈ w.log → r' = r
  unreported : ∀ r' c, .reported i r' c ∉ w.log

theorem Closed.later (h : Closed i r w) (hr : Relies i w w') : Closed i r w' where
  admitted := hr.mem h.admitted
  only r' hr' := h.only r' ((hr.mem_iff rfl).1 hr')
  unreported r' c hc := h.unreported r' c ((hr.mem_iff rfl).1 hc)

theorem Registered.checked (h : Registered i r w) : Registered i r (w.record (.checked i)) :=
  { h.toRunning.record rfl with registered := h.registered, exists_token := h.exists_token }

theorem Late.returned {log : List (PollEvent ι)} (h : Late i log) : ∃ k, .returned k ∈ log := by
  obtain ⟨k, pre, post, rfl, -⟩ := h
  exact ⟨k, List.mem_append_right _ List.mem_cons_self⟩

/-- **A run that finds the flag down** is safe: nobody has signalled a shutdown yet. -/
theorem Registered.safe [DecidableEq ι] (h : Registered i r w) (hw : WorkerOK w) (hdown : w.shutdown = false) :
    Safe i r w := by
  have hsignalled : ∀ k, .signalled k ∉ w.log := by
    intro k hk
    rw [hw.signalled k hk] at hdown
    cases hdown
  refine { h.toRunning with
    registered := h.registered, exists_token := h.exists_token
    cancelled := fun k hk => absurd hk (hsignalled k), late := fun hl => ?_ }
  obtain ⟨k, hk⟩ := hl.returned
  exact absurd (hw.returned k hk) (hsignalled k)

/-- A poll that has ended: a run that it did not begin is reported. -/
def Answered [DecidableEq ι] (i : ι) (w : LocalWorker ι) : Prop :=
  ∀ r, .checkedOut i r ∈ w.log → .admitted i r ∉ w.log → reports i w.log ≠ []

theorem Answered.later [DecidableEq ι] (h : Answered i w) (hr : Relies i w w') : Answered i w' := by
  intro r hout hno
  have hreports := h r ((hr.mem_iff rfl).1 hout) fun hin => hno (hr.mem hin)
  obtain ⟨⟨r', c⟩, hc⟩ := List.exists_mem_of_ne_nil _ hreports
  exact List.ne_nil_of_mem (mem_reports.2 (hr.mem (mem_reports.1 hc)))

/-- The poll has begun the only run that it checked out. -/
theorem answered_of_admitted [DecidableEq ι] (hadmitted : .admitted i r ∈ w.log)
    (honly : ∀ r', .checkedOut i r' ∈ w.log → r' = r) :
    Answered i w := by
  intro r' hout hno
  rw [honly r' hout] at hno
  exact absurd hadmitted hno

theorem Running.answered [DecidableEq ι] (h : Running i r w) : Answered i w :=
  answered_of_admitted h.active.1 h.only

/-- Poll `i` has done nothing yet. -/
def Silent (i : ι) (w : LocalWorker ι) : Prop := ∀ e ∈ w.log, PollEvent.poll e ≠ some i

theorem Silent.later (h : Silent i w) (hr : Relies i w w') : Silent i w' :=
  fun e he hpoll => h e ((hr.mem_iff hpoll).1 he) hpoll

theorem Silent.answered [DecidableEq ι] (h : Silent i w) : Answered i w := fun _ hout => absurd rfl (h _ hout)

/-- Poll `i` has checked out run `r`, and done nothing else. -/
structure Out (i : ι) (r : ℕ) (w : LocalWorker ι) : Prop where
  out : .checkedOut i r ∈ w.log
  only : ∀ e ∈ w.log, PollEvent.poll e = some i → e = .checkedOut i r

theorem Out.later (h : Out i r w) (hr : Relies i w w') : Out i r w' where
  out := hr.mem h.out
  only e he hpoll := h.only e ((hr.mem_iff hpoll).1 he) hpoll

theorem Silent.out (h : Silent i w) : Out i r (w.record (.checkedOut i r)) where
  out := List.mem_append_right _ (List.mem_singleton_self _)
  only e he hpoll := by
    rcases List.mem_append.1 he with he | he
    · exact absurd hpoll (h e he)
    · exact List.mem_singleton.1 he

/-- An admitted run is running. -/
theorem Out.running (h : Out i r w) (hlog : w'.log = w.log ++ [.admitted i r]) : Running i r w' := by
  have hother : ∀ e, e ∈ w'.log → PollEvent.poll e = some i → e = .checkedOut i r ∨ e = .admitted i r := by
    intro e he hpoll
    rw [hlog, List.mem_append, List.mem_singleton] at he
    exact he.imp_left fun he => h.only e he hpoll
  refine ⟨?_, fun r' hr' => ?_, ⟨?_, fun hended => ?_⟩, fun r' c hc => ?_⟩
  · rw [hlog]; exact List.mem_append_left _ h.out
  · obtain he | he := hother _ hr' rfl
    · exact (PollEvent.checkedOut.inj he).2
    · cases he
  · rw [hlog]; exact List.mem_append_right _ (List.mem_singleton_self _)
  · rcases hother _ hended rfl with he | he <;> cases he
  · rcases hother _ hc rfl with he | he <;> cases he

/-! ## Threads -/

namespace Polling

open LocalWorker

variable [DecidableEq ι] {α β : Type}

/-- Poll `i` does `p` from `w` on, under the interference that it relies on, and ends in `Q`. -/
abbrev Does (i : ι) (Q : α → LocalWorker ι → Prop) (p : Thread (LocalWorker ι) α) (w : LocalWorker ι) : Prop :=
  p.Ensures WorkerOK (Relies i) (fun w w' => ∀ j, j ≠ i → Relies j w w') Q w

/-- **A shutdown request** does nothing that a poll does not allow for, its own one included. -/
theorem requestShutdown_ensures (i k : ι) (w : LocalWorker ι) :
    Does i (fun _ w' => Relies i w w') (requestShutdown k) w := by
  unfold requestShutdown
  refine Thread.ensures_bind (Thread.ensures_update fun w₁ h₁ hr₁ => ?_)
  refine ⟨h₁.setShutdown, fun j _ => relies_setShutdown j w₁, ?_⟩
  refine Thread.ensures_bind (Thread.ensures_update fun w₂ h₂ hr₂ => ?_)
  refine ⟨h₂.signal k (hr₂.shutdown rfl), fun j _ => relies_signal j k w₂, ?_⟩
  refine Thread.ensures_update fun w₃ h₃ hr₃ => ?_
  have hsignalled : .signalled k ∈ w₃.log := hr₃.mem (List.mem_append_right _ (List.mem_singleton_self _))
  have hlast : ∀ j, Relies j w₃ (w₃.record (.returned k)) := fun j => relies_record nofun nofun
  refine ⟨h₃.record_returned hsignalled, fun j _ => hlast j, ?_⟩
  exact hr₁.trans ((relies_setShutdown i w₁).trans (hr₂.trans ((relies_signal i k w₂).trans (hr₃.trans (hlast i)))))

/-- Steps that only cancel and signal. -/
theorem cancel_ensures (i k : ι) (text : String) (w : LocalWorker ι) :
    Does i (fun _ w' => Relies i w w') (.update (cancel k text)) w :=
  Thread.ensures_update fun w₁ h₁ hr₁ =>
    ⟨h₁.cancel k text, fun j _ => relies_cancel j k text w₁, hr₁.trans (relies_cancel i k text w₁)⟩

section keeps

variable {S : ι → ℕ → LocalWorker ι → Prop}

/-- What a poll knows stays so over these statements; if one raises, the run is still running. -/
def Keeps (S : ι → ℕ → LocalWorker ι → Prop) (i : ι) (r : ℕ) (x : PollM ι α) : Prop :=
  ∀ a w, S i r w → Does i (fun result w' => match result.1 with
    | .ok _ => S i r w'
    | .error _ => Running i r w') (x a) w

theorem keeps_pure (v : α) : Keeps S i r (pure v : PollM ι α) := fun _ _ h => h

theorem keeps_own (hS : ∀ w, S i r w → Running i r w) (x : AttemptM α) : Keeps S i r (own x : PollM ι α) := by
  intro a w h
  show match (x a).1 with
    | .ok _ => S i r w
    | .error _ => Running i r w
  cases (x a).1 with
  | ok v => exact h
  | error e => exact hS w h

theorem keeps_shared {x : Thread (LocalWorker ι) α} (hx : ∀ w, S i r w → Does i (fun _ w' => S i r w') x w) :
    Keeps S i r (shared x) := by
  intro a w h
  exact Thread.ensures_bind ((hx w h).mono fun v w' hw' => hw')

theorem keeps_bind {x : PollM ι α} {f : α → PollM ι β} (hx : Keeps S i r x) (hf : ∀ v, Keeps S i r (f v)) :
    Keeps S i r (x >>= f) := by
  intro a w h
  refine Thread.ensures_bind ((hx a w h).mono ?_)
  rintro ⟨result, a'⟩ w' hw'
  cases result with
  | ok v => exact hf v a' w' hw'
  | error e => exact hw'

/-- What others may do as well. -/
theorem stays_of_relies (hS : ∀ w w', S i r w → Relies i w w' → S i r w') {x : Thread (LocalWorker ι) α}
    (hx : ∀ w, Does i (fun _ w' => Relies i w w') x w) (w : LocalWorker ι) (h : S i r w) :
    Does i (fun _ w' => S i r w') x w :=
  (hx w).mono fun _ w' hr => hS w w' h hr

theorem stays_when {c : Bool} {x : Thread (LocalWorker ι) Unit}
    (hx : ∀ w, S i r w → Does i (fun _ w' => S i r w') x w) (w : LocalWorker ι) (h : S i r w) :
    Does i (fun _ w' => S i r w') (.when c x) w :=
  Thread.ensures_when (fun _ => hx w h) fun _ => h

end keeps

theorem safe_own (x : AttemptM α) : Keeps Safe i r (own x : PollM ι α) := keeps_own (fun _ h => h.toRunning) x

theorem safe_of_relies {x : Thread (LocalWorker ι) α} (hx : ∀ w, Does i (fun _ w' => Relies i w w') x w) :
    ∀ w, Safe i r w → Does i (fun _ w' => Safe i r w') x w :=
  stays_of_relies (fun _ _ h hr => h.later hr) hx

theorem safe_checkToken (w : LocalWorker ι) (h : Safe i r w) : Does i (fun _ w' => Safe i r w') (checkToken i) w := by
  refine Thread.ensures_access fun w₁ h₁ hr₁ => ?_
  have hsafe := h.later hr₁
  exact ⟨h₁.record_checked hsafe.unreported, fun j hj => relies_own rfl hj,
    hsafe.checked h₁⟩

theorem safe_checkShutdown (w : LocalWorker ι) (h : Safe i r w) :
    Does i (fun _ w' => Safe i r w') (checkShutdown i) w := by
  refine Thread.ensures_access fun w₁ h₁ hr₁ => ?_
  have hsafe := h.later hr₁
  exact ⟨h₁.record_checked hsafe.unreported, fun j hj => relies_own rfl hj,
    hsafe.checked h₁⟩

theorem safe_created (effect : LocalEffect) (w : LocalWorker ι) (h : Safe i r w) :
    Does i (fun _ w' => Safe i r w') (.update (record (.created i r effect))) w := by
  refine Thread.ensures_update fun w₁ h₁ hr₁ => ?_
  have hsafe := h.later hr₁
  exact ⟨h₁.record_created hsafe.active.1, fun j hj => relies_own rfl hj,
    hsafe.created effect⟩

/-! ### The `try` block -/

theorem keeps_lookUp (host : PollHost) (identity : ReuseIdentity) (identityHash : String) :
    Keeps Safe i r (lookUp i host identity identityHash) := by
  unfold lookUp
  split
  · exact keeps_bind (safe_own _) fun _ => keeps_pure _
  · refine keeps_bind (keeps_shared (safe_of_relies (cancel_ensures i i _))) fun _ => ?_
    refine keeps_bind (keeps_shared (stays_when (safe_of_relies (requestShutdown_ensures i i)))) fun _ => ?_
    exact keeps_pure _
  · split
    · exact keeps_bind (safe_own _) fun _ => keeps_pure _
    · exact safe_own _

variable {P : Platform}

theorem keeps_reuseOrExecute (host : PollHost) (order : AssignedWorkOrder) (manifest : TrustedManifest)
    (environment : String) : Keeps Safe i r (reuseOrExecute P i host order manifest environment) := by
  unfold reuseOrExecute
  split
  · exact keeps_pure _
  · refine keeps_bind (safe_own _) fun locks => keeps_bind (safe_own _) fun identity => ?_
    refine keeps_bind (safe_own _) fun _ => keeps_bind (keeps_lookUp host identity _) fun lookup => ?_
    exact keeps_bind (keeps_shared safe_checkToken) fun cancelled => safe_own _

theorem safe_runStep (host : PollHost) (n : ℕ) (step : TrustedStep) (w : LocalWorker ι) (h : Safe i r w) :
    Does i (fun _ w' => Safe i r w') (runStep i r host n step) w := by
  unfold runStep
  refine Thread.ensures_bind ((safe_checkToken w h).mono fun cancelled w₁ h₁ => ?_)
  cases cancelled with
  | some reason => exact h₁
  | none =>
    simp only []
    split
    · exact h₁
    · exact Thread.ensures_bind ((safe_created _ w₁ h₁).mono fun _ _ h₂ => h₂)

theorem safe_review (outcome : StepOutcome) (w : LocalWorker ι) (h : Safe i r w) :
    Does i (fun _ w' => Safe i r w') (review i outcome) w := by
  cases outcome with
  | deadlineExceeded | exception => exact Thread.ensures_bind ((safe_checkToken w h).mono fun _ _ h₁ => h₁)
  | result | containmentCleanup => exact h

/-- **The loop over the steps keeps the run safe**, whatever the steps do. -/
theorem keeps_runSteps (host : PollHost) (hasContract : Bool) (n : ℕ) (steps : List TrustedStep) :
    Keeps Safe i r (runSteps i r host hasContract n steps) := by
  induction steps generalizing n with
  | nil => exact keeps_pure ()
  | cons step rest ih =>
    refine keeps_bind (keeps_shared safe_checkShutdown) fun down => ?_
    refine keeps_bind (keeps_shared (stays_when (safe_of_relies (cancel_ensures i i _)))) fun _ => ?_
    refine keeps_bind (keeps_shared (safe_runStep host n step)) fun outcome => ?_
    refine keeps_bind (keeps_shared (safe_review outcome)) fun outcome => keeps_bind (safe_own _) fun _ => ?_
    split
    · exact ih (n + 1)
    · exact keeps_pure ()

theorem keeps_runFresh (host : PollHost) (manifest : TrustedManifest) (executeFresh : Bool) :
    Keeps Safe i r (runFresh i r host manifest executeFresh) := by
  cases executeFresh with
  | true => exact keeps_bind (safe_own _) fun _ => keeps_runSteps host _ 0 manifest.executionSteps
  | false => exact keeps_pure ()

/-- How the `try` block ends: still running, and if it ended in success, not late. -/
def Tried (i : ι) (r : ℕ) (result : Except WorkerError Unit × Attempt) (w : LocalWorker ι) : Prop :=
  Running i r w ∧ ∀ u, result.1 = .ok u → result.2.terminal = .succeeded → ¬ Late i w.log

theorem tried_bind {S : ι → ℕ → LocalWorker ι → Prop} {x : PollM ι α} {f : α → PollM ι Unit} {a : Attempt}
    (hx : Keeps S i r x) (hf : ∀ v a w, S i r w → Does i (Tried i r) (f v a) w) (h : S i r w) :
    Does i (Tried i r) ((x >>= f) a) w := by
  refine Thread.ensures_bind ((hx a w h).mono ?_)
  rintro ⟨result, a'⟩ w' hw'
  cases result with
  | ok v => exact hf v a' w' hw'
  | error e => exact ⟨hw', nofun⟩

/-- A cancelled attempt is not a success. -/
theorem cancelled_terminal (reason : String) (a : Attempt) : (a.cancelled reason).terminal ≠ .succeeded := by
  unfold Attempt.cancelled Attempt.finish
  simp only []
  split <;> nofun

/-- **The last check decides**: a token that is not cancelled by then means that no shutdown has returned. -/
theorem workOnCheckout_ensures (host : PollHost) (order : AssignedWorkOrder) (manifest : TrustedManifest)
    (environment : String) (a : Attempt) (h : Safe i r w) :
    Does i (Tried i r) (workOnCheckout P i r host order manifest environment a) w := by
  unfold workOnCheckout
  refine tried_bind (safe_own _) (fun _ a w h => tried_bind (safe_own _) (fun _ a w h => ?_) h) h
  refine tried_bind (keeps_reuseOrExecute host order manifest environment) (fun executeFresh a w h => ?_) h
  refine tried_bind (keeps_runFresh host manifest executeFresh) (fun _ a w h => ?_) h
  refine Thread.ensures_bind (Thread.ensures_bind (Thread.ensures_access fun w₁ h₁ hr₁ => ?_))
  have hsafe := h.later hr₁
  refine ⟨h₁.record_checked hsafe.unreported, fun j hj => relies_own rfl hj, ?_⟩
  have hchecked := hsafe.checked h₁
  cases hreason : w₁.reason i with
  | some reason => exact ⟨hchecked.toRunning, fun _ _ hs => absurd hs (cancelled_terminal reason a)⟩
  | none =>
    refine ⟨hchecked.toRunning, fun _ _ _ hl => ?_⟩
    have hsome : (w₁.reason i).isSome = true := hchecked.late hl
    rw [hreason] at hsome
    cases hsome

theorem execute_ensures (host : PollHost) (order : AssignedWorkOrder) (manifest : TrustedManifest) (a : Attempt)
    (h : Safe i r w) : Does i (Tried i r) (execute P i r host order manifest a) w := by
  unfold execute
  refine tried_bind (safe_own _) (fun _ a w h => tried_bind (safe_own _) (fun environment a w h => ?_) h) h
  refine tried_bind (safe_own _) (fun _ a w h => tried_bind (keeps_shared (safe_created _)) (fun _ a w h => ?_) h) h
  refine tried_bind (safe_own _) (fun store a w h => tried_bind (safe_own _) (fun _ a w h => ?_) h) h
  refine tried_bind (keeps_shared (safe_created _)) (fun _ a w h => tried_bind (safe_own _) (fun _ a w h => ?_) h) h
  exact tried_bind (safe_own _) (fun _ a w h => workOnCheckout_ensures host order manifest environment a h) h

theorem keeps_startMonitor (host : PollHost) : Keeps Registered i r (startMonitor i host) := by
  have hlater : ∀ w w', Registered i r w → Relies i w w' → Registered i r w' := fun _ _ h hr => h.later hr
  unfold startMonitor
  split
  · exact keeps_own (fun _ h => h.toRunning) _
  · exact keeps_pure ()
  · refine keeps_bind (keeps_shared (stays_of_relies hlater (cancel_ensures i i _))) fun _ => ?_
    exact keeps_shared (stays_when (stays_of_relies hlater (requestShutdown_ensures i i)))

/-- **The first checks decide whether the run starts**: from a flag that is down on, every signal cancels the
token. -/
theorem start_ensures (host : PollHost) (order : AssignedWorkOrder) (manifest : TrustedManifest) (a : Attempt)
    (h : Registered i r w) : Does i (Tried i r) ((do
      let shuttingDown ← shared (checkShutdown i)
      if shuttingDown then do
        shared (.update (cancel i "worker_shutdown"))
        let reason ← shared (.observe (LocalWorker.reason i))
        own (assign (Attempt.finish .cancelled reason))
      else execute P i r host order manifest : PollM ι Unit) a) w := by
  refine Thread.ensures_bind (Thread.ensures_bind (Thread.ensures_access fun w₁ h₁ hr₁ => ?_))
  have hreg := h.later hr₁
  refine ⟨h₁.record_checked hreg.unreported,
    fun j hj => relies_own rfl hj, ?_⟩
  cases hdown : w₁.shutdown with
  | true =>
    refine Thread.ensures_bind (Thread.ensures_bind ((cancel_ensures i i _ _).mono fun _ w₂ hr₂ => ?_))
    refine Thread.ensures_bind (Thread.ensures_bind (Thread.ensures_observe (fun w _ j _ => .refl j w) ?_))
    intro w₃ _ hr₃
    exact ⟨(hreg.checked.later (hr₂.trans hr₃)).toRunning, fun _ _ => nofun⟩
  | false => exact execute_ensures host order manifest a ((hreg.safe h₁ hdown).checked h₁)

theorem attemptBody_ensures (host : PollHost) (a : Attempt) (h : Running i r w) :
    Does i (Tried i r) (attemptBody P i r host a) w := by
  have hown : ∀ {α : Type} (x : AttemptM α), Keeps Running i r (own x : PollM ι α) := keeps_own fun _ h => h
  unfold attemptBody
  refine tried_bind (hown _) (fun order a w h => tried_bind (hown _) (fun _ a w h => ?_) h) h
  refine tried_bind (hown _) (fun manifest a w h => tried_bind (hown _) (fun _ a w h => ?_) h) h
  refine Thread.ensures_bind (Thread.ensures_bind (Thread.ensures_update fun w₁ h₁ hr₁ => ?_))
  have hrun := h.later hr₁
  refine ⟨h₁.register hrun.active, fun j hj => relies_register h₁ hrun.active hj, ?_⟩
  have hreg : Registered i r (w₁.register i) :=
    { out := hrun.out, only := hrun.only, active := hrun.active, unreported := hrun.unreported
      registered := rfl, exists_token := by simp [LocalWorker.register] }
  refine tried_bind (keeps_startMonitor host) (fun _ a w h => ?_) hreg
  refine Thread.ensures_bind (Thread.ensures_bind (Thread.ensures_access fun w₂ h₂ hr₂ => ?_))
  have hreg₂ := h.later hr₂
  refine ⟨h₂.record_checked hreg₂.unreported,
    fun j hj => relies_own rfl hj, ?_⟩
  cases hreason : w₂.reason i with
  | some reason => exact ⟨hreg₂.checked.toRunning, fun _ _ hs => absurd hs (cancelled_terminal reason a)⟩
  | none => exact start_ensures host order manifest a hreg₂.checked

theorem handleError_terminal (e : WorkerError) (a : Attempt) : (handleError e a).terminal ≠ .succeeded := by
  cases e with
  | exception e =>
    unfold handleError
    simp only []
    split <;> nofun
  | containmentCleanup | ownershipLost | localCommitUnavailable => nofun

theorem toRun_succeeded {status : TerminalStatus} (h : status.toRun = .succeeded) : status = .succeeded := by
  cases status with
  | succeeded => rfl
  | failed | timedOut | cancelled => cases h

/-- How the attempt ends. -/
def Attempted (i : ι) (r : ℕ) (a : Attempt) (w : LocalWorker ι) : Prop :=
  Running i r w ∧ (a.terminal = .succeeded → ¬ Late i w.log)

theorem attempt_ensures (host : PollHost) (h : Running i r w) :
    Does i (Attempted i r) (attempt P i r host) w := by
  unfold attempt
  refine Thread.ensures_bind ((attemptBody_ensures host _ h).mono ?_)
  rintro ⟨result, a⟩ w₁ ⟨hrun, hlate⟩
  have hfailed : ∀ e w', Running i r w' → Attempted i r (handleError e a) w' := fun e _ h =>
    ⟨h, fun hs => absurd hs (handleError_terminal e a)⟩
  cases result with
  | ok u => exact ⟨hrun, hlate u rfl⟩
  | error e =>
    simp only []
    split
    · rename_i heq
      cases heq
    · exact Thread.ensures_bind ((requestShutdown_ensures i i w₁).mono fun _ w₂ hr => hfailed _ w₂ (hrun.later hr))
    · rename_i heq
      obtain rfl := Except.error.inj heq
      exact hfailed e w₁ hrun

/-! ### The `finally` block and the completion -/

theorem endRun_ensures (h : Withdrawn i r w) :
    Does i (fun _ w' => Closed i r w' ∧ (Late i w'.log ↔ Late i w.log)) (.update (endRun i r)) w := by
  refine Thread.ensures_update fun w₁ h₁ hr₁ => ?_
  have hwithdrawn := h.later hr₁
  refine ⟨h₁.endRun hwithdrawn.active hwithdrawn.unregistered, fun j hj => relies_endRun hj, ⟨?_, ?_, ?_⟩, ?_⟩
  · exact List.mem_append_left _ hwithdrawn.active.1
  · intro r' hr'
    exact hwithdrawn.only r' (by simpa [LocalWorker.endRun] using hr')
  · intro r' c hc
    exact hwithdrawn.unreported r' c (by simpa [LocalWorker.endRun] using hc)
  · rw [← hr₁.late_iff]
    simp [LocalWorker.endRun, late_append]

theorem report_ensures {c : ExecutionCompletion} (h : Closed i r w) (hlate : Late i w.log → c.status ≠ .succeeded) :
    Does i (fun _ w' => Answered i w') (.update (record (.reported i r c))) w := by
  refine Thread.ensures_update fun w₁ h₁ hr₁ => ?_
  have hclosed := h.later hr₁
  have hlog : LogOK (w₁.log ++ [.reported i r c]) :=
    h₁.toLogOK.reported hclosed.unreported (fun hno => absurd hclosed.admitted (hno r))
      fun hl => hlate (hr₁.late_iff.1 hl)
  refine ⟨h₁.record hlog nofun nofun nofun, fun j hj => relies_own rfl hj, ?_⟩
  refine answered_of_admitted (List.mem_append_left _ hclosed.admitted) fun r' hr' => ?_
  exact hclosed.only r' (by simpa [LocalWorker.record] using hr')

theorem finishRun_ensures (host : PollHost) {a : Attempt} (h : Attempted i r a w) :
    Does i (fun _ w' => Answered i w') (finishRun P i r host a) w := by
  unfold finishRun
  refine Thread.ensures_bind (Thread.ensures_update fun w₁ h₁ hr₁ => ?_)
  have hrun := h.1.later hr₁
  refine ⟨h₁.unregister, fun j hj => relies_unregister h₁ hrun.active hj, ?_⟩
  have hwithdrawn : Withdrawn i r w₁.unregister :=
    { out := hrun.out, only := hrun.only, active := hrun.active, unreported := hrun.unreported
      unregistered := nofun }
  have hlate : a.terminal = .succeeded → ¬ Late i w₁.unregister.log := fun hs hl => h.2 hs (hr₁.late_iff.1 hl)
  generalize w₁.unregister = w₂ at hwithdrawn hlate
  refine Thread.ensures_bind (Thread.Ensures.mono (Q := fun _ w₃ => Relies i w₂ w₃) ?_ fun _ w₃ hr₃ => ?_)
  · refine Thread.ensures_when (fun _ => Thread.ensures_update fun w₃ h₃ hr₃ => ?_) fun _ => .refl i w₂
    exact ⟨h₃.setShutdown, fun j _ => relies_setShutdown j w₃, hr₃.trans (relies_setShutdown i w₃)⟩
  · have hwithdrawn₃ := hwithdrawn.later hr₃
    have hsettles := settleSource_settles host.toHost a
    generalize settleSource host.toHost a = a' at hsettles
    simp only []
    split
    · refine Thread.ensures_when (fun _ => ?_) fun _ => hwithdrawn₃.toRunning.answered
      exact (endRun_ensures hwithdrawn₃).mono fun _ w₄ h₄ => answered_of_admitted h₄.1.admitted h₄.1.only
    · refine Thread.ensures_bind ((endRun_ensures hwithdrawn₃).mono fun _ w₄ h₄ => ?_)
      have hreport : Late i w₄.log → (finalizeEvidence P host.toHost r a').terminal ≠ .succeeded := by
        intro hl
        have hfailed : a.terminal ≠ .succeeded := fun hs => hlate hs (hr₃.late_iff.1 (h₄.2.1 hl))
        obtain ⟨_, _, _, _, _, _, _, _, rfl, hterminal⟩ := hsettles
        exact finalizeEvidence_terminal (hterminal hfailed)
      split
      · exact answered_of_admitted h₄.1.admitted h₄.1.only
      · refine Thread.ensures_bind ((report_ensures h₄.1 fun hl hs => ?_).mono fun _ w₅ h₅ => ?_)
        · exact hreport hl (toRun_succeeded hs)
        · split
          · exact (requestShutdown_ensures i i w₅).mono fun _ w₆ hr₆ => h₅.later hr₆
          · exact h₅

/-! ### The whole poll -/

theorem reject_ensures (reason : String) (h : Out i r w) :
    Does i (fun _ w' => Answered i w') (.update (record (.reported i r (admissionRejection reason)))) w := by
  refine Thread.ensures_update fun w₁ h₁ hr₁ => ?_
  have hout := h.later hr₁
  have hlog : LogOK (w₁.log ++ [.reported i r (admissionRejection reason)]) := by
    refine h₁.toLogOK.reported (fun r' c hc => ?_) (fun _ => ⟨hout.out, reason, rfl⟩) fun _ => nofun
    cases hout.only _ hc rfl
  refine ⟨h₁.record hlog nofun nofun nofun, fun j hj => relies_own rfl hj, ?_⟩
  intro r' _ _
  exact List.ne_nil_of_mem (mem_reports.2 (List.mem_append_right _ (List.mem_singleton_self _)))

/-- **A poll answers for the run that it checks out**: it begins it, or reports its rejection. -/
theorem pollOnce_ensures (host : PollHost) (h : Silent i w) :
    Does i (fun _ w' => Answered i w') (pollOnce P i host) w := by
  unfold pollOnce
  refine Thread.ensures_bind (Thread.ensures_observe (fun w _ j _ => .refl j w) fun w₁ _ hr₁ => ?_)
  have hsilent := h.later hr₁
  split
  · exact hsilent.answered
  · split
    · exact (requestShutdown_ensures i i w₁).mono fun _ _ hr₂ => hsilent.answered.later hr₂
    · exact hsilent.answered
    · exact hsilent.answered
    · rename_i r _
      refine Thread.ensures_bind (Thread.ensures_update fun w₂ h₂ hr₂ => ?_)
      have hsilent₂ := hsilent.later hr₂
      have hlog : LogOK (w₂.log ++ [.checkedOut i r]) := h₂.toLogOK.checkedOut fun r' hr' => hsilent₂ _ hr' rfl
      refine ⟨h₂.record hlog (by simp) (by simp) (by simp), fun j hj => relies_own rfl hj, ?_⟩
      refine Thread.ensures_bind (Thread.ensures_access fun w₃ h₃ hr₃ => ?_)
      have hout : Out i r w₃ := hsilent₂.out.later hr₃
      have hopen : .ended i r ∉ w₃.log := by
        intro he
        cases hout.only _ he rfl
      have hok := h₃.beginRun hout.out hopen
      rcases beginRun_cases i r w₃ with ⟨reason, hrejected⟩ | ⟨hnone, hadmitted, hothers⟩
      · rw [hrejected]
        exact ⟨h₃, fun j _ => .refl j w₃, reject_ensures reason hout⟩
      · refine ⟨hok, hothers, ?_⟩
        rw [hnone]
        exact Thread.ensures_bind ((attempt_ensures host (hout.running hadmitted)).mono fun a _ h₄ =>
          finishRun_ensures host h₄)

/-- Every call answers for what it checked out. -/
theorem call_ensures (c : WorkerCall ι) (h : Silent i w) : Does i (fun _ w' => Answered i w') (c.thread P i) w := by
  cases c with
  | pollOnce host => exact pollOnce_ensures host h
  | requestShutdown => exact (requestShutdown_ensures i i w).mono fun _ _ hr => h.answered.later hr
  | monitorTick poll reason credentialRejected =>
    refine Thread.ensures_bind ((cancel_ensures i poll reason w).mono fun _ w₁ hr₁ => ?_)
    have hanswered := h.answered.later hr₁
    refine Thread.ensures_when (fun _ => ?_) fun _ => hanswered
    exact (requestShutdown_ensures i i w₁).mono fun _ _ hr₂ => hanswered.later hr₂

end Polling

/-! ## All interleavings -/

section runs

variable [DecidableEq ι] {P : Platform}

/-- **Every interleaving keeps the invariant**, and every call that has ended has answered. -/
theorem runPolls_sound (calls : ι → WorkerCall ι) (schedule : List ι) :
    (runPolls P calls schedule).Sound WorkerOK Relies fun i _ w => Answered i w := by
  refine Pool.Sound.run Relies.refl Relies.trans (fun _ _ _ _ h hr => h.later hr) ⟨WorkerOK.init, fun i => ?_⟩ schedule
  exact Polling.call_ensures (calls i) fun e he => absurd he List.not_mem_nil

/-- A run that its poll did not begin: the poll began nothing else either. -/
theorem LogOK.not_admitted {log : List (PollEvent ι)} (h : LogOK log) (hout : .checkedOut i r ∈ log)
    (hno : .admitted i r ∉ log) (r' : ℕ) : .admitted i r' ∉ log := by
  intro hadmitted
  rw [h.checkouts i r' r (h.admitted i r' hadmitted) hout] at hadmitted
  exact hno hadmitted

/-- **Local admission and shutdown**: in every interleaving of any number of calls of `poll_once` and
`request_shutdown` on one worker. -/
theorem runPolls_admission (P : Platform) (calls : ι → WorkerCall ι) (schedule : List ι) :
    LocalAdmission (runPolls P calls schedule) := by
  have hsound := runPolls_sound (P := P) calls schedule
  generalize runPolls P calls schedule = m at hsound
  have hw := hsound.inv
  refine ⟨hw.one, hw.active, hw.nodup, hw.effects, hw.reports, fun i r hout hno => ⟨?_, ?_, ?_⟩, ?_⟩
  · intro r' effect hcreated
    exact hw.toLogOK.not_admitted hout hno r' (hw.effects i r' effect hcreated)
  · rintro ⟨r', c⟩ hc
    obtain ⟨hout', reason, rfl⟩ := hw.rejected i r' c (mem_reports.1 hc) (hw.toLogOK.not_admitted hout hno)
    exact ⟨reason, by rw [hw.checkouts i r' r hout' hout]⟩
  · intro hended
    obtain ⟨u, hu⟩ := Option.isSome_iff_exists.1 hended
    exact hsound.ended hu r hout hno
  · intro k i r completion hbefore hreported
    exact hw.late i r completion hreported ⟨k, hbefore⟩

end runs

end Switchboard
