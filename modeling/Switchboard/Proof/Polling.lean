import Mathlib.Data.List.Basic
import Switchboard.Proof.Finally
import Switchboard.Spec.Polling

/-!
# The steps of concurrent polls

What the worker and the log say together is one invariant (`WorkerOK`). Every thread
relies on the others for this: they write no event of its poll, leave its token
registered and cancelled as it is, and cancel a registered token whenever they signal a
shutdown (`Relies`).

* `WorkerOK.beginRun`, `WorkerOK.endRun`, `LogOK.reported`, …: every step keeps the
  invariant.
* `relies_signal`, `relies_register`, …: every step is within what the others rely on.
-/

namespace Switchboard

open Threads Try Transaction

variable {ι : Type} {w w' : LocalWorker ι} {i j k : ι} {r : ℕ} {log : List (PollEvent ι)}

/-! ## The log -/

/-- The poll whose run an event is about. -/
def PollEvent.poll : PollEvent ι → Option ι
  | checkedOut i _ | admitted i _ | created i _ _ | checked i | ended i _ | reported i _ _ => some i
  | signalled _ | returned _ => none

/-- A shutdown returned before a cancellation check of poll `i`. -/
def Late (i : ι) (log : List (PollEvent ι)) : Prop := ∃ k, Before (.returned k) (.checked i) log

theorem before_append {x y e : PollEvent ι} : Before x y (log ++ [e]) ↔ Before x y log ∨ e = y ∧ x ∈ log := by
  constructor
  · rintro ⟨pre, post, he, hy⟩
    rcases List.eq_nil_or_concat post with rfl | ⟨post', e', rfl⟩
    · cases hy
    · rw [List.concat_eq_append, ← List.cons_append, ← List.append_assoc] at he
      obtain ⟨rfl, hlast⟩ := List.append_inj' he rfl
      obtain rfl := List.singleton_inj.1 hlast
      rw [List.concat_eq_append, List.mem_append, List.mem_singleton] at hy
      rcases hy with hy | rfl
      · exact .inl ⟨pre, post', rfl, hy⟩
      · exact .inr ⟨rfl, List.mem_append_right _ List.mem_cons_self⟩
  · rintro (⟨pre, post, rfl, hy⟩ | ⟨rfl, hx⟩)
    · refine ⟨pre, post ++ [e], ?_, List.mem_append_left _ hy⟩
      rw [List.append_assoc, List.cons_append]
    · obtain ⟨pre, post, rfl⟩ := List.append_of_mem hx
      refine ⟨pre, post ++ [e], ?_, List.mem_append_right _ (List.mem_singleton_self e)⟩
      rw [List.append_assoc, List.cons_append]

theorem late_append {e : PollEvent ι} :
    Late i (log ++ [e]) ↔ Late i log ∨ e = .checked i ∧ ∃ k, .returned k ∈ log := by
  unfold Late
  simp only [before_append, exists_or, exists_and_left]

/-- Events of other polls do not make a poll late. -/
theorem late_append_of {more : List (PollEvent ι)} (h : ∀ e ∈ more, e.poll ≠ some i) :
    Late i (log ++ more) ↔ Late i log := by
  induction more using List.reverseRecOn with
  | nil => rw [List.append_nil]
  | append_singleton more e ih =>
    have he : e ≠ .checked i := by
      rintro rfl
      exact h _ (List.mem_append_right _ (List.mem_singleton_self _)) rfl
    rw [← List.append_assoc, late_append, ih fun x hx => h x (List.mem_append_left _ hx)]
    exact or_iff_left fun hcheck => he hcheck.1

/-- Neither an admission, nor an end, nor a report, nor a checkout. -/
def PollEvent.isNeutral : PollEvent ι → Bool
  | created _ _ _ | checked _ | signalled _ | returned _ => true
  | checkedOut _ _ | admitted _ _ | ended _ _ | reported _ _ _ => false

theorem active_append {e : PollEvent ι} (hadmitted : ∀ i r, e ≠ .admitted i r) (hended : ∀ i r, e ≠ .ended i r) :
    Active (log ++ [e]) i r ↔ Active log i r := by
  have hi : PollEvent.admitted i r ≠ e := (hadmitted i r).symm
  have he : PollEvent.ended i r ≠ e := (hended i r).symm
  simp only [Active, List.mem_append, List.mem_singleton, hi, he, or_false]

theorem active_admitted (hopen : .ended i r ∉ log) {r' : ℕ} :
    Active (log ++ [.admitted i r]) j r' ↔ Active log j r' ∨ j = i ∧ r' = r := by
  simp only [Active, List.mem_append, List.mem_singleton, PollEvent.admitted.injEq, reduceCtorEq, or_false]
  constructor
  · rintro ⟨hadmitted | ⟨rfl, rfl⟩, hended⟩
    · exact .inl ⟨hadmitted, hended⟩
    · exact .inr ⟨rfl, rfl⟩
  · rintro (⟨hadmitted, hended⟩ | ⟨rfl, rfl⟩)
    · exact ⟨.inl hadmitted, hended⟩
    · exact ⟨.inr ⟨rfl, rfl⟩, hopen⟩

theorem active_ended {r' : ℕ} :
    Active (log ++ [.ended i r]) j r' ↔ Active log j r' ∧ ¬ (j = i ∧ r' = r) := by
  simp only [Active, List.mem_append, List.mem_singleton, PollEvent.ended.injEq, reduceCtorEq, or_false, not_or]
  exact and_assoc.symm

theorem admitted_append {e : PollEvent ι} (he : ∀ i r, e ≠ .admitted i r) :
    .admitted i r ∈ log ++ [e] ↔ .admitted i r ∈ log := by
  rw [List.mem_append, List.mem_singleton]
  exact or_iff_left fun h => he i r h.symm

theorem admittedRuns_append {e : PollEvent ι} (he : ∀ i r, e ≠ .admitted i r) :
    admittedRuns (log ++ [e]) = admittedRuns log := by
  cases e <;> simp_all [admittedRuns]

theorem mem_admittedRuns : r ∈ admittedRuns log ↔ ∃ i, .admitted i r ∈ log := by
  unfold admittedRuns
  rw [List.mem_filterMap]
  constructor
  · rintro ⟨e, he, hr⟩
    cases e <;> simp_all
    exact ⟨_, he⟩
  · rintro ⟨i, hi⟩
    exact ⟨_, hi, rfl⟩

section reports

variable [DecidableEq ι]

theorem reports_append {e : PollEvent ι} (he : ∀ r c, e ≠ .reported i r c) :
    reports i (log ++ [e]) = reports i log := by
  cases e with
  | reported j r c =>
    have hj : j ≠ i := by rintro rfl; exact he r c rfl
    simp [reports, hj]
  | _ => simp [reports]

theorem reports_append_self {c : ExecutionCompletion} :
    reports i (log ++ [.reported i r c]) = reports i log ++ [(r, c)] := by simp [reports]

theorem mem_reports {c : ExecutionCompletion} : (r, c) ∈ reports i log ↔ .reported i r c ∈ log := by
  unfold reports
  rw [List.mem_filterMap]
  constructor
  · rintro ⟨e, he, hr⟩
    cases e <;> simp_all
  · intro he
    exact ⟨_, he, by simp⟩

theorem reports_eq_nil (h : ∀ r c, .reported i r c ∉ log) : reports i log = [] := by
  rw [List.eq_nil_iff_forall_not_mem]
  rintro ⟨r, c⟩ hc
  exact h r c (mem_reports.1 hc)

end reports

/-! ## The invariant -/

/-- What the log says by itself. -/
structure LogOK [DecidableEq ι] (log : List (PollEvent ι)) : Prop where
  one : ∀ i j r r', Active log i r → Active log j r' → i = j ∧ r = r'
  nodup : (admittedRuns log).Nodup
  checkouts : ∀ i r r', .checkedOut i r ∈ log → .checkedOut i r' ∈ log → r = r'
  admitted : ∀ i r, .admitted i r ∈ log → .checkedOut i r ∈ log
  effects : ∀ i r effect, .created i r effect ∈ log → .admitted i r ∈ log
  reports : ∀ i, (reports i log).length ≤ 1
  rejected : ∀ i r c, .reported i r c ∈ log → (∀ r', .admitted i r' ∉ log) →
    .checkedOut i r ∈ log ∧ ∃ reason, c = admissionRejection reason
  returned : ∀ k, .returned k ∈ log → .signalled k ∈ log
  late : ∀ i r c, .reported i r c ∈ log → Late i log → c.status ≠ .succeeded

/-- The variables of the worker agree with the log. -/
structure WorkerOK [DecidableEq ι] (w : LocalWorker ι) : Prop extends LogOK w.log where
  active : ∀ r, w.activeRunId = some r ↔ ∃ i, Active w.log i r
  executed : ∀ r, r ∈ w.executedRunIds ↔ ∃ i, .admitted i r ∈ w.log
  token : ∀ i, w.activeToken = some i → ∃ r, Active w.log i r
  signalled : ∀ k, .signalled k ∈ w.log → w.shutdown = true

theorem LogOK.nil [DecidableEq ι] : LogOK ([] : List (PollEvent ι)) := by
  constructor <;> simp [Active, admittedRuns, Switchboard.reports]

theorem WorkerOK.init [DecidableEq ι] : WorkerOK ({} : LocalWorker ι) :=
  { LogOK.nil with
    active := by simp [Active], executed := by simp, token := by simp, signalled := by simp }

/-- An event that neither begins nor ends anything. -/
theorem LogOK.append_neutral [DecidableEq ι] (h : LogOK log) {e : PollEvent ι} (he : e.isNeutral = true)
    (hcreated : ∀ i r effect, e = .created i r effect → .admitted i r ∈ log)
    (hreturned : ∀ k, e = .returned k → .signalled k ∈ log)
    (hchecked : ∀ i, e = .checked i → ∀ r c, .reported i r c ∉ log) : LogOK (log ++ [e]) where
  one := by
    have hadmitted : ∀ i r, e ≠ .admitted i r := by rintro i r rfl; cases he
    have hended : ∀ i r, e ≠ .ended i r := by rintro i r rfl; cases he
    simpa only [active_append hadmitted hended] using h.one
  nodup := by
    rw [admittedRuns_append (by rintro i r rfl; cases he)]
    exact h.nodup
  checkouts i r r' hr hr' := by
    cases e <;> simp_all [PollEvent.isNeutral] <;> exact h.checkouts i r r' hr hr'
  admitted i r hr := by
    cases e <;> simp_all [PollEvent.isNeutral] <;> exact h.admitted i r hr
  effects i r effect hc := by
    rw [List.mem_append, List.mem_singleton] at hc
    rcases hc with hc | rfl
    · exact List.mem_append_left _ (h.effects i r effect hc)
    · exact List.mem_append_left _ (hcreated i r effect rfl)
  reports i := by
    rw [reports_append (by rintro r c rfl; cases he)]
    exact h.reports i
  rejected i r c hc hno := by
    have hc' : .reported i r c ∈ log := by cases e <;> simp_all [PollEvent.isNeutral]
    obtain ⟨hout, hreason⟩ := h.rejected i r c hc' fun r' hr' => hno r' (List.mem_append_left _ hr')
    exact ⟨List.mem_append_left _ hout, hreason⟩
  returned k hk := by
    rw [List.mem_append, List.mem_singleton] at hk
    rcases hk with hk | rfl
    · exact List.mem_append_left _ (h.returned k hk)
    · exact List.mem_append_left _ (hreturned k rfl)
  late i r c hc hlate := by
    have hc' : .reported i r c ∈ log := by cases e <;> simp_all [PollEvent.isNeutral]
    rcases late_append.1 hlate with hlate | ⟨rfl, -⟩
    · exact h.late i r c hc' hlate
    · exact absurd hc' (hchecked i rfl r c)

/-! ## What a poll relies on -/

/-- The token of poll `i` is registered, and cancelled once a shutdown was signalled. -/
structure Watched (i : ι) (w : LocalWorker ι) : Prop where
  registered : w.activeToken = some i
  exists_token : (w.tokens i).isSome = true
  cancelled : ∀ k, .signalled k ∈ w.log → (w.reason i).isSome = true

/-- What the others may do to poll `i`. -/
structure Relies (i : ι) (w w' : LocalWorker ι) : Prop where
  log : ∃ more, w'.log = w.log ++ more ∧ ∀ e ∈ more, e.poll ≠ some i
  shutdown : w.shutdown = true → w'.shutdown = true
  exists_token : (w.tokens i).isSome = true → (w'.tokens i).isSome = true
  reason : (w.reason i).isSome = true → (w'.reason i).isSome = true
  registered : w'.activeToken = some i ↔ w.activeToken = some i
  watched : Watched i w → Watched i w'

theorem same_log (i : ι) (log : List (PollEvent ι)) :
    ∃ more, log = log ++ more ∧ ∀ e ∈ more, PollEvent.poll e ≠ some i :=
  ⟨[], (List.append_nil log).symm, List.forall_mem_nil _⟩

theorem Relies.refl (i : ι) (w : LocalWorker ι) : Relies i w w := ⟨same_log i w.log, id, id, id, Iff.rfl, id⟩

theorem Relies.trans {w'' : LocalWorker ι} (h : Relies i w w') (h' : Relies i w' w'') : Relies i w w'' := by
  obtain ⟨more, hmore, hforeign⟩ := h.log
  obtain ⟨more', hmore', hforeign'⟩ := h'.log
  refine ⟨⟨more ++ more', ?_, ?_⟩, h'.shutdown ∘ h.shutdown, h'.exists_token ∘ h.exists_token,
    h'.reason ∘ h.reason, h'.registered.trans h.registered, h'.watched ∘ h.watched⟩
  · rw [hmore', hmore, List.append_assoc]
  · intro e he
    rcases List.mem_append.1 he with he | he
    · exact hforeign e he
    · exact hforeign' e he

theorem Relies.mem (h : Relies i w w') {e : PollEvent ι} (he : e ∈ w.log) : e ∈ w'.log := by
  obtain ⟨more, hmore, -⟩ := h.log
  rw [hmore]
  exact List.mem_append_left _ he

/-- The events of a poll are its own. -/
theorem Relies.mem_iff (h : Relies i w w') {e : PollEvent ι} (hpoll : e.poll = some i) : e ∈ w'.log ↔ e ∈ w.log := by
  obtain ⟨more, hmore, hforeign⟩ := h.log
  rw [hmore, List.mem_append]
  exact or_iff_left fun he => hforeign e he hpoll

theorem Relies.late_iff (h : Relies i w w') : Late i w'.log ↔ Late i w.log := by
  obtain ⟨more, hmore, hforeign⟩ := h.log
  rw [hmore]
  exact late_append_of hforeign

/-! ## Steps -/

/-- An event of another poll. -/
theorem relies_record {e : PollEvent ι} (hpoll : e.poll ≠ some j) (hsignal : ∀ k, e ≠ .signalled k) :
    Relies j w (w.record e) := by
  refine ⟨⟨[e], rfl, ?_⟩, id, id, id, Iff.rfl, fun h => ⟨h.registered, h.exists_token, fun k hk => ?_⟩⟩
  · intro x hx
    rw [List.mem_singleton.1 hx]
    exact hpoll
  · rcases List.mem_append.1 hk with hk | hk
    · exact h.cancelled k hk
    · exact absurd (List.mem_singleton.1 hk).symm (hsignal k)

/-- An event of poll `i` is none of the others'. -/
theorem relies_own {e : PollEvent ι} (hpoll : e.poll = some i) (hj : j ≠ i) : Relies j w (w.record e) := by
  refine relies_record (fun he => hj (Option.some.inj (he.symm.trans hpoll))) ?_
  rintro k rfl
  cases hpoll

/-- What a poll relies on does not mention the active run or the executed runs. -/
theorem Relies.congr {w'' : LocalWorker ι} (h : Relies j w w') (hlog : w''.log = w'.log)
    (hshutdown : w''.shutdown = w'.shutdown) (htokens : w''.tokens = w'.tokens)
    (hactive : w''.activeToken = w'.activeToken) : Relies j w w'' := by
  obtain ⟨shutdown, activeRunId, executedRunIds, activeToken, tokens, log⟩ := w''
  subst hlog hshutdown htokens hactive
  exact ⟨h.log, h.shutdown, h.exists_token, h.reason, h.registered, fun hw =>
    ⟨(h.watched hw).registered, (h.watched hw).exists_token, (h.watched hw).cancelled⟩⟩

theorem relies_endRun (hj : j ≠ i) : Relies j w (w.endRun i r) := by
  have hrecord : Relies j w (w.record (.ended i r)) := relies_own rfl hj
  exact hrecord.congr rfl rfl rfl rfl

section steps

variable [DecidableEq ι]

theorem reason_cancel (j : ι) (text : String) (h : (w.tokens i).isSome = true ∨ i ≠ j) :
    ((w.cancel j text).reason i).isSome = ((w.reason i).isSome || decide (i = j)) := by
  unfold LocalWorker.cancel LocalWorker.reason
  by_cases hij : i = j
  · subst hij
    obtain ⟨token, htoken⟩ := Option.isSome_iff_exists.1 (h.resolve_right fun hne => hne rfl)
    cases htext : token.reason <;> simp [htoken, CancellationToken.cancel, htext]
  · simp [hij]

theorem exists_token_cancel (i j : ι) (text : String) :
    ((w.cancel j text).tokens i).isSome = (w.tokens i).isSome := by
  unfold LocalWorker.cancel
  by_cases hij : i = j
  · subst hij; simp
  · simp [Function.update_of_ne hij]

/-- A cancelled token stays cancelled, whoever cancels which one. -/
theorem reason_cancel_mono (i j : ι) (text : String) (h : (w.reason i).isSome = true) :
    ((w.cancel j text).reason i).isSome = true := by
  have htoken : (w.tokens i).isSome = true := by
    unfold LocalWorker.reason at h
    cases ht : w.tokens i with
    | none => rw [ht] at h; cases h
    | some token => rfl
  rw [reason_cancel j text (.inl htoken), h, Bool.true_or]

theorem relies_cancel (i j : ι) (text : String) (w : LocalWorker ι) : Relies i w (w.cancel j text) := by
  refine ⟨same_log i w.log, id, ?_, reason_cancel_mono i j text, Iff.rfl, fun h =>
    ⟨h.registered, ?_, fun k hk => reason_cancel_mono i j text (h.cancelled k hk)⟩⟩
  · rw [exists_token_cancel]; exact id
  · rw [exists_token_cancel]; exact h.exists_token

omit [DecidableEq ι] in
theorem relies_setShutdown (i : ι) (w : LocalWorker ι) : Relies i w w.setShutdown :=
  ⟨same_log i w.log, fun _ => rfl, id, id, Iff.rfl, fun h => ⟨h.registered, h.exists_token, h.cancelled⟩⟩

/-- A signal cancels the registered token. -/
theorem relies_signal (i k : ι) (w : LocalWorker ι) : Relies i w (w.signal k) := by
  have hsignal : ∀ w₀ : LocalWorker ι, w₀.activeToken = w.activeToken → Relies i w w₀ →
      (w.activeToken = some i → (w.tokens i).isSome = true → (w₀.reason i).isSome = true) →
      Relies i w (w₀.record (.signalled k)) := by
    intro w₀ hactive hr hcancel
    obtain ⟨more, hmore, hforeign⟩ := hr.log
    refine ⟨⟨more ++ [.signalled k], ?_, ?_⟩, hr.shutdown, hr.exists_token, hr.reason, hr.registered, fun h => ?_⟩
    · show w₀.log ++ [.signalled k] = _
      rw [hmore, List.append_assoc]
    · intro e he
      rcases List.mem_append.1 he with he | he
      · exact hforeign e he
      · rw [List.mem_singleton.1 he]; nofun
    · exact ⟨(hr.watched h).registered, (hr.watched h).exists_token, fun _ _ => hcancel h.registered h.exists_token⟩
  unfold LocalWorker.signal
  cases hactive : w.activeToken with
  | none => exact hsignal w rfl (.refl i w) fun h => by rw [hactive] at h; cases h
  | some j =>
    refine hsignal (w.cancel j "worker_shutdown") rfl (relies_cancel i j _ w) fun h htoken => ?_
    rw [hactive, Option.some.injEq] at h
    subst h
    rw [reason_cancel j _ (.inl htoken)]
    simp

/-- An event that neither begins nor ends a run. -/
theorem WorkerOK.record (h : WorkerOK w) {e : PollEvent ι} (hlog : LogOK (w.log ++ [e]))
    (hadmitted : ∀ i r, e ≠ .admitted i r) (hended : ∀ i r, e ≠ .ended i r)
    (hsignalled : ∀ k, e = .signalled k → w.shutdown = true) : WorkerOK (w.record e) :=
  { hlog with
    active := fun r => (h.active r).trans (exists_congr fun i => (active_append hadmitted hended).symm)
    executed := fun r => (h.executed r).trans (exists_congr fun i => (admitted_append hadmitted).symm)
    token := fun i hi => by
      obtain ⟨r, hr⟩ := h.token i hi
      exact ⟨r, (active_append hadmitted hended).2 hr⟩
    signalled := fun k hk => by
      rcases List.mem_append.1 hk with hk | hk
      · exact h.signalled k hk
      · exact hsignalled k (List.mem_singleton.1 hk).symm }

theorem WorkerOK.record_created (h : WorkerOK w) {effect : LocalEffect} (hadmitted : .admitted i r ∈ w.log) :
    WorkerOK (w.record (.created i r effect)) := by
  refine h.record (h.toLogOK.append_neutral rfl ?_ nofun nofun) nofun nofun nofun
  rintro _ _ _ ⟨⟩
  exact hadmitted

theorem WorkerOK.record_checked (h : WorkerOK w) (hunreported : ∀ r c, .reported i r c ∉ w.log) :
    WorkerOK (w.record (.checked i)) := by
  refine h.record (h.toLogOK.append_neutral rfl nofun nofun ?_) nofun nofun nofun
  rintro _ ⟨⟩
  exact hunreported

theorem WorkerOK.record_returned (h : WorkerOK w) (hsignalled : .signalled k ∈ w.log) :
    WorkerOK (w.record (.returned k)) := by
  refine h.record (h.toLogOK.append_neutral rfl nofun ?_ nofun) nofun nofun nofun
  rintro _ ⟨⟩
  exact hsignalled

theorem WorkerOK.cancel (h : WorkerOK w) (i : ι) (text : String) : WorkerOK (w.cancel i text) :=
  { h.toLogOK with active := h.active, executed := h.executed, token := h.token, signalled := h.signalled }

theorem WorkerOK.setShutdown (h : WorkerOK w) : WorkerOK w.setShutdown :=
  { h.toLogOK with active := h.active, executed := h.executed, token := h.token, signalled := fun _ _ => rfl }

theorem WorkerOK.signal (h : WorkerOK w) (k : ι) (hdown : w.shutdown = true) : WorkerOK (w.signal k) := by
  unfold LocalWorker.signal
  cases w.activeToken with
  | none => exact h.record (h.toLogOK.append_neutral rfl nofun nofun nofun) nofun nofun fun _ _ => hdown
  | some j =>
    have hlog := (h.cancel j "worker_shutdown").toLogOK.append_neutral (e := .signalled k) rfl nofun nofun nofun
    exact (h.cancel j _).record hlog nofun nofun fun _ _ => hdown

theorem WorkerOK.register (h : WorkerOK w) (hactive : Active w.log i r) : WorkerOK (w.register i) :=
  { h.toLogOK with
    active := h.active, executed := h.executed, signalled := h.signalled
    token := fun j hj => by
      obtain rfl : i = j := Option.some.inj hj
      exact ⟨r, hactive⟩ }

theorem WorkerOK.unregister (h : WorkerOK w) : WorkerOK w.unregister :=
  { h.toLogOK with active := h.active, executed := h.executed, token := nofun, signalled := h.signalled }

/-- Only the active poll has its token registered. -/
theorem WorkerOK.not_registered (h : WorkerOK w) (hactive : Active w.log i r) (hj : j ≠ i) :
    w.activeToken ≠ some j := by
  intro htoken
  obtain ⟨r', hr'⟩ := h.token j htoken
  exact hj (h.one j i r' r hr' hactive).1

theorem relies_register (h : WorkerOK w) (hactive : Active w.log i r) (hj : j ≠ i) : Relies j w (w.register i) := by
  have hother := h.not_registered hactive hj
  have htokens : (w.register i).tokens j = w.tokens j := Function.update_of_ne hj _ _
  refine ⟨same_log j w.log, id, ?_, ?_, ?_, fun hw => absurd hw.registered hother⟩
  · rw [htokens]; exact id
  · unfold LocalWorker.reason
    rw [htokens]; exact id
  · show some i = some j ↔ _
    exact iff_of_false (fun he => hj (Option.some.inj he).symm) hother

theorem relies_unregister (h : WorkerOK w) (hactive : Active w.log i r) (hj : j ≠ i) : Relies j w w.unregister := by
  have hother := h.not_registered hactive hj
  refine ⟨same_log j w.log, id, id, id, ?_, fun hw => absurd hw.registered hother⟩
  show none = some j ↔ _
  exact iff_of_false nofun hother

/-! ### Checkouts, admissions, ends and reports -/

theorem LogOK.checkedOut (h : LogOK log) (hfirst : ∀ r', .checkedOut i r' ∉ log) : LogOK (log ++ [.checkedOut i r]) where
  one := by simpa [Active] using h.one
  nodup := by simpa [admittedRuns] using h.nodup
  checkouts j r₁ r₂ h₁ h₂ := by
    simp only [List.mem_append, List.mem_singleton, PollEvent.checkedOut.injEq] at h₁ h₂
    rcases h₁ with h₁ | ⟨rfl, rfl⟩ <;> rcases h₂ with h₂ | ⟨hj, rfl⟩
    · exact h.checkouts j r₁ r₂ h₁ h₂
    · exact absurd (hj ▸ h₁) (hfirst r₁)
    · exact absurd h₂ (hfirst r₂)
    · rfl
  admitted j r' hr' := by
    rw [admitted_append (by simp)] at hr'
    exact List.mem_append_left _ (h.admitted j r' hr')
  effects := by simpa using h.effects
  reports := by simpa [Switchboard.reports] using h.reports
  rejected j r' c hc hno := by
    obtain ⟨hout, hreason⟩ := h.rejected j r' c (by simpa using hc) (by simpa using hno)
    exact ⟨List.mem_append_left _ hout, hreason⟩
  returned := by simpa using h.returned
  late := by simpa [late_append] using h.late

theorem LogOK.admit (h : LogOK log) (hidle : ∀ j r', ¬ Active log j r') (hnew : ∀ j, .admitted j r ∉ log)
    (hout : .checkedOut i r ∈ log) (hopen : .ended i r ∉ log) : LogOK (log ++ [.admitted i r]) where
  one j j' r₁ r₂ h₁ h₂ := by
    obtain ⟨rfl, rfl⟩ := ((active_admitted hopen).1 h₁).resolve_left (hidle j r₁)
    obtain ⟨rfl, rfl⟩ := ((active_admitted hopen).1 h₂).resolve_left (hidle j' r₂)
    exact ⟨rfl, rfl⟩
  nodup := by
    have hruns : admittedRuns (log ++ [.admitted i r]) = admittedRuns log ++ [r] := by simp [admittedRuns]
    rw [hruns, List.nodup_append]
    refine ⟨h.nodup, List.nodup_singleton r, ?_⟩
    rintro a ha b hb rfl
    rw [List.mem_singleton] at hb
    subst hb
    obtain ⟨j, hj⟩ := mem_admittedRuns.1 ha
    exact hnew j hj
  checkouts := by simpa using h.checkouts
  admitted j r' hr' := by
    simp only [List.mem_append, List.mem_singleton, PollEvent.admitted.injEq] at hr'
    rcases hr' with hr' | ⟨rfl, rfl⟩
    · exact List.mem_append_left _ (h.admitted j r' hr')
    · exact List.mem_append_left _ hout
  effects j r' effect hc := List.mem_append_left _ (h.effects j r' effect (by simpa using hc))
  reports := by simpa [Switchboard.reports] using h.reports
  rejected j r' c hc hno := by
    obtain ⟨hcheckout, hreason⟩ := h.rejected j r' c (by simpa using hc) fun r₁ h₁ =>
      hno r₁ (List.mem_append_left _ h₁)
    exact ⟨List.mem_append_left _ hcheckout, hreason⟩
  returned := by simpa using h.returned
  late := by simpa [late_append] using h.late

theorem LogOK.ended (h : LogOK log) : LogOK (log ++ [.ended i r]) where
  one j j' r₁ r₂ h₁ h₂ := h.one j j' r₁ r₂ (active_ended.1 h₁).1 (active_ended.1 h₂).1
  nodup := by simpa [admittedRuns] using h.nodup
  checkouts := by simpa using h.checkouts
  admitted := by simpa using h.admitted
  effects := by simpa using h.effects
  reports := by simpa [Switchboard.reports] using h.reports
  rejected := by simpa using h.rejected
  returned := by simpa using h.returned
  late := by simpa [late_append] using h.late

theorem LogOK.reported (h : LogOK log) {c : ExecutionCompletion} (hfirst : ∀ r' c', .reported i r' c' ∉ log)
    (hwhy : (∀ r', .admitted i r' ∉ log) → .checkedOut i r ∈ log ∧ ∃ reason, c = admissionRejection reason)
    (hlate : Late i log → c.status ≠ .succeeded) : LogOK (log ++ [.reported i r c]) where
  one := by simpa [Active] using h.one
  nodup := by simpa [admittedRuns] using h.nodup
  checkouts := by simpa using h.checkouts
  admitted := by simpa using h.admitted
  effects := by simpa using h.effects
  reports j := by
    by_cases hj : j = i
    · subst hj
      rw [reports_append_self, reports_eq_nil hfirst]
      exact le_rfl
    · rw [reports_append (by rintro r' c' he; exact hj (PollEvent.reported.inj he).1.symm)]
      exact h.reports j
  rejected j r' c' hc hno := by
    have hno' : ∀ r₁, .admitted j r₁ ∉ log := by simpa using hno
    simp only [List.mem_append, List.mem_singleton, PollEvent.reported.injEq] at hc
    rcases hc with hc | ⟨rfl, rfl, rfl⟩
    · obtain ⟨hout, hreason⟩ := h.rejected j r' c' hc hno'
      exact ⟨List.mem_append_left _ hout, hreason⟩
    · obtain ⟨hout, hreason⟩ := hwhy hno'
      exact ⟨List.mem_append_left _ hout, hreason⟩
  returned := by simpa using h.returned
  late j r' c' hc hl := by
    have hl' : Late j log := by simpa [late_append] using hl
    simp only [List.mem_append, List.mem_singleton, PollEvent.reported.injEq] at hc
    rcases hc with hc | ⟨rfl, rfl, rfl⟩
    · exact h.late j r' c' hc hl'
    · exact hlate hl'

theorem WorkerOK.beginRun (h : WorkerOK w) (hout : .checkedOut i r ∈ w.log) (hopen : .ended i r ∉ w.log) :
    WorkerOK (w.beginRun i r).2 := by
  unfold LocalWorker.beginRun
  split
  · exact h
  · split
    · exact h
    · split
      · exact h
      · rename_i hidle hnew
        have hnone : ∀ j r', ¬ Active w.log j r' := by
          intro j r' hj
          rw [(h.active r').2 ⟨j, hj⟩] at hidle
          exact hidle rfl
        have hnever : ∀ j, .admitted j r ∉ w.log := fun j hj => hnew ((h.executed r).2 ⟨j, hj⟩)
        refine { h.toLogOK.admit hnone hnever hout hopen with active := ?_, executed := ?_, token := ?_, signalled := ?_ }
        · intro r'
          simp only [Option.some.injEq, active_admitted hopen]
          constructor
          · rintro rfl
            exact ⟨i, .inr ⟨rfl, rfl⟩⟩
          · rintro ⟨j, hj⟩
            exact (hj.resolve_left (hnone j r')).2.symm
        · intro r'
          rw [List.mem_cons, h.executed r']
          simp only [List.mem_append, List.mem_singleton, PollEvent.admitted.injEq]
          constructor
          · rintro (rfl | ⟨j, hj⟩)
            · exact ⟨i, .inr ⟨rfl, rfl⟩⟩
            · exact ⟨j, .inl hj⟩
          · rintro ⟨j, hj | ⟨-, rfl⟩⟩
            · exact .inr ⟨j, hj⟩
            · exact .inl rfl
        · intro j hj
          obtain ⟨r', hr'⟩ := h.token j hj
          exact absurd hr' (hnone j r')
        · intro k hk
          exact h.signalled k (by simpa using hk)

omit [DecidableEq ι] in
/-- A run is rejected, with no effect, or admitted. -/
theorem beginRun_cases (i : ι) (r : ℕ) (w : LocalWorker ι) :
    (∃ reason, w.beginRun i r = (some reason, w)) ∨
      (w.beginRun i r).1 = none ∧ (w.beginRun i r).2.log = w.log ++ [.admitted i r] ∧
        ∀ j, j ≠ i → Relies j w (w.beginRun i r).2 := by
  unfold LocalWorker.beginRun
  split
  · exact .inl ⟨_, rfl⟩
  · split
    · exact .inl ⟨_, rfl⟩
    · split
      · exact .inl ⟨_, rfl⟩
      · refine .inr ⟨rfl, rfl, fun j hj => ?_⟩
        have hrecord : Relies j w (w.record (.admitted i r)) := relies_own rfl hj
        exact hrecord.congr rfl rfl rfl rfl

theorem WorkerOK.endRun (h : WorkerOK w) (hactive : Active w.log i r) (htoken : w.activeToken ≠ some i) :
    WorkerOK (w.endRun i r) := by
  have hcurrent : w.activeRunId = some r := (h.active r).2 ⟨i, hactive⟩
  have hnone : ∀ j r', ¬ Active (w.log ++ [.ended i r]) j r' := by
    intro j r' hj
    obtain ⟨hj, hother⟩ := active_ended.1 hj
    exact hother (h.one j i r' r hj hactive)
  refine { h.toLogOK.ended with active := ?_, executed := ?_, token := ?_, signalled := ?_ }
  · intro r'
    show (if w.activeRunId = some r then none else w.activeRunId) = some r' ↔ _
    rw [if_pos hcurrent]
    exact iff_of_false nofun fun ⟨j, hj⟩ => hnone j r' hj
  · intro r'
    exact (h.executed r').trans (exists_congr fun j => (admitted_append nofun).symm)
  · intro j hj
    -- the token of the active run was taken away before
    obtain ⟨r', hr'⟩ := h.token j hj
    obtain ⟨rfl, -⟩ := h.one j i r' r hr' hactive
    exact absurd hj htoken
  · intro k hk
    exact h.signalled k (by simpa [LocalWorker.endRun] using hk)

end steps

end Switchboard
