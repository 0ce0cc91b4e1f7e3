import Mathlib.Algebra.Order.Group.Defs
import Mathlib.Algebra.Order.Sub.Basic
import Mathlib.Data.List.Induction
import Mathlib.Data.List.Basic
import Mathlib.Data.List.TakeWhile
import Mathlib.Tactic.Abel

/-!
# Sliding windows

A log that admits at most `limit` requests in any interval of length `window`. Entries leave the log only from its
front and only when the next request comes; the requests come in the order of their times.

* `dropWhile_eq_filter`: in a sorted log the entries before an instant are the ones at its front.
* `History.kept_eq`: what is left of the log at a request are the requests admitted in the window that ends there.
* `history_interval`: no interval of the window's length holds more admitted requests than the limit.
* `history_rejects_iff`: a request is rejected if and only if the window that ends with it is full.
-/

namespace SlidingWindow

variable {τ : Type*} [LinearOrder τ]

/-- In a sorted log the entries before an instant are the ones at its front. -/
theorem dropWhile_eq_filter {log : List τ} (hsorted : log.Pairwise (· ≤ ·)) (start : τ) :
    log.dropWhile (fun t => decide (t < start)) = log.filter fun t => decide (start ≤ t) := by
  induction log with
  | nil => rfl
  | cons t log ih =>
    obtain ⟨hfirst, hrest⟩ := List.pairwise_cons.1 hsorted
    by_cases ht : t < start
    · rw [List.dropWhile_cons_of_pos (by simpa using ht), List.filter_cons_of_neg (by simpa using ht), ih hrest]
    · rw [List.dropWhile_cons_of_neg (by simpa using ht)]
      symm
      rw [List.filter_eq_self]
      intro a ha
      rcases List.mem_cons.1 ha with rfl | ha
      · simpa using ht
      · exact decide_eq_true ((not_lt.1 ht).trans (hfirst a ha))

variable [AddCommGroup τ]

/-- The entries that a request finds in the log. -/
def kept (window : τ) (log : List τ) (now : τ) : List τ := log.dropWhile fun t => decide (t < now - window)

def admits (window : τ) (limit : ℕ) (log : List τ) (now : τ) : Bool := decide ((kept window log now).length < limit)

/-- The log after a request. -/
def record (window : τ) (limit : ℕ) (log : List τ) (now : τ) : List τ :=
  if admits window limit log now then kept window log now ++ [now] else kept window log now

/-- The log after a sequence of requests. -/
def logAfter (window : τ) (limit : ℕ) (times : List τ) : List τ := times.foldl (record window limit) []

/-- The requests of a sequence that are admitted, after those in the log. -/
def admittedFrom (window : τ) (limit : ℕ) (log : List τ) : List τ → List τ
  | [] => []
  | now :: times =>
    (if admits window limit log now then [now] else []) ++
      admittedFrom window limit (record window limit log now) times

/-- The requests of a sequence that are admitted. -/
def admitted (window : τ) (limit : ℕ) (times : List τ) : List τ := admittedFrom window limit [] times

variable {window : τ} {limit : ℕ} {times log : List τ} {now start : τ}

theorem logAfter_append (times : List τ) (now : τ) :
    logAfter window limit (times ++ [now]) = record window limit (logAfter window limit times) now := by
  unfold logAfter
  rw [List.foldl_append]
  rfl

theorem admittedFrom_append (log times : List τ) (now : τ) :
    admittedFrom window limit log (times ++ [now]) =
      admittedFrom window limit log times ++
        if admits window limit (times.foldl (record window limit) log) now then [now] else [] := by
  induction times generalizing log with
  | nil => exact List.append_nil _
  | cons t times ih =>
    rw [List.cons_append, admittedFrom, admittedFrom, ih, List.append_assoc]
    rfl

theorem admitted_append (times : List τ) (now : τ) :
    admitted window limit (times ++ [now]) =
      admitted window limit times ++ if admits window limit (logAfter window limit times) now then [now] else [] :=
  admittedFrom_append [] times now

/-- How the log stands to the requests admitted so far, none of which is later than `last`. -/
structure History (window : τ) (log admitted : List τ) (last : τ) : Prop where
  sorted : admitted.Pairwise (· ≤ ·)
  past : ∀ t ∈ admitted, t ≤ last
  dropped : ∃ old, admitted = old ++ log ∧ ∀ t ∈ old, t < last - window

variable [IsOrderedAddMonoid τ] {past : List τ} {last : τ}

/-- **A request finds exactly what was admitted in the window that ends with it.** -/
theorem History.kept_eq (h : History window log past last) (hnow : last ≤ now) :
    kept window log now = past.filter fun t => decide (now - window ≤ t) := by
  obtain ⟨old, rfl, hold⟩ := h.dropped
  have hsorted : log.Pairwise (· ≤ ·) := (List.pairwise_append.1 h.sorted).2.1
  have hnone : old.filter (fun t => decide (now - window ≤ t)) = [] := by
    rw [List.filter_eq_nil_iff]
    intro t ht
    have hbefore : t < now - window := (hold t ht).trans_le (sub_le_sub_right hnow window)
    exact decide_eq_true_iff.not.2 hbefore.not_ge
  rw [List.filter_append, hnone, List.nil_append]
  exact dropWhile_eq_filter hsorted _

/-- **One request keeps the relation of the log to the admitted requests.** -/
theorem History.record (h : History window log past last) (hnow : last ≤ now) :
    History window (record window limit log now)
      (past ++ if admits window limit log now then [now] else []) now := by
  have hkept : History window (kept window log now) past now := by
    refine ⟨h.sorted, fun t ht => (h.past t ht).trans hnow, ?_⟩
    obtain ⟨old, hpast, hold⟩ := h.dropped
    refine ⟨old ++ log.takeWhile fun t => decide (t < now - window), ?_, ?_⟩
    · rw [hpast, List.append_assoc]
      exact congrArg (old ++ ·) List.takeWhile_append_dropWhile.symm
    · intro t ht
      rcases List.mem_append.1 ht with ht | ht
      · exact (hold t ht).trans_le (sub_le_sub_right hnow window)
      · have hbefore := List.mem_takeWhile_imp ht
        exact of_decide_eq_true hbefore
  unfold SlidingWindow.record
  split
  · obtain ⟨old, hpast, hold⟩ := hkept.dropped
    refine ⟨?_, ?_, old, ?_, hold⟩
    · rw [List.pairwise_append]
      refine ⟨hkept.sorted, List.pairwise_singleton _ _, fun t ht a ha => ?_⟩
      rw [List.mem_singleton.1 ha]
      exact hkept.past t ht
    · intro t ht
      rcases List.mem_append.1 ht with ht | ht
      · exact hkept.past t ht
      · exact (List.mem_singleton.1 ht).le
    · rw [← List.append_assoc, ← hpast]
  · rwa [List.append_nil]

/-- **The relation holds along every sequence of requests in the order of time.** -/
theorem history_after (window : τ) (limit : ℕ) (hsorted : times.Pairwise (· ≤ ·)) (hnow : ∀ t ∈ times, t ≤ now) :
    ∃ last ≤ now, History window (logAfter window limit times) (admitted window limit times) last := by
  induction times using List.reverseRecOn generalizing now with
  | nil => exact ⟨now, le_rfl, .nil, by simp [admitted, admittedFrom], [], rfl, by simp⟩
  | append_singleton times t ih =>
    obtain ⟨hbefore, -, hlater⟩ := List.pairwise_append.1 hsorted
    obtain ⟨last, hlast, h⟩ := ih hbefore fun a ha => hlater a ha t (List.mem_singleton_self t)
    rw [logAfter_append, admitted_append]
    exact ⟨t, hnow t (by simp), h.record hlast⟩

/-- **No interval of the window's length holds more admitted requests than the limit.** -/
theorem history_interval (window : τ) (limit : ℕ) (hsorted : times.Pairwise (· ≤ ·)) (start : τ) :
    ((admitted window limit times).filter fun t => decide (start ≤ t ∧ t ≤ start + window)).length ≤ limit := by
  induction times using List.reverseRecOn with
  | nil => exact Nat.zero_le _
  | append_singleton times now ih =>
    obtain ⟨hbefore, -, hlater⟩ := List.pairwise_append.1 hsorted
    have hearlier := ih hbefore
    rw [admitted_append, List.filter_append, List.length_append]
    by_cases hadmitted : admits window limit (logAfter window limit times) now = true
    · rw [if_pos hadmitted]
      by_cases hin : start ≤ now ∧ now ≤ start + window
      · -- every earlier request of the interval is still in the log, where there was room
        obtain ⟨last, hlast, h⟩ := history_after window limit hbefore
          fun a ha => hlater a ha now (List.mem_singleton_self now)
        have hroom := of_decide_eq_true hadmitted
        rw [h.kept_eq hlast] at hroom
        have hsub : ((admitted window limit times).filter fun t => decide (start ≤ t ∧ t ≤ start + window)).length ≤
            ((admitted window limit times).filter fun t => decide (now - window ≤ t)).length := by
          apply List.Sublist.length_le
          apply List.monotone_filter_right
          intro t ht
          simp only [decide_eq_true_eq] at ht ⊢
          exact (sub_le_iff_le_add.2 hin.2).trans ht.1
        rw [List.filter_cons_of_pos (by simpa using hin)]
        simp only [List.filter_nil, List.length_singleton]
        omega
      · rw [List.filter_cons_of_neg (by simpa using hin)]
        simpa using hearlier
    · rw [if_neg hadmitted]
      simpa using hearlier

/-- **A request is rejected if and only if the window that ends with it is full.** -/
theorem history_rejects_iff (window : τ) (limit : ℕ) (hsorted : times.Pairwise (· ≤ ·)) (hnow : ∀ t ∈ times, t ≤ now) :
    admits window limit (logAfter window limit times) now = false ↔
      ((admitted window limit times).filter fun t => decide (now - window ≤ t ∧ t ≤ now)).length = limit := by
  obtain ⟨last, hlast, h⟩ := history_after window limit hsorted hnow
  have hfull := history_interval window limit hsorted (now - window)
  rw [sub_add_cancel] at hfull
  have hsame : (admitted window limit times).filter (fun t => decide (now - window ≤ t)) =
      (admitted window limit times).filter fun t => decide (now - window ≤ t ∧ t ≤ now) := by
    apply List.filter_congr
    intro t ht
    have hpast : t ≤ now := (h.past t ht).trans hlast
    simp [hpast]
  unfold admits
  rw [decide_eq_false_iff_not, h.kept_eq hlast, hsame]
  omega

end SlidingWindow
