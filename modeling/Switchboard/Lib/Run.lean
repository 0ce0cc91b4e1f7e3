import Mathlib.Data.List.Induction

/-!
# Properties along a run

A run applies one call after the other to a state. `prefixes_iff` turns an exact condition
on one call into an exact condition on the run.

* `foldl_keeps`: an invariant of every call holds at the end.
* `prefixes_iff`: a property holds all along a run if and only if every call is good, when
  a call is good exactly if it keeps the property.
-/

namespace Run

variable {σ γ : Type*} {step : σ → γ → σ} {I : σ → Prop}

theorem foldl_keeps (hI : ∀ s c, I s → I (step s c)) {s : σ} (hs : I s) (calls : List γ) : I (calls.foldl step s) := by
  induction calls generalizing s with
  | nil => exact hs
  | cons c calls ih => exact ih (hI s c hs)

/-- **A property holds all along a run if and only if every call is good.** -/
theorem prefixes_iff {P : σ → Prop} {G : σ → γ → Prop} (hI : ∀ s c, I s → I (step s c)) {s : σ} (hs : I s) (hP : P s)
    (hstep : ∀ s c, I s → P s → (P (step s c) ↔ G s c)) (calls : List γ) :
    (∀ pre, pre <+: calls → P (pre.foldl step s)) ↔ ∀ pre c, pre ++ [c] <+: calls → G (pre.foldl step s) c := by
  have happend : ∀ pre c, (pre ++ [c]).foldl step s = step (pre.foldl step s) c := by
    intro pre c
    rw [List.foldl_append]
    rfl
  constructor
  · intro h pre c hpre
    have hbefore := h pre ((List.prefix_append pre [c]).trans hpre)
    have hafter := h (pre ++ [c]) hpre
    rw [happend] at hafter
    exact (hstep _ c (foldl_keeps hI hs pre) hbefore).1 hafter
  · intro h pre
    induction pre using List.reverseRecOn with
    | nil => exact fun _ => hP
    | append_singleton pre c ih =>
      intro hpre
      have hbefore := ih ((List.prefix_append pre [c]).trans hpre)
      rw [happend]
      exact (hstep _ c (foldl_keeps hI hs pre) hbefore).2 (h pre c hpre)

end Run
