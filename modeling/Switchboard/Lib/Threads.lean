import Mathlib.Logic.Function.Basic

/-!
# Threads over shared state

A `Thread` is a program cut into atomic accesses to a shared state; between two accesses
it works on its own variables. A `Pool` interleaves the accesses of any number of
threads, in any order.

* `Thread.Ensures`: rely-guarantee: under interference within the rely, every access
  keeps the invariant and stays within the guarantee, and the thread ends in its
  postcondition.
* `ensures_bind`, `ensures_access`: the rules along a program.
* `Pool.Sound.run`: in every interleaving of threads that rely on what the others
  guarantee, the invariant holds and every thread that has ended is in its
  postcondition.
-/

namespace Threads

variable {σ α β ι : Type}

/-- A program of atomic accesses: one access updates the state, and what follows depends on the state that it
found. -/
inductive Thread (σ α : Type) : Type
  | done (a : α)
  | step (update : σ → σ) (next : σ → Thread σ α)

namespace Thread

def bind : Thread σ α → (α → Thread σ β) → Thread σ β
  | done a, f => f a
  | step update next, f => step update fun s => (next s).bind f

instance : Monad (Thread σ) where
  pure := done
  bind := bind

/-- One atomic access with a result. -/
def access (f : σ → α × σ) : Thread σ α := step (fun s => (f s).2) fun s => done (f s).1

/-- One atomic update. -/
def update (f : σ → σ) : Thread σ Unit := step f fun _ => done ()

/-- One atomic read. -/
def observe (f : σ → α) : Thread σ α := step id fun s => done (f s)

/-- Do `x` only if `c` holds. -/
def when (c : Bool) (x : Thread σ Unit) : Thread σ Unit := if c then x else done ()

/-- The result, once the thread has ended. -/
def result : Thread σ α → Option α
  | done a => some a
  | step _ _ => none

/-! ## Rely and guarantee -/

section Ensures

variable (I : σ → Prop) (R G : σ → σ → Prop)

/-- From `s` on, if the others keep `I` and move within `R`: every access keeps `I` and moves within `G`, and
the thread ends in `Q`. -/
def Ensures (Q : α → σ → Prop) : Thread σ α → σ → Prop
  | done a, s => Q a s
  | step update next, s => ∀ s', I s' → R s s' →
      I (update s') ∧ G s' (update s') ∧ Ensures Q (next s') (update s')

variable {I R G} {Q Q' : α → σ → Prop} {s : σ}

theorem ensures_pure {a : α} (h : Q a s) : Ensures I R G Q (pure a) s := h

theorem Ensures.mono {p : Thread σ α} (h : Ensures I R G Q p s) (hQ : ∀ a s, Q a s → Q' a s) :
    Ensures I R G Q' p s := by
  induction p generalizing s with
  | done a => exact hQ a s h
  | step update next ih =>
    intro s' hi hr
    obtain ⟨hi', hg, hnext⟩ := h s' hi hr
    exact ⟨hi', hg, ih s' hnext⟩

/-- A thread that ensures this much under a weaker rely, with a stronger guarantee. -/
theorem Ensures.weaken {R' G' : σ → σ → Prop} (hR : ∀ s s', I s' → R' s s' → R s s')
    (hG : ∀ s s', I s → G s s' → G' s s') {p : Thread σ α} (h : Ensures I R G Q p s) : Ensures I R' G' Q p s := by
  induction p generalizing s with
  | done a => exact h
  | step update next ih =>
    intro s' hi hr
    obtain ⟨hi', hg, hnext⟩ := h s' hi (hR s s' hi hr)
    exact ⟨hi', hG s' _ hi hg, ih s' hnext⟩

/-- **What both the thread and the others keep** is there at the end. -/
theorem Ensures.frame {K : σ → Prop} (hR : ∀ s s', R s s' → K s → K s') (hG : ∀ s s', G s s' → K s → K s')
    {p : Thread σ α} (h : Ensures I R G Q p s) (hK : K s) : Ensures I R G (fun a s' => Q a s' ∧ K s') p s := by
  induction p generalizing s with
  | done a => exact ⟨h, hK⟩
  | step update next ih =>
    intro s' hi hr
    obtain ⟨hi', hg, hnext⟩ := h s' hi hr
    exact ⟨hi', hg, ih s' hnext (hG s' _ hg (hR s s' hr hK))⟩

theorem ensures_bind {p : Thread σ β} {f : β → Thread σ α}
    (h : Ensures I R G (fun b s' => Ensures I R G Q (f b) s') p s) : Ensures I R G Q (p >>= f) s := by
  show Ensures I R G Q (p.bind f) s
  induction p generalizing s with
  | done b => exact h
  | step update next ih =>
    intro s' hi hr
    obtain ⟨hi', hg, hnext⟩ := h s' hi hr
    exact ⟨hi', hg, ih s' hnext⟩

theorem ensures_access {f : σ → α × σ}
    (h : ∀ s', I s' → R s s' → I (f s').2 ∧ G s' (f s').2 ∧ Q (f s').1 (f s').2) : Ensures I R G Q (access f) s := h

theorem ensures_update {f : σ → σ} {Q : Unit → σ → Prop}
    (h : ∀ s', I s' → R s s' → I (f s') ∧ G s' (f s') ∧ Q () (f s')) : Ensures I R G Q (update f) s := h

/-- A read needs no invariant, only that standing still is within the guarantee. -/
theorem ensures_observe {f : σ → α} (hG : ∀ s', I s' → G s' s') (h : ∀ s', I s' → R s s' → Q (f s') s') :
    Ensures I R G Q (observe f) s := fun s' hi hr => ⟨hi, hG s' hi, h s' hi hr⟩

theorem ensures_when {c : Bool} {x : Thread σ Unit} {Q : Unit → σ → Prop} (hx : c = true → Ensures I R G Q x s)
    (hnot : c = false → Q () s) : Ensures I R G Q (when c x) s := by
  cases c with
  | true => exact hx rfl
  | false => exact hnot rfl

/-- The others go on. -/
theorem Ensures.later (htrans : ∀ {x y z}, R x y → R y z → R x z) (hQ : ∀ a x y, Q a x → R x y → Q a y)
    {p : Thread σ α} {s' : σ} (h : Ensures I R G Q p s) (hs : R s s') : Ensures I R G Q p s' := by
  cases p with
  | done a => exact hQ a s s' h hs
  | step update next => exact fun x hi hr => h x hi (htrans hs hr)

end Ensures

end Thread

/-! ## Pools -/

open Thread

/-- Threads with the state that they share. -/
structure Pool (ι σ α : Type) where
  state : σ
  threads : ι → Thread σ α

namespace Pool

variable [DecidableEq ι]

/-- One access of thread `i`, unless it has ended. -/
def turn (m : Pool ι σ α) (i : ι) : Pool ι σ α :=
  match m.threads i with
  | .done _ => m
  | .step update next => ⟨update m.state, Function.update m.threads i (next m.state)⟩

/-- The pool after the accesses of `schedule`, one after the other. -/
def run (m : Pool ι σ α) (schedule : List ι) : Pool ι σ α := schedule.foldl turn m

/-- The invariant holds, and every thread ensures its postcondition while each of the others moves within what
it relies on. -/
structure Sound (I : σ → Prop) (R : ι → σ → σ → Prop) (Q : ι → α → σ → Prop) (m : Pool ι σ α) : Prop where
  inv : I m.state
  threads : ∀ i, Ensures I (R i) (fun s s' => ∀ j, j ≠ i → R j s s') (Q i) (m.threads i) m.state

variable {I : σ → Prop} {R : ι → σ → σ → Prop} {Q : ι → α → σ → Prop} {m : Pool ι σ α}

section

variable (hrefl : ∀ i s, R i s s) (htrans : ∀ {i x y z}, R i x y → R i y z → R i x z)
  (hstable : ∀ i a x y, Q i a x → R i x y → Q i a y)

include hrefl htrans hstable

theorem Sound.turn (h : m.Sound I R Q) (i : ι) : (m.turn i).Sound I R Q := by
  unfold Pool.turn
  cases hi : m.threads i with
  | done a => exact h
  | step update next =>
    have hens := h.threads i
    rw [hi] at hens
    obtain ⟨hinv, hguar, hnext⟩ := hens m.state h.inv (hrefl i m.state)
    refine ⟨hinv, fun j => ?_⟩
    by_cases hj : j = i
    · subst hj
      simp only [Function.update_self]
      exact hnext
    · simp only [Function.update_of_ne hj]
      exact Ensures.later (R := R j) htrans (hstable j) (h.threads j) (hguar j hj)

/-- **In every interleaving the invariant holds and the threads keep what they ensure.** -/
theorem Sound.run (h : m.Sound I R Q) (schedule : List ι) : (m.run schedule).Sound I R Q := by
  unfold Pool.run
  induction schedule generalizing m with
  | nil => exact h
  | cons i schedule ih => exact ih (h.turn hrefl htrans hstable i)

end

omit [DecidableEq ι] in
/-- A thread that has ended is in its postcondition. -/
theorem Sound.ended (h : m.Sound I R Q) {i : ι} {a : α} (hi : (m.threads i).result = some a) : Q i a m.state := by
  have hens := h.threads i
  cases ht : m.threads i with
  | done b =>
    rw [ht] at hens hi
    obtain rfl := Option.some.inj hi
    exact hens
  | step update next => rw [ht] at hi; cases hi

end Pool

end Threads
