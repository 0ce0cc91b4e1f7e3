import Mathlib.Data.List.Forall2

/-!
# Statements that may raise

`Try σ ε α` is a block of statements over local variables `σ` that ends normally or
raises. When it raises, the variables keep what was assigned so far: a handler or a
`finally` block sees them.

* `wp`: the weakest precondition of a block, for both ways to end; the simp set
  executes a block symbolically.
* `mapM_ok`, `mapM_returns`: what a traversal returns, and when it does.
-/

def Try (σ ε α : Type) : Type := σ → Except ε α × σ

namespace Try

variable {σ ε ε' α β : Type}

def pure (a : α) : Try σ ε α := fun s => (.ok a, s)

def bind (x : Try σ ε α) (f : α → Try σ ε β) : Try σ ε β := fun s =>
  match x s with
  | (.ok a, s') => f a s'
  | (.error e, s') => (.error e, s')

instance : Monad (Try σ ε) where
  pure := pure
  bind := bind

/-- Assign variables. -/
def assign (f : σ → σ) : Try σ ε Unit := fun s => (.ok (), f s)

/-- A call that leaves the variables alone; its exceptions are raised as `g`. -/
def call (g : ε' → ε) (x : Except ε' α) : Try σ ε α := fun s =>
  match x with
  | .ok a => (.ok a, s)
  | .error e => (.error (g e), s)

/-- What holds after the block: `Q` when it ends normally, `E` when it raises. -/
def wp (x : Try σ ε α) (Q : α → σ → Prop) (E : ε → σ → Prop) (s : σ) : Prop :=
  match x s with
  | (.ok a, s') => Q a s'
  | (.error e, s') => E e s'

section wp

variable {Q : α → σ → Prop} {E : ε → σ → Prop} {s : σ}

@[simp] theorem wp_pure {a : α} : wp (Pure.pure a : Try σ ε α) Q E s ↔ Q a s := Iff.rfl

@[simp] theorem wp_bind {x : Try σ ε β} {f : β → Try σ ε α} :
    wp (x >>= f) Q E s ↔ wp x (fun b s' => wp (f b) Q E s') E s := by
  show wp (bind x f) Q E s ↔ _
  unfold wp bind
  split <;> rename_i h <;> simp only [] at h ⊢ <;> split at h <;> simp_all

@[simp] theorem wp_assign {f : σ → σ} {Q : Unit → σ → Prop} : wp (assign f) Q E s ↔ Q () (f s) := Iff.rfl

@[simp] theorem wp_call {g : ε' → ε} {x : Except ε' α} :
    wp (call g x) Q E s ↔ (∀ a, x = .ok a → Q a s) ∧ ∀ e, x = .error e → E (g e) s := by
  cases x <;> simp [wp, call]

theorem wp_mono {x : Try σ ε α} {Q' : α → σ → Prop} {E' : ε → σ → Prop} (h : wp x Q E s)
    (hQ : ∀ a s', Q a s' → Q' a s') (hE : ∀ e s', E e s' → E' e s') : wp x Q' E' s := by
  unfold wp at h ⊢
  split at h
  · exact hQ _ _ h
  · exact hE _ _ h

theorem wp_of_forall {x : Try σ ε α} (hQ : ∀ a s', Q a s') (hE : ∀ e s', E e s') : wp x Q E s := by
  unfold wp
  split
  · exact hQ _ _
  · exact hE _ _

end wp

end Try

theorem returns_of_isSome {α ε : Type} {x : Except ε α} (h : x.toOption.isSome = true) : ∃ a, x = .ok a := by
  cases x with
  | ok a => exact ⟨a, rfl⟩
  | error e => cases h

/-- A traversal that does not raise returns the results of its calls, in order. -/
theorem mapM_ok {α β ε : Type} {f : α → Except ε β} {l : List α} {r : List β} (h : l.mapM f = .ok r) :
    List.Forall₂ (fun x y => f x = .ok y) l r := by
  induction l generalizing r with
  | nil =>
    rw [List.mapM_nil] at h
    cases h
    exact .nil
  | cons x l ih =>
    rw [List.mapM_cons] at h
    cases hx : f x with
    | error e => rw [hx] at h; cases h
    | ok y =>
      cases hl : l.mapM f with
      | error e => rw [hx, hl] at h; cases h
      | ok ys =>
        rw [hx, hl] at h
        cases h
        exact .cons hx (ih hl)

/-- A traversal whose calls all return does not raise. -/
theorem mapM_returns {α β ε : Type} {f : α → Except ε β} {l : List α} (h : ∀ x ∈ l, ∃ y, f x = .ok y) :
    ∃ r, l.mapM f = .ok r := by
  induction l with
  | nil => exact ⟨[], rfl⟩
  | cons x l ih =>
    rw [List.forall_mem_cons] at h
    obtain ⟨⟨y, hy⟩, hl⟩ := h
    obtain ⟨r, hr⟩ := ih hl
    refine ⟨y :: r, ?_⟩
    rw [List.mapM_cons, hy, hr]
    rfl

/-- No call of a traversal that does not raise raises. -/
theorem mapM_ok_of_mem {α β ε : Type} {f : α → Except ε β} {l : List α} {r : List β} (h : l.mapM f = .ok r) {x : α}
    (hx : x ∈ l) : ∃ y, f x = .ok y := by
  have hall := mapM_ok h
  clear h
  induction hall with
  | nil => cases hx
  | cons hy _ ih =>
    rcases List.mem_cons.1 hx with rfl | hx
    · exact ⟨_, hy⟩
    · exact ih hx

theorem exists_of_mem_mapM {α β ε : Type} {f : α → Except ε β} {l : List α} {r : List β} (h : l.mapM f = .ok r) {y : β}
    (hy : y ∈ r) : ∃ x ∈ l, f x = .ok y := by
  have hall := mapM_ok h
  clear h
  induction hall with
  | nil => cases hy
  | cons hx _ ih =>
    rcases List.mem_cons.1 hy with rfl | hy
    · exact ⟨_, List.mem_cons_self, hx⟩
    · obtain ⟨x, hmem, hx⟩ := ih hy
      exact ⟨x, List.mem_cons_of_mem _ hmem, hx⟩
