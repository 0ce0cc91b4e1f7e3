import Mathlib.Logic.Relation
import Mathlib.Data.List.Chain

/-!
# Transactions

A session holds the current state and every state before it, newest first: one entry
per executed statement. A transaction takes a session to a value and a session, or
raises; whatever it did before raising is rolled back, because the raised outcome
carries no session. `attempt` is a savepoint: on an exception the handler starts from
the session the body started from.

* `bind_ok`, `read_ok`, `exec_ok`, `require_ok`, `attempt_ok`: what a transaction that
  did not raise has done.
* `Raises P`: what a computation without a session may raise.
* `Within R`: a transaction only moves along the preorder `R`; the rules for the
  combinators.
* `Oblivious`: the outcome of a transaction depends on the current state only.
* `Grows R`: the states a session went through are consecutively related by `R`.
-/

namespace Transaction

variable {σ ε α β : Type}

/-- The current state and, newest first, the states before it. -/
structure Session (σ : Type) where
  db : σ
  past : List σ

/-- The session after one statement has made `d` of the current state. -/
def Session.push (ss : Session σ) (d : σ) : Session σ := ⟨d, ss.db :: ss.past⟩

@[simp] theorem Session.push_db (ss : Session σ) (d : σ) : (ss.push d).db = d := rfl

/-- All states of the session, newest first. -/
def Session.states (ss : Session σ) : List σ := ss.db :: ss.past

/-- A transaction. -/
def Tx (σ ε α : Type) : Type := Session σ → Except ε (α × Session σ)

def Tx.pure (a : α) : Tx σ ε α := fun ss => .ok (a, ss)

def Tx.bind (x : Tx σ ε α) (f : α → Tx σ ε β) : Tx σ ε β := fun ss =>
  match x ss with
  | .ok (a, ss') => f a ss'
  | .error e => .error e

instance : Monad (Tx σ ε) where
  pure := Tx.pure
  bind := Tx.bind

/-- Raise `e`. -/
def raise (e : ε) : Tx σ ε α := fun _ => .error e

/-- Read the current state. -/
def read (f : σ → α) : Tx σ ε α := fun ss => .ok (f ss.db, ss)

/-- Read the current state by a computation that may raise. -/
def query (f : σ → Except ε α) : Tx σ ε α := fun ss =>
  match f ss.db with
  | .ok a => .ok (a, ss)
  | .error e => .error e

/-- Execute one statement: a new state and what the statement reports. -/
def exec (st : σ → σ × β) : Tx σ ε β := fun ss => .ok ((st ss.db).2, ss.push (st ss.db).1)

/-- Raise `e` unless `c` holds. -/
def require (c : Bool) (e : ε) : Tx σ ε Unit := fun ss => if c then .ok ((), ss) else .error e

/-- The value of an optional read, or `e`. -/
def requireSome (o : Option α) (e : ε) : Tx σ ε α := fun ss =>
  match o with
  | some a => .ok (a, ss)
  | none => .error e

/-- Run `x` under a savepoint; on an exception that `h` handles, roll back to it. -/
def attempt (x : Tx σ ε α) (h : ε → Option α) : Tx σ ε α := fun ss =>
  match x ss with
  | .ok r => .ok r
  | .error e =>
    match h e with
    | some a => .ok (a, ss)
    | none => .error e

/-- The session after the transaction: committed whole, or as before if it raised. -/
def commit (x : Tx σ ε α) (ss : Session σ) : Session σ :=
  match x ss with
  | .ok (_, ss') => ss'
  | .error _ => ss

/-! ## What a transaction that did not raise has done -/

variable {x : Tx σ ε α} {f : α → Tx σ ε β} {ss ss' : Session σ} {a : α} {b : β} {e : ε}

@[simp] theorem pure_ok {a' : α} : (Pure.pure a : Tx σ ε α) ss = .ok (a', ss') ↔ a = a' ∧ ss = ss' := by
  show (Except.ok (a, ss) : Except ε (α × Session σ)) = _ ↔ _
  simp

@[simp] theorem bind_ok : (x >>= f) ss = .ok (b, ss') ↔
    ∃ a s₁, x ss = .ok (a, s₁) ∧ f a s₁ = .ok (b, ss') := by
  show Tx.bind x f ss = _ ↔ _
  unfold Tx.bind
  cases h : x ss with
  | error e => simp
  | ok r => obtain ⟨a, s₁⟩ := r; simp

@[simp] theorem raise_ok : (raise e : Tx σ ε α) ss = .ok (a, ss') ↔ False := by
  simp [raise]

@[simp] theorem read_ok {g : σ → α} : (read g : Tx σ ε α) ss = .ok (a, ss') ↔ g ss.db = a ∧ ss = ss' := by
  simp [read]

@[simp] theorem query_ok {g : σ → Except ε α} : (query g : Tx σ ε α) ss = .ok (a, ss') ↔
    g ss.db = .ok a ∧ ss = ss' := by
  unfold query
  cases g ss.db <;> simp

@[simp] theorem exec_ok {st : σ → σ × β} : (exec st : Tx σ ε β) ss = .ok (b, ss') ↔
    (st ss.db).2 = b ∧ ss.push (st ss.db).1 = ss' := by
  simp [exec]

@[simp] theorem require_ok {c : Bool} {u : Unit} : (require c e : Tx σ ε Unit) ss = .ok (u, ss') ↔
    c = true ∧ ss = ss' := by
  unfold require
  split <;> simp_all

@[simp] theorem requireSome_ok {o : Option α} : (requireSome o e : Tx σ ε α) ss = .ok (a, ss') ↔
    o = some a ∧ ss = ss' := by
  unfold requireSome
  cases o <;> simp

theorem attempt_ok {h : ε → Option α} : attempt x h ss = .ok (a, ss') ↔
    x ss = .ok (a, ss') ∨ ∃ e, x ss = .error e ∧ h e = some a ∧ ss = ss' := by
  unfold attempt
  cases hx : x ss with
  | ok r => simp
  | error e =>
    cases hh : h e with
    | none => simp [hh]
    | some a => simp [hh]

theorem Tx.bind_pure (x : Tx σ ε α) : id <$> x = x := by
  funext ss
  show Tx.bind x (fun a => Tx.pure a) ss = x ss
  unfold Tx.bind
  cases x ss <;> rfl

theorem Tx.bind_bind {γ : Type} (x : Tx σ ε α) (f : α → Tx σ ε β) (g : β → Tx σ ε γ) :
    x >>= f >>= g = x >>= fun a => f a >>= g := by
  funext ss
  show Tx.bind (Tx.bind x f) g ss = Tx.bind x (fun a => Tx.bind (f a) g) ss
  unfold Tx.bind
  cases x ss <;> rfl

instance : LawfulMonad (Tx σ ε) := LawfulMonad.mk' _ Tx.bind_pure (fun _ _ => rfl) Tx.bind_bind

/-- A query made of two is two queries. -/
theorem query_bind {g : σ → Except ε α} {h : α → σ → Except ε β} :
    (query (fun s => g s >>= fun a => h a s) : Tx σ ε β) = query g >>= fun a => query (h a) := by
  funext ss
  show query (fun s => g s >>= fun a => h a s) ss = Tx.bind (query g) (fun a => query (h a)) ss
  simp only [Tx.bind, query]
  cases g ss.db <;> rfl

/-- A computation that did not raise is followed by the rest from where it ended. -/
theorem bind_of_ok {s₁ : Session σ} (h : x ss = .ok (a, s₁)) : (x >>= f) ss = f a s₁ := by
  show Tx.bind x f ss = f a s₁
  simp [Tx.bind, h]

theorem bind_of_error (h : x ss = .error e) : (x >>= f) ss = .error e := by
  show Tx.bind x f ss = .error e
  simp [Tx.bind, h]

theorem read_bind {g : σ → α} : (read g >>= f : Tx σ ε β) ss = f (g ss.db) ss := rfl

theorem exec_bind {st : σ → σ × α} : (exec st >>= f : Tx σ ε β) ss = f (st ss.db).2 (ss.push (st ss.db).1) := rfl

theorem bind_congr {g : α → Tx σ ε β} (h : ∀ a s₁, f a s₁ = g a s₁) : (x >>= f) ss = (x >>= g) ss := by
  have hfg : f = g := funext fun a => funext fun s₁ => h a s₁
  rw [hfg]

theorem commit_of_ok (h : x ss = .ok (a, ss')) : commit x ss = ss' := by simp [commit, h]

/-! ## Checks that write nothing -/

/-- Raise `e` unless `c` holds. -/
def ensure (c : Bool) (e : ε) : Except ε Unit := if c then .ok () else .error e

@[simp] theorem ensure_ok {c : Bool} {u : Unit} : ensure c e = .ok u ↔ c = true := by
  unfold ensure
  split <;> simp_all

@[simp] theorem except_bind_ok {y : Except ε α} {g : α → Except ε β} :
    (y >>= g) = .ok b ↔ ∃ a, y = .ok a ∧ g a = .ok b := by
  cases y <;> simp [Bind.bind, Except.bind]

theorem except_bind_error {y : Except ε α} {g : α → Except ε β} :
    (y >>= g) = .error e ↔ y = .error e ∨ ∃ a, y = .ok a ∧ g a = .error e := by
  cases y <;> simp [Bind.bind, Except.bind]

theorem ensure_error {c : Bool} {e' : ε} : ensure c e = .error e' ↔ c = false ∧ e = e' := by
  unfold ensure
  split <;> simp_all

@[simp] theorem except_pure_ok {a' : α} : (Pure.pure a : Except ε α) = .ok a' ↔ a = a' := by
  simp [Pure.pure, Except.pure]

@[simp] theorem except_forM_ok {f : α → Except ε Unit} {l : List α} {u : Unit} :
    l.forM f = .ok u ↔ ∀ a ∈ l, f a = .ok () := by
  induction l with
  | nil => simp
  | cons a l ih =>
    simp only [List.forM_eq_forM, List.forM_cons, except_bind_ok, List.forall_mem_cons] at ih ⊢
    rw [ih]
    constructor
    · rintro ⟨_, ha, hl⟩
      exact ⟨ha, hl⟩
    · rintro ⟨ha, hl⟩
      exact ⟨(), ha, hl⟩

/-- The computation raises nothing but what `P` allows. -/
def Raises (P : ε → Prop) (y : Except ε α) : Prop := ∀ e, y = .error e → P e

section Raises

variable {P : ε → Prop} {y : Except ε α} {g : α → Except ε β}

theorem raises_ok : Raises P (.ok a : Except ε α) := by simp [Raises]

theorem raises_pure : Raises P (Pure.pure a : Except ε α) := raises_ok

theorem raises_error : Raises P (.error e : Except ε α) ↔ P e := by simp [Raises]

/-- What follows may use what the first computation returned. -/
theorem raises_bind (hy : Raises P y) (hg : ∀ a, y = .ok a → Raises P (g a)) : Raises P (y >>= g) := by
  intro e he
  cases hya : y with
  | error e' =>
    rw [hya] at he
    obtain rfl : e' = e := Except.error.inj he
    exact hy e' hya
  | ok a =>
    rw [hya] at he
    exact hg a hya e he

theorem raises_ensure {c : Bool} (h : P e) : Raises P (ensure c e) := by
  unfold ensure
  split
  · exact raises_ok
  · exact raises_error.2 h

theorem raises_mono {Q : ε → Prop} (hPQ : ∀ e, P e → Q e) (hy : Raises P y) : Raises Q y :=
  fun e he => hPQ e (hy e he)

end Raises

/-! ## Transactions that move along a preorder -/

/-- Every outcome of the transaction that is not an exception is `R`-above its start. -/
def Within (R : Session σ → Session σ → Prop) (x : Tx σ ε α) : Prop :=
  ∀ ss a ss', x ss = .ok (a, ss') → R ss ss'

section Within

variable {R : Session σ → Session σ → Prop} (hrefl : ∀ s, R s s) (htrans : ∀ {s t u}, R s t → R t u → R s u)

include hrefl

theorem within_pure : Within R (Pure.pure a : Tx σ ε α) := by
  intro ss b ss' h; obtain ⟨-, rfl⟩ := pure_ok.1 h; exact hrefl _

theorem within_read (g : σ → α) : Within R (read g : Tx σ ε α) := by
  intro ss b ss' h; obtain ⟨-, rfl⟩ := read_ok.1 h; exact hrefl _

theorem within_query (g : σ → Except ε α) : Within R (query g : Tx σ ε α) := by
  intro ss b ss' h; obtain ⟨-, rfl⟩ := query_ok.1 h; exact hrefl _

theorem within_require (c : Bool) : Within R (require c e : Tx σ ε Unit) := by
  intro ss b ss' h; obtain ⟨-, rfl⟩ := require_ok.1 h; exact hrefl _

theorem within_requireSome (o : Option α) : Within R (requireSome o e : Tx σ ε α) := by
  intro ss b ss' h; obtain ⟨-, rfl⟩ := requireSome_ok.1 h; exact hrefl _

theorem within_attempt {h : ε → Option α} (hx : Within R x) : Within R (attempt x h) := by
  intro ss b ss' hok
  rcases attempt_ok.1 hok with hok | ⟨_, -, -, rfl⟩
  · exact hx _ _ _ hok
  · exact hrefl _

theorem within_commit (hx : Within R x) : R ss (commit x ss) := by
  unfold commit
  split
  · rename_i h; exact hx _ _ _ h
  · exact hrefl _

omit hrefl

theorem within_exec {st : σ → σ × β} (h : ∀ s : Session σ, R s (s.push (st s.db).1)) :
    Within R (exec st : Tx σ ε β) := by
  intro ss b ss' hok; obtain ⟨-, rfl⟩ := exec_ok.1 hok; exact h ss

theorem within_raise : Within R (raise e : Tx σ ε α) := fun _ _ _ h => (raise_ok.1 h).elim

include htrans in
theorem within_bind (hx : Within R x) (hf : ∀ a, Within R (f a)) : Within R (x >>= f) := by
  intro ss b ss' h
  obtain ⟨a, s₁, h₁, h₂⟩ := bind_ok.1 h
  exact htrans (hx _ _ _ h₁) (hf a _ _ _ h₂)

end Within

/-! ## Transactions that do not look back -/

/-- What is left of an outcome without the states before the current one. -/
def outcome (r : Except ε (α × Session σ)) : Except ε (α × σ) := r.map fun r => (r.1, r.2.db)

/-- The outcome depends on the current state only. -/
def Oblivious (x : Tx σ ε α) : Prop := ∀ d past past', outcome (x ⟨d, past⟩) = outcome (x ⟨d, past'⟩)

theorem oblivious_pure (a : α) : Oblivious (Pure.pure a : Tx σ ε α) := fun _ _ _ => rfl

theorem oblivious_raise (e : ε) : Oblivious (raise e : Tx σ ε α) := fun _ _ _ => rfl

theorem oblivious_read (g : σ → α) : Oblivious (read g : Tx σ ε α) := fun _ _ _ => rfl

theorem oblivious_exec (st : σ → σ × β) : Oblivious (exec st : Tx σ ε β) := fun _ _ _ => rfl

theorem oblivious_query (g : σ → Except ε α) : Oblivious (query g : Tx σ ε α) := by
  intro d past past'
  simp only [query]
  cases g d <;> rfl

theorem oblivious_require (c : Bool) (e : ε) : Oblivious (require c e : Tx σ ε Unit) := by
  intro d past past'
  simp only [require]
  split <;> rfl

theorem oblivious_requireSome (o : Option α) (e : ε) : Oblivious (requireSome o e : Tx σ ε α) := by
  intro d past past'
  cases o <;> rfl

theorem oblivious_bind (hx : Oblivious x) (hf : ∀ a, Oblivious (f a)) : Oblivious (x >>= f) := by
  intro d past past'
  show outcome (Tx.bind x f ⟨d, past⟩) = outcome (Tx.bind x f ⟨d, past'⟩)
  have h := hx d past past'
  unfold Tx.bind
  cases h₁ : x ⟨d, past⟩ <;> cases h₂ : x ⟨d, past'⟩ <;> rw [h₁, h₂] at h <;>
    simp only [outcome, Except.map, Except.ok.injEq, Except.error.injEq, Prod.mk.injEq, reduceCtorEq] at h
  · simp only [h]
  · rename_i r r'
    obtain ⟨a, ⟨d₁, past₁⟩⟩ := r
    obtain ⟨b, ⟨d₂, past₂⟩⟩ := r'
    simp only at h ⊢
    obtain ⟨rfl, rfl⟩ := h
    exact hf a d₁ past₁ past₂

theorem oblivious_attempt {h : ε → Option α} (hx : Oblivious x) : Oblivious (attempt x h) := by
  intro d past past'
  have hsame := hx d past past'
  unfold attempt
  cases h₁ : x ⟨d, past⟩ <;> cases h₂ : x ⟨d, past'⟩ <;> rw [h₁, h₂] at hsame <;>
    simp only [outcome, Except.map, Except.ok.injEq, Except.error.injEq, Prod.mk.injEq, reduceCtorEq] at hsame
  · subst hsame
    simp only
    cases h _ <;> rfl
  · simp only [outcome, Except.map, hsame]

/-- The state after a committed transaction that does not look back. -/
theorem Oblivious.commit_db (hx : Oblivious x) (ss : Session σ) : (commit x ss).db = (commit x ⟨ss.db, []⟩).db := by
  have h := hx ss.db ss.past []
  unfold commit
  cases h₁ : x ss <;> cases h₂ : x ⟨ss.db, []⟩ <;> rw [show x ⟨ss.db, ss.past⟩ = x ss from rfl, h₁, h₂] at h <;>
    simp only [outcome, Except.map, Except.ok.injEq, Prod.mk.injEq, reduceCtorEq] at h
  exact h.2

/-! ## The states a session goes through -/

/-- From `ss` the session went to `ss'` by statements each of which keeps `R`. -/
inductive Grows (R : σ → σ → Prop) (ss : Session σ) : Session σ → Prop
  | refl : Grows R ss ss
  | push {s₁ : Session σ} {d : σ} (h : Grows R ss s₁) (hd : R s₁.db d) : Grows R ss (s₁.push d)

theorem Grows.trans {R : σ → σ → Prop} {s t u : Session σ} (h₁ : Grows R s t) (h₂ : Grows R t u) :
    Grows R s u := by
  induction h₂ with
  | refl => exact h₁
  | push _ hd ih => exact ih.push hd

/-- Consecutive states of the session, newest first, are related by `R`. -/
def Linked (R : σ → σ → Prop) (ss : Session σ) : Prop := ss.states.IsChain fun d c => R c d

theorem Grows.linked {R : σ → σ → Prop} {s t : Session σ} (h : Grows R s t) (hs : Linked R s) :
    Linked R t := by
  induction h with
  | refl => exact hs
  | push _ hd ih => exact List.isChain_cons_cons.2 ⟨hd, ih⟩

end Transaction
