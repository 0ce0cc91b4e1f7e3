import Switchboard.Lib.Threads

/-!
# Threads that raise

A thread over shared state that ends with a value or with an exception. What it has done to the state before it
raises stays done.

* `Raising.caught`: a block whose exceptions are handled behind it.
* `ensures_bind`, `ensures_caught_bind`: rely-guarantee along a program, with one postcondition for both ends.
* `ensures_observe_bind`, `ensures_access_bind`: an access and what follows it.
-/

namespace Threads

variable {σ ε α β : Type}

/-- A thread that ends with a value or raises. -/
def Raising (σ ε α : Type) : Type := Thread σ (Except ε α)

namespace Raising

def pure (a : α) : Raising σ ε α := Thread.done (.ok a)

def raise (e : ε) : Raising σ ε α := Thread.done (.error e)

def ofExcept (x : Except ε α) : Raising σ ε α := Thread.done x

/-- What follows a block that has ended: the exception passes it by. -/
def andThen (f : α → Raising σ ε β) : Except ε α → Raising σ ε β
  | .ok a => f a
  | .error e => raise e

def bind (x : Raising σ ε α) (f : α → Raising σ ε β) : Raising σ ε β := Thread.bind x (andThen f)

instance : Monad (Raising σ ε) where
  pure := pure
  bind := bind

/-- `try` the block: what it ended with, for the `except` clauses behind it. -/
def caught (x : Raising σ ε α) : Raising σ ε (Except ε α) := Thread.bind x fun r => Thread.done (.ok r)

/-- One atomic read. -/
def observe (f : σ → α) : Raising σ ε α := Thread.observe fun s => .ok (f s)

/-- One atomic access with a result. -/
def access (f : σ → α × σ) : Raising σ ε α := Thread.access fun s => (.ok (f s).1, (f s).2)

/-- One atomic access that may raise. -/
def attempt (f : σ → Except ε α × σ) : Raising σ ε α := Thread.access f

/-- The value of an optional read, or the exception. -/
def ofOption (a : Option α) (e : ε) : Raising σ ε α :=
  match a with
  | some a => pure a
  | none => raise e

/-- Raise `e` unless `c` holds. -/
def demand (c : Bool) (e : ε) : Raising σ ε Unit := if c then pure () else raise e

/-! ## Rely and guarantee -/

section ensures

open Thread

variable {I : σ → Prop} {R G : σ → σ → Prop} {Q : Except ε α → σ → Prop} {s : σ}

theorem ensures_pure {a : α} (h : Q (.ok a) s) : Ensures I R G Q (Pure.pure a : Raising σ ε α) s := h

theorem ensures_raise {e : ε} (h : Q (.error e) s) : Ensures I R G Q (raise e : Raising σ ε α) s := h

theorem ensures_ofExcept {x : Except ε α} (h : Q x s) : Ensures I R G Q (ofExcept x : Raising σ ε α) s := h

theorem ensures_bind {x : Raising σ ε β} {f : β → Raising σ ε α}
    (h : Ensures I R G (fun r s' => Ensures I R G Q (andThen f r) s') x s) : Ensures I R G Q (x >>= f : Raising σ ε α) s :=
  Thread.ensures_bind (p := x) (f := andThen f) h

theorem ensures_map {x : Raising σ ε β} {f : β → α} (h : Ensures I R G (fun r s' => Q (r.map f) s') x s) :
    Ensures I R G Q (f <$> x : Raising σ ε α) s := by
  refine ensures_bind (f := fun b => Pure.pure (f b)) (h.mono fun r s' hr => ?_)
  cases r with
  | ok b => exact hr
  | error e => exact hr

theorem ensures_caught_bind {x : Raising σ ε β} {f : Except ε β → Raising σ ε α}
    (h : Ensures I R G (fun r s' => Ensures I R G Q (f r) s') x s) :
    Ensures I R G Q (caught x >>= f : Raising σ ε α) s :=
  ensures_bind (Thread.ensures_bind (p := x) (f := fun r => Thread.done (Except.ok (ε := ε) r)) h)

theorem ensures_observe {f : σ → α} (hG : ∀ s', I s' → G s' s') (h : ∀ s', I s' → R s s' → Q (.ok (f s')) s') :
    Ensures I R G Q (observe f : Raising σ ε α) s := Thread.ensures_observe hG h

theorem ensures_access {f : σ → α × σ}
    (h : ∀ s', I s' → R s s' → I (f s').2 ∧ G s' (f s').2 ∧ Q (.ok (f s').1) (f s').2) :
    Ensures I R G Q (access f : Raising σ ε α) s := Thread.ensures_access h

theorem ensures_attempt {f : σ → Except ε α × σ}
    (h : ∀ s', I s' → R s s' → I (f s').2 ∧ G s' (f s').2 ∧ Q (f s').1 (f s').2) :
    Ensures I R G Q (attempt f) s := Thread.ensures_access h

theorem ensures_observe_bind {g : σ → β} {f : β → Raising σ ε α} (hG : ∀ s', I s' → G s' s')
    (h : ∀ s', I s' → R s s' → Ensures I R G Q (f (g s')) s') : Ensures I R G Q (observe g >>= f : Raising σ ε α) s :=
  ensures_bind (ensures_observe hG h)

theorem ensures_access_bind {g : σ → β × σ} {f : β → Raising σ ε α}
    (h : ∀ s', I s' → R s s' → I (g s').2 ∧ G s' (g s').2 ∧ Ensures I R G Q (f (g s').1) (g s').2) :
    Ensures I R G Q (access g >>= f : Raising σ ε α) s := ensures_bind (ensures_access h)

theorem ensures_ofOption_bind {b : Option β} {e : ε} {f : β → Raising σ ε α} (hnone : b = none → Q (.error e) s)
    (hsome : ∀ a, b = some a → Ensures I R G Q (f a) s) : Ensures I R G Q (ofOption b e >>= f : Raising σ ε α) s := by
  cases b with
  | none => exact hnone rfl
  | some a => exact hsome a rfl

theorem ensures_demand_bind {c : Bool} {e : ε} {f : Unit → Raising σ ε α} (hfalse : c = false → Q (.error e) s)
    (htrue : c = true → Ensures I R G Q (f ()) s) : Ensures I R G Q (demand c e >>= f : Raising σ ε α) s := by
  cases c with
  | false => exact hfalse rfl
  | true => exact htrue rfl

theorem ensures_ofExcept_bind {x : Except ε β} {f : β → Raising σ ε α} (herror : ∀ e, x = .error e → Q (.error e) s)
    (hok : ∀ b, x = .ok b → Ensures I R G Q (f b) s) : Ensures I R G Q (ofExcept x >>= f : Raising σ ε α) s := by
  cases x with
  | error e => exact herror e rfl
  | ok b => exact hok b rfl

end ensures

end Raising

end Threads
