import Mathlib.Order.Lattice
import Mathlib.Logic.Function.Basic
import Switchboard.Lib.Tx

/-!
# Concurrent programs over one writer

A `Program` is a transaction cut into its steps: clock readings, queries and guarded
statements. A `Machine` interleaves the steps of any number of programs. The database
has one write slot: a program takes it with its first statement and keeps it until it
commits or raises. Queries of the holder see its own statements, all others the last
committed state. Any program can be aborted at any time.

* `Program.run`: the program alone, as a transaction.
* `Program.Ensures`: rely-guarantee: whatever was committed between two steps, what the
  program commits in the end is covered by its guarantee.
* `Machine.Sound`, `Machine.Sound.run`: in every interleaving of programs that keep
  their guarantees, so does every commit, and raising programs commit nothing.
-/

namespace Transaction

variable {σ τ ε α β ι : Type}

/-- The steps of a transaction. -/
inductive Program (σ τ ε α : Type) : Type
  | done (a : α)
  | raised (e : ε)
  | clock (k : τ → Program σ τ ε α)
  | query (k : σ → Program σ τ ε α)
  | statement (st : σ → σ × Bool) (k : Bool → Program σ τ ε α)

namespace Program

def bind : Program σ τ ε α → (α → Program σ τ ε β) → Program σ τ ε β
  | done a, f => f a
  | raised e, _ => raised e
  | clock k, f => clock fun t => (k t).bind f
  | query k, f => query fun s => (k s).bind f
  | statement st k, f => statement st fun b => (k b).bind f

instance : Monad (Program σ τ ε) where
  pure := done
  bind := bind

theorem bind_done (p : Program σ τ ε α) : id <$> p = p := by
  show p.bind (fun a => done a) = p
  induction p with
  | done a => rfl
  | raised e => rfl
  | clock k ih => exact congrArg clock (funext ih)
  | query k ih => exact congrArg query (funext ih)
  | statement st k ih => exact congrArg (statement st) (funext ih)

theorem bind_bind {γ : Type} (p : Program σ τ ε α) (f : α → Program σ τ ε β) (g : β → Program σ τ ε γ) :
    p >>= f >>= g = p >>= fun a => f a >>= g := by
  show (p.bind f).bind g = p.bind fun a => (f a).bind g
  induction p with
  | done a => rfl
  | raised e => rfl
  | clock k ih => exact congrArg clock (funext ih)
  | query k ih => exact congrArg query (funext ih)
  | statement st k ih => exact congrArg (statement st) (funext ih)

instance : LawfulMonad (Program σ τ ε) := LawfulMonad.mk' _ bind_done (fun _ _ => rfl) bind_bind

/-- Read the clock. -/
def now : Program σ τ ε τ := clock done

/-- Read the state. -/
def ask (f : σ → α) : Program σ τ ε α := query fun s => done (f s)

def ofExcept : Except ε α → Program σ τ ε α
  | .ok a => done a
  | .error e => raised e

/-- Read the state by a computation that may raise. -/
def check (f : σ → Except ε α) : Program σ τ ε α := query fun s => ofExcept (f s)

/-- Execute one guarded statement. -/
def guarded (st : σ → σ × Bool) : Program σ τ ε Bool := statement st done

/-- Raise `e` unless `c` holds. -/
def demand (c : Bool) (e : ε) : Program σ τ ε Unit := if c then done () else raised e

/-- The value of an optional read, or `e`. -/
def demandSome : Option α → ε → Program σ τ ε α
  | some a, _ => done a
  | none, e => raised e

/-- The program alone: a transaction that takes its clock readings from `c`. -/
def run (c : ℕ → τ) : Program σ τ ε α → Tx σ ε α
  | done a => fun ss => .ok (a, ss)
  | raised e => fun _ => .error e
  | clock k => run (fun i => c (i + 1)) (k (c 0))
  | query k => fun ss => run c (k ss.db) ss
  | statement st k => fun ss => run c (k (st ss.db).2) (ss.push (st ss.db).1)

/-- No clock reading is left. -/
def ClockFree : Program σ τ ε α → Prop
  | done _ | raised _ => True
  | clock _ => False
  | query k => ∀ s, ClockFree (k s)
  | statement _ k => ∀ b, ClockFree (k b)

/-! ## Running alone -/

section run

variable {c : ℕ → τ} {ss : Session σ}

/-- After a program without clock readings, the next one has all of them. -/
theorem run_bind {p : Program σ τ ε α} {f : α → Program σ τ ε β} (hp : p.ClockFree) :
    run c (p >>= f) ss = (run c p >>= fun a => run c (f a)) ss := by
  induction p generalizing ss with
  | done a => rfl
  | raised e => rfl
  | clock k => exact hp.elim
  | query k ih => exact ih ss.db (hp ss.db)
  | statement st k ih => exact ih (st ss.db).2 (hp _)

/-- What is done with the result at the end reads no clock. -/
theorem run_bind_pure {p : Program σ τ ε α} {g : α → β} :
    run c (p >>= fun a => pure (g a)) ss = (run c p >>= fun a => pure (g a)) ss := by
  induction p generalizing ss c with
  | done a => rfl
  | raised e => rfl
  | clock k ih => exact ih (c 0)
  | query k ih => exact ih ss.db
  | statement st k ih => exact ih (st ss.db).2

theorem ClockFree.bind {p : Program σ τ ε α} {f : α → Program σ τ ε β} (hp : p.ClockFree)
    (hf : ∀ a, (f a).ClockFree) : (p >>= f).ClockFree := by
  induction p with
  | done a => exact hf a
  | raised e => trivial
  | clock k => exact hp.elim
  | query k ih => exact fun s => ih s (hp s)
  | statement st k ih => exact fun b => ih b (hp b)

@[simp] theorem run_pure {a : α} : run c (pure a : Program σ τ ε α) = (pure a : Tx σ ε α) := rfl

@[simp] theorem run_now_bind {f : τ → Program σ τ ε β} :
    run c (now >>= f) ss = run (fun i => c (i + 1)) (f (c 0)) ss := rfl

@[simp] theorem run_ask_bind {g : σ → α} {f : α → Program σ τ ε β} :
    run c (ask g >>= f) ss = run c (f (g ss.db)) ss := rfl

@[simp] theorem run_guarded_bind {st : σ → σ × Bool} {f : Bool → Program σ τ ε β} :
    run c (guarded st >>= f) ss = run c (f (st ss.db).2) (ss.push (st ss.db).1) := rfl

theorem run_check {g : σ → Except ε α} : run c (check g : Program σ τ ε α) = Transaction.query g := by
  funext ss
  show run c (ofExcept (g ss.db)) ss = Transaction.query g ss
  unfold Transaction.query
  cases g ss.db <;> rfl

theorem run_check_bind {g : σ → Except ε α} {f : α → Program σ τ ε β} :
    run c (check g >>= f) ss = (Transaction.query g >>= fun a => run c (f a)) ss := by
  have hfree : (check g : Program σ τ ε α).ClockFree := by
    intro s
    show (ofExcept (g s) : Program σ τ ε α).ClockFree
    cases g s <;> trivial
  rw [run_bind hfree, run_check]

theorem run_demand_bind {b : Bool} {e : ε} {f : Unit → Program σ τ ε β} :
    run c (demand b e >>= f) ss = (require b e >>= fun u => run c (f u)) ss := by
  cases b <;> rfl

theorem run_demandSome_bind {o : Option α} {e : ε} {f : α → Program σ τ ε β} :
    run c (demandSome o e >>= f) ss = (Transaction.requireSome o e >>= fun a => run c (f a)) ss := by
  cases o <;> rfl

end run

/-! ## Rely and guarantee -/

section Ensures

variable [Preorder τ] (I : σ → Prop) (R : σ → σ → Prop) (G : τ → σ → α → σ → Prop)

/-- At time `t` and with `s` as the last state seen: if only `R`-steps between states of `I` are
committed meanwhile, what the program commits at some time `T` is covered by `G T`. -/
def Ensures : τ → σ → Program σ τ ε α → Prop
  | t, s, done a => ∀ T s', t ≤ T → I s' → R s s' → G T s' a s'
  | _, _, raised _ => True
  | t, s, clock k => ∀ t', t ≤ t' → Ensures t' s (k t')
  | t, s, query k => ∀ s', I s' → R s s' → Ensures t s' (k s')
  | t, s, statement st k => ∀ c T ss a ss', t ≤ T → (∀ j, c j ≤ T) → I ss.db → R s ss.db →
      run c (statement st k) ss = .ok (a, ss') → G T ss.db a ss'.db

variable {I R G}

/-- Time passes and other programs commit. -/
theorem Ensures.later (hrefl : ∀ x, I x → R x x) (htrans : ∀ {x y z}, R x y → R y z → R x z) {p : Program σ τ ε α}
    {t t' : τ} {s s' : σ} (h : Ensures I R G t s p) (ht : t ≤ t') (hs : R s s') : Ensures I R G t' s' p := by
  induction p generalizing t t' s s' with
  | done a => exact fun T x hT hx hR => h T x (le_trans ht hT) hx (htrans hs hR)
  | raised e => trivial
  | clock k ih => exact fun u hu => ih u (h u (le_trans ht hu)) le_rfl hs
  | query k ih => exact fun x hx hR => ih x (h x hx (htrans hs hR)) ht (hrefl x hx)
  | statement st k ih =>
    exact fun c T ss a ss' hT hc hi hR hrun => h c T ss a ss' (le_trans ht hT) hc hi (htrans hs hR) hrun

theorem ensures_now {f : τ → Program σ τ ε α} {t : τ} {s : σ} (h : ∀ t', t ≤ t' → Ensures I R G t' s (f t')) :
    Ensures I R G t s (now >>= f) := h

theorem ensures_ask {g : σ → β} {f : β → Program σ τ ε α} {t : τ} {s : σ}
    (h : ∀ s', I s' → R s s' → Ensures I R G t s' (f (g s'))) : Ensures I R G t s (ask g >>= f) := h

theorem ensures_check {g : σ → Except ε β} {f : β → Program σ τ ε α} {t : τ} {s : σ}
    (h : ∀ s' b, I s' → R s s' → g s' = .ok b → Ensures I R G t s' (f b)) : Ensures I R G t s (check g >>= f) := by
  intro s' hi hR
  show Ensures I R G t s' (Program.bind (ofExcept (g s')) f)
  cases hg : g s' with
  | error e => trivial
  | ok b => exact h s' b hi hR hg

theorem ensures_demand {c : Bool} {e : ε} {f : Unit → Program σ τ ε α} {t : τ} {s : σ}
    (h : c = true → Ensures I R G t s (f ())) : Ensures I R G t s (demand c e >>= f) := by
  cases c with
  | false => trivial
  | true => exact h rfl

theorem ensures_demandSome {o : Option β} {e : ε} {f : β → Program σ τ ε α} {t : τ} {s : σ}
    (h : ∀ b, o = some b → Ensures I R G t s (f b)) : Ensures I R G t s (demandSome o e >>= f) := by
  cases o with
  | none => trivial
  | some b => exact h b rfl

theorem ensures_ofExcept {x : Except ε β} {f : β → Program σ τ ε α} {t : τ} {s : σ}
    (h : ∀ b, x = .ok b → Ensures I R G t s (f b)) : Ensures I R G t s (ofExcept x >>= f) := by
  cases x with
  | error e => trivial
  | ok b => exact h b rfl

/-- From the first statement on the program runs alone. -/
theorem ensures_statement {p : Program σ τ ε α} {t : τ} {s : σ} (hp : ∃ st k, p = statement st k)
    (h : ∀ c T ss a ss', t ≤ T → I ss.db → R s ss.db → run c p ss = .ok (a, ss') → G T ss.db a ss'.db) :
    Ensures I R G t s p := by
  obtain ⟨st, k, rfl⟩ := hp
  exact fun c T ss a ss' hT _ hi hR hrun => h c T ss a ss' hT hi hR hrun

theorem ensures_guarded {st : σ → σ × Bool} {f : Bool → Program σ τ ε α} {t : τ} {s : σ}
    (h : ∀ c T ss a ss', t ≤ T → I ss.db → R s ss.db → run c (guarded st >>= f) ss = .ok (a, ss') →
      G T ss.db a ss'.db) : Ensures I R G t s (guarded st >>= f) :=
  ensures_statement ⟨_, _, rfl⟩ h

/-- What is done with the result at the end commits nothing. -/
theorem ensures_bind_pure {G : τ → σ → β → σ → Prop} {p : Program σ τ ε α} {g : α → β} {t : τ} {s : σ}
    (h : Ensures I R (fun T x a y => G T x (g a) y) t s p) : Ensures I R G t s (p >>= fun a => pure (g a)) := by
  induction p generalizing t s with
  | done a => exact h
  | raised e => trivial
  | clock k ih => exact fun t' ht => ih t' (h t' ht)
  | query k ih => exact fun x hx hR => ih x (h x hx hR)
  | statement st k ih =>
    intro c T ss b ss' hT hc hi hR hrun
    have hrun' : (run c (statement st k) >>= fun a => pure (g a)) ss = .ok (b, ss') := by
      rw [← run_bind_pure]; exact hrun
    simp only [bind_ok, pure_ok] at hrun'
    obtain ⟨a, _, hrun', rfl, rfl⟩ := hrun'
    exact h c T ss a _ hT hc hi hR hrun'

end Ensures

end Program

/-! ## Machines -/

/-- A program in progress. -/
inductive Task (σ τ ε α : Type) : Type
  /-- It has written nothing yet. -/
  | reading (p : Program σ τ ε α)
  /-- It holds the write slot; the session is its own view. -/
  | writing (p : Program σ τ ε α) (ss : Session σ)
  | finished (r : Except ε α)

/-- A program that did not raise: the committed state before and after. -/
structure Commit (ι σ τ α : Type) where
  index : ι
  time : τ
  before : σ
  result : α
  after : σ

structure Machine (ι σ τ ε α : Type) where
  session : Session σ
  now : τ
  writer : Option ι
  tasks : ι → Task σ τ ε α
  /-- Newest first. -/
  log : List (Commit ι σ τ α)

/-- What the scheduler can do. -/
inductive Turn (ι τ : Type) : Type
  | tick (t : τ)
  | step (i : ι)
  | abort (i : ι)

namespace Machine

variable [DecidableEq ι]

def setTask (m : Machine ι σ τ ε α) (i : ι) (t : Task σ τ ε α) : Machine ι σ τ ε α :=
  { m with tasks := Function.update m.tasks i t }

@[simp] theorem setTask_self (m : Machine ι σ τ ε α) (i : ι) (t : Task σ τ ε α) : (m.setTask i t).tasks i = t := by
  simp [setTask]

theorem setTask_of_ne (m : Machine ι σ τ ε α) {i j : ι} (hj : j ≠ i) (t : Task σ τ ε α) :
    (m.setTask i t).tasks j = m.tasks j := by
  simp [setTask, Function.update_of_ne hj]

/-- Task `i` ends without a result; if it held the write slot, its statements are lost. -/
def fail (m : Machine ι σ τ ε α) (i : ι) (e : ε) : Machine ι σ τ ε α :=
  { m.setTask i (.finished (.error e)) with writer := if m.writer = some i then none else m.writer }

/-- Task `i` ends with a result; what it wrote is now the committed state. -/
def succeed (m : Machine ι σ τ ε α) (i : ι) (a : α) (ss : Session σ) : Machine ι σ τ ε α :=
  { m.setTask i (.finished (.ok a)) with
    session := ss
    writer := if m.writer = some i then none else m.writer
    log := ⟨i, m.now, m.session.db, a, ss.db⟩ :: m.log }

theorem fail_tasks (m : Machine ι σ τ ε α) (i : ι) (e : ε) :
    (m.fail i e).tasks = (m.setTask i (.finished (.error e))).tasks := rfl

theorem succeed_tasks (m : Machine ι σ τ ε α) (i : ι) (a : α) (ss : Session σ) :
    (m.succeed i a ss).tasks = (m.setTask i (.finished (.ok a))).tasks := rfl

/-- One step of task `i`; a first statement waits for the write slot. -/
def stepTask (m : Machine ι σ τ ε α) (i : ι) : Machine ι σ τ ε α :=
  match m.tasks i with
  | .finished _ => m
  | .reading (.done a) => m.succeed i a m.session
  | .reading (.raised e) => m.fail i e
  | .reading (.clock k) => m.setTask i (.reading (k m.now))
  | .reading (.query k) => m.setTask i (.reading (k m.session.db))
  | .reading (.statement st k) =>
    if m.writer = none then
      { m.setTask i (.writing (k (st m.session.db).2) (m.session.push (st m.session.db).1)) with writer := some i }
    else m
  | .writing (.done a) ss => m.succeed i a ss
  | .writing (.raised e) _ => m.fail i e
  | .writing (.clock k) ss => m.setTask i (.writing (k m.now) ss)
  | .writing (.query k) ss => m.setTask i (.writing (k ss.db) ss)
  | .writing (.statement st k) ss => m.setTask i (.writing (k (st ss.db).2) (ss.push (st ss.db).1))

/-- One turn. The clock never goes back; an abort raises `aborted` in a task that has not ended. -/
def turn [Max τ] (aborted : ε) (m : Machine ι σ τ ε α) : Turn ι τ → Machine ι σ τ ε α
  | .tick t => { m with now := max m.now t }
  | .step i => m.stepTask i
  | .abort i =>
    match m.tasks i with
    | .finished _ => m
    | _ => m.fail i aborted

def runTurns [Max τ] (aborted : ε) (m : Machine ι σ τ ε α) (turns : List (Turn ι τ)) : Machine ι σ τ ε α :=
  turns.foldl (turn aborted) m

/-- All programs at their first step. -/
def start (ss : Session σ) (now : τ) (programs : ι → Program σ τ ε α) : Machine ι σ τ ε α :=
  { session := ss, now := now, writer := none, tasks := fun i => .reading (programs i), log := [] }

/-! ## Every interleaving keeps the guarantees -/

/-- The commits lead from `s₀` to `s`. -/
def History (s₀ : σ) : List (Commit ι σ τ α) → σ → Prop
  | [], s => s = s₀
  | c :: log, s => c.after = s ∧ History s₀ log c.before

/-- Every commit is covered by the guarantee of its program, and a program commits if and only if it
ends with a result. -/
structure Sound [Preorder τ] (I : σ → Prop) (R : σ → σ → Prop) (G : ι → τ → σ → α → σ → Prop) (s₀ : σ)
    (m : Machine ι σ τ ε α) : Prop where
  state : I m.session.db
  reading : ∀ i p, m.tasks i = .reading p → p.Ensures I R (G i) m.now m.session.db
  writing : ∀ i p ss, m.tasks i = .writing p ss → m.writer = some i ∧
    ∀ c T a ss', m.now ≤ T → (∀ j, c j ≤ T) → p.run c ss = .ok (a, ss') → G i T m.session.db a ss'.db
  commits : ∀ c ∈ m.log, I c.before ∧ G c.index c.time c.before c.result c.after
  ended : ∀ i a, m.tasks i = .finished (.ok a) ↔ ∃ c ∈ m.log, c.index = i ∧ c.result = a
  once : (m.log.map Commit.index).Nodup
  history : History s₀ m.log m.session.db

omit [DecidableEq ι] in
/-- Along a history whose commits are all `R`-steps, each commit builds on the start and on every earlier one. -/
theorem History.related {I : σ → Prop} {R : σ → σ → Prop} (hrefl : ∀ x, I x → R x x)
    (htrans : ∀ {x y z}, R x y → R y z → R x z) {s₀ s : σ} {log : List (Commit ι σ τ α)} (h : History s₀ log s)
    (hs₀ : I s₀) (hlog : ∀ c ∈ log, I c.after ∧ R c.before c.after) :
    R s₀ s ∧ (∀ c ∈ log, R s₀ c.before ∧ R c.after s) ∧ log.Pairwise fun later earlier => R earlier.after later.before := by
  induction log generalizing s with
  | nil =>
    obtain rfl : s = s₀ := h
    exact ⟨hrefl _ hs₀, by simp, List.Pairwise.nil⟩
  | cons c log ih =>
    obtain ⟨rfl, h⟩ := h
    obtain ⟨hi, hR⟩ := hlog c List.mem_cons_self
    obtain ⟨hstart, hall, hpair⟩ := ih h fun d hd => hlog d (List.mem_cons_of_mem _ hd)
    refine ⟨htrans hstart hR, ?_, List.pairwise_cons.2 ⟨fun d hd => (hall d hd).2, hpair⟩⟩
    intro d hd
    rcases List.mem_cons.1 hd with rfl | hd
    · exact ⟨hstart, hrefl _ hi⟩
    · exact ⟨(hall d hd).1, htrans (hall d hd).2 hR⟩

omit [DecidableEq ι] in
/-- Between two commits of a history lies what was committed between them. -/
theorem History.between {s₀ s : σ} {newer older : List (Commit ι σ τ α)} {c : Commit ι σ τ α}
    (h : History s₀ (newer ++ c :: older) s) : History c.after newer s ∧ History s₀ (c :: older) c.after := by
  induction newer generalizing s with
  | nil =>
    obtain ⟨rfl, h⟩ := h
    exact ⟨rfl, rfl, h⟩
  | cons d newer ih =>
    obtain ⟨rfl, h⟩ := h
    obtain ⟨h₁, h₂⟩ := ih h
    exact ⟨⟨rfl, h₁⟩, h₂⟩

section Sound

variable [LinearOrder τ] {I : σ → Prop} {R : σ → σ → Prop} {G : ι → τ → σ → α → σ → Prop} {s₀ : σ}
  {m : Machine ι σ τ ε α} {i : ι} {aborted : ε}

omit [DecidableEq ι] in
/-- A task that has not ended is not in the log. -/
theorem Sound.not_logged (h : m.Sound I R G s₀) (hlive : ∀ r, m.tasks i ≠ .finished r) :
    ∀ c ∈ m.log, c.index ≠ i := by
  rintro c hc rfl
  exact hlive _ ((h.ended c.index c.result).2 ⟨c, hc, rfl, rfl⟩)

/-- Task `i` goes on, or ends with an exception. -/
theorem Sound.ended_setTask (h : m.Sound I R G s₀) (hlive : ∀ r, m.tasks i ≠ .finished r) {t : Task σ τ ε α}
    (ht : ∀ a, t ≠ .finished (.ok a)) (j : ι) (a : α) :
    (m.setTask i t).tasks j = .finished (.ok a) ↔ ∃ c ∈ m.log, c.index = j ∧ c.result = a := by
  by_cases hj : j = i
  · subst hj
    rw [setTask_self]
    constructor
    · intro he; exact absurd he (ht a)
    · rintro ⟨c, hc, hci, -⟩; exact absurd hci (h.not_logged hlive c hc)
  · rw [setTask_of_ne m hj]; exact h.ended j a

theorem Sound.setReading (h : m.Sound I R G s₀) (hlive : ∀ r, m.tasks i ≠ .finished r) {p : Program σ τ ε α}
    (hp : p.Ensures I R (G i) m.now m.session.db) : (m.setTask i (.reading p)).Sound I R G s₀ := by
  refine { h with reading := ?_, writing := ?_, ended := h.ended_setTask hlive (fun a he => by cases he) }
  · intro j q hq
    by_cases hj : j = i
    · subst hj
      rw [setTask_self] at hq
      obtain rfl := Task.reading.inj hq
      exact hp
    · rw [setTask_of_ne m hj] at hq; exact h.reading j q hq
  · intro j q ss hq
    by_cases hj : j = i
    · subst hj; rw [setTask_self] at hq; cases hq
    · rw [setTask_of_ne m hj] at hq; exact h.writing j q ss hq

theorem Sound.setWriting (h : m.Sound I R G s₀) (hlive : ∀ r, m.tasks i ≠ .finished r)
    (hslot : m.writer = none ∨ m.writer = some i) {p : Program σ τ ε α} {ss : Session σ}
    (hp : ∀ c T a ss', m.now ≤ T → (∀ j, c j ≤ T) → p.run c ss = .ok (a, ss') → G i T m.session.db a ss'.db) :
    Sound I R G s₀ { m.setTask i (.writing p ss) with writer := some i } := by
  refine { h with reading := ?_, writing := ?_, ended := h.ended_setTask hlive (fun a he => by cases he) }
  · intro j q hq
    by_cases hj : j = i
    · subst hj
      change (m.setTask j (.writing p ss)).tasks j = _ at hq
      rw [setTask_self] at hq; cases hq
    · change (m.setTask i (.writing p ss)).tasks j = _ at hq
      rw [setTask_of_ne m hj] at hq; exact h.reading j q hq
  · intro j q ss' hq
    by_cases hj : j = i
    · subst hj
      change (m.setTask j (.writing p ss)).tasks j = _ at hq
      rw [setTask_self] at hq
      obtain ⟨rfl, rfl⟩ := Task.writing.inj hq
      exact ⟨rfl, hp⟩
    · -- nobody else holds the slot
      change (m.setTask i (.writing p ss)).tasks j = _ at hq
      rw [setTask_of_ne m hj] at hq
      have hw := (h.writing j q ss' hq).1
      rcases hslot with hslot | hslot
      · rw [hslot] at hw; cases hw
      · rw [hslot] at hw; exact absurd (Option.some.inj hw).symm hj

theorem Sound.fail (h : m.Sound I R G s₀) (hlive : ∀ r, m.tasks i ≠ .finished r) (e : ε) :
    (m.fail i e).Sound I R G s₀ := by
  refine { h with
    reading := ?_, writing := ?_
    ended := h.ended_setTask hlive (t := .finished (.error e)) (fun a he => by cases he) }
  · intro j q hq
    by_cases hj : j = i
    · subst hj; rw [fail_tasks, setTask_self] at hq; cases hq
    · rw [fail_tasks, setTask_of_ne m hj] at hq; exact h.reading j q hq
  · intro j q ss hq
    by_cases hj : j = i
    · subst hj; rw [fail_tasks, setTask_self] at hq; cases hq
    · rw [fail_tasks, setTask_of_ne m hj] at hq
      obtain ⟨hw, hG⟩ := h.writing j q ss hq
      refine ⟨?_, hG⟩
      show (if m.writer = some i then none else m.writer) = some j
      rw [hw, if_neg fun he => hj (Option.some.inj he)]

/-- The log after one more commit names the tasks that ended with a result. -/
theorem Sound.ended_succeed (h : m.Sound I R G s₀) (hlive : ∀ r, m.tasks i ≠ .finished r) {a : α} {ss : Session σ}
    (j : ι) (b : α) :
    (m.succeed i a ss).tasks j = .finished (.ok b) ↔ ∃ c ∈ (m.succeed i a ss).log, c.index = j ∧ c.result = b := by
  have hnew := h.not_logged hlive
  by_cases hj : j = i
  · subst hj
    rw [succeed_tasks, setTask_self]
    constructor
    · intro he
      obtain rfl : a = b := by simpa using he
      exact ⟨_, List.mem_cons_self, rfl, rfl⟩
    · rintro ⟨c, hc, hci, rfl⟩
      rcases List.mem_cons.1 hc with rfl | hc
      · rfl
      · exact absurd hci (hnew c hc)
  · rw [succeed_tasks, setTask_of_ne m hj, h.ended j b]
    constructor
    · rintro ⟨c, hc, hci, hb⟩; exact ⟨c, List.mem_cons_of_mem _ hc, hci, hb⟩
    · rintro ⟨c, hc, hci, hb⟩
      rcases List.mem_cons.1 hc with rfl | hc
      · exact absurd hci.symm hj
      · exact ⟨c, hc, hci, hb⟩

section Run

variable (hrefl : ∀ x, I x → R x x) (htrans : ∀ {x y z}, R x y → R y z → R x z)
  (hG : ∀ {i T s a s'}, I s → G i T s a s' → I s' ∧ R s s')

include hrefl htrans hG

/-- **A commit is one more covered step, and the other programs see it as one they rely on.** -/
theorem Sound.succeed (h : m.Sound I R G s₀) (hlive : ∀ r, m.tasks i ≠ .finished r) {a : α} {ss : Session σ}
    (hss : m.writer = some i ∨ ss = m.session) (hcov : G i m.now m.session.db a ss.db) :
    (m.succeed i a ss).Sound I R G s₀ := by
  obtain ⟨hi, hR⟩ := hG h.state hcov
  refine
    { state := hi, reading := ?_, writing := ?_, commits := ?_, ended := h.ended_succeed hlive, once := ?_
      history := ⟨rfl, h.history⟩ }
  · intro j q hq
    by_cases hj : j = i
    · subst hj; rw [succeed_tasks, setTask_self] at hq; cases hq
    · rw [succeed_tasks, setTask_of_ne m hj] at hq
      exact (h.reading j q hq).later hrefl htrans le_rfl hR
  · intro j q ss' hq
    by_cases hj : j = i
    · subst hj; rw [succeed_tasks, setTask_self] at hq; cases hq
    · rw [succeed_tasks, setTask_of_ne m hj] at hq
      obtain ⟨hw, hold⟩ := h.writing j q ss' hq
      -- another task holds the slot, so this one has written nothing
      have hne : m.writer ≠ some i := by rw [hw]; exact fun he => hj (Option.some.inj he)
      have hsame : ss = m.session := hss.resolve_left hne
      refine ⟨?_, ?_⟩
      · show (if m.writer = some i then none else m.writer) = some j
        rw [if_neg hne, hw]
      · rw [show (m.succeed i a ss).session = m.session from hsame]; exact hold
  · intro c hc
    rcases List.mem_cons.1 hc with rfl | hc
    · exact ⟨h.state, hcov⟩
    · exact h.commits c hc
  · refine List.nodup_cons.2 ⟨fun hm => ?_, h.once⟩
    obtain ⟨c, hc, hci⟩ := List.mem_map.1 hm
    exact h.not_logged hlive c hc hci

theorem Sound.stepTask (h : m.Sound I R G s₀) : (m.stepTask i).Sound I R G s₀ := by
  unfold Machine.stepTask
  cases ht : m.tasks i with
  | finished r => exact h
  | reading p =>
    have hlive : ∀ r, m.tasks i ≠ .finished r := by rw [ht]; intro r he; cases he
    have hp := h.reading i p ht
    cases p with
    | done a => exact h.succeed hrefl htrans hG hlive (Or.inr rfl) (hp m.now _ le_rfl h.state (hrefl _ h.state))
    | raised e => exact h.fail hlive e
    | clock k => exact h.setReading hlive (hp m.now le_rfl)
    | query k => exact h.setReading hlive (hp m.session.db h.state (hrefl _ h.state))
    | statement st k =>
      show Sound I R G s₀ (if m.writer = none then _ else m)
      split
      · rename_i hw
        exact h.setWriting hlive (Or.inl hw) fun c T a ss' hT hc hrun =>
          hp c T m.session a ss' hT hc h.state (hrefl _ h.state) hrun
      · exact h
  | writing p ss =>
    have hlive : ∀ r, m.tasks i ≠ .finished r := by rw [ht]; intro r he; cases he
    obtain ⟨hw, hp⟩ := h.writing i p ss ht
    -- the slot stays where it is
    have hset : ∀ t, m.setTask i t = { m.setTask i t with writer := some i } := by
      intro t
      show m.setTask i t = { m.setTask i t with writer := some i }
      rw [← hw]; rfl
    cases p with
    | done a => exact h.succeed hrefl htrans hG hlive (Or.inl hw) (hp (fun _ => m.now) m.now a ss le_rfl (fun _ => le_rfl) rfl)
    | raised e => exact h.fail hlive e
    | clock k =>
      show Sound I R G s₀ (m.setTask i (.writing (k m.now) ss))
      rw [hset]
      refine h.setWriting hlive (Or.inr hw) fun c T a ss' hT hc hrun => ?_
      refine hp (fun j => if j = 0 then m.now else c (j - 1)) T a ss' hT (fun j => ?_) ?_
      · show (if j = 0 then m.now else c (j - 1)) ≤ T
        split
        · exact hT
        · exact hc _
      · simpa [Program.run] using hrun
    | query k =>
      show Sound I R G s₀ (m.setTask i (.writing (k ss.db) ss))
      rw [hset]
      exact h.setWriting hlive (Or.inr hw) fun c T a ss' hT hc hrun => hp c T a ss' hT hc hrun
    | statement st k =>
      show Sound I R G s₀ (m.setTask i (.writing (k (st ss.db).2) (ss.push (st ss.db).1)))
      rw [hset]
      exact h.setWriting hlive (Or.inr hw) fun c T a ss' hT hc hrun => hp c T a ss' hT hc hrun

theorem Sound.turn (h : m.Sound I R G s₀) (u : Turn ι τ) : (m.turn aborted u).Sound I R G s₀ := by
  cases u with
  | tick t =>
    have hle : m.now ≤ max m.now t := le_max_left _ _
    refine { h with reading := ?_, writing := ?_ }
    · exact fun i p hp => (h.reading i p hp).later hrefl htrans hle (hrefl _ h.state)
    · intro i p ss hp
      obtain ⟨hw, hG'⟩ := h.writing i p ss hp
      exact ⟨hw, fun c T a ss' hT hc hrun => hG' c T a ss' (le_trans hle hT) hc hrun⟩
  | step i => exact h.stepTask hrefl htrans hG
  | abort i =>
    unfold Machine.turn
    cases ht : m.tasks i with
    | finished r => simpa [ht] using h
    | reading p =>
      have hlive : ∀ r, m.tasks i ≠ .finished r := by rw [ht]; intro r he; cases he
      simpa [ht] using h.fail hlive aborted
    | writing p ss =>
      have hlive : ∀ r, m.tasks i ≠ .finished r := by rw [ht]; intro r he; cases he
      simpa [ht] using h.fail hlive aborted

/-- **In every interleaving, every commit is covered by the guarantee of its program.** -/
theorem Sound.run (h : m.Sound I R G s₀) (turns : List (Turn ι τ)) : (m.runTurns aborted turns).Sound I R G s₀ := by
  unfold runTurns
  induction turns generalizing m with
  | nil => exact h
  | cons u turns ih => exact ih (h.turn hrefl htrans hG u)

end Run

omit [DecidableEq ι] in
theorem Sound.start {ss : Session σ} {now : τ} {programs : ι → Program σ τ ε α} (hi : I ss.db)
    (h : ∀ i, (programs i).Ensures I R (G i) now ss.db) : (start ss now programs).Sound I R G ss.db := by
  refine
    { state := hi, reading := ?_, writing := ?_, commits := ?_, ended := ?_, once := List.nodup_nil, history := rfl }
  · rintro i p hp
    obtain rfl := Task.reading.inj hp
    exact h i
  · intro i p ss' hp; cases hp
  · intro c hc; cases hc
  · intro i a
    constructor
    · intro he; cases he
    · rintro ⟨c, hc, -⟩; cases hc

end Sound

end Machine

end Transaction
