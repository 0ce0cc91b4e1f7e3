import Switchboard.Lib.Program

/-!
# Programs that rely on more than they are promised

A program may rely on a relation that not every other program keeps. Its guarantee then
holds in the runs in which nothing is committed against that relation while it relies on
it. A program that has read nothing yet relies on nothing (`fresh`).

* `Program.Moves`: every statement moves along a preorder, so the whole program does.
* `Machine.Quiet`: no commit of the run breaks what another program relies on.
* `Machine.Covered.run`: in a quiet run, every commit is covered by the guarantee of its
  program.
-/

namespace Transaction

variable {σ τ ε α β ι : Type}

namespace Program

/-! ## Statements along a preorder -/

section Moves

variable {K : σ → σ → Prop}

/-- Every statement of the program moves along `K`. -/
def Moves (K : σ → σ → Prop) : Program σ τ ε α → Prop
  | done _ | raised _ => True
  | clock k => ∀ t, Moves K (k t)
  | query k => ∀ s, Moves K (k s)
  | statement st k => (∀ s, K s (st s).1) ∧ ∀ b, Moves K (k b)

theorem Moves.bind {p : Program σ τ ε α} {f : α → Program σ τ ε β} (hp : p.Moves K) (hf : ∀ a, (f a).Moves K) :
    (p >>= f).Moves K := by
  induction p with
  | done a => exact hf a
  | raised e => trivial
  | clock k ih => exact fun t => ih t (hp t)
  | query k ih => exact fun s => ih s (hp s)
  | statement st k ih => exact ⟨hp.1, fun b => ih b (hp.2 b)⟩

theorem moves_true (p : Program σ τ ε α) : p.Moves fun _ _ => True := by
  induction p with
  | done a => trivial
  | raised e => trivial
  | clock k ih => exact ih
  | query k ih => exact ih
  | statement st k ih => exact ⟨fun _ => trivial, ih⟩

theorem Moves.run (hrefl : ∀ s, K s s) (htrans : ∀ {x y z}, K x y → K y z → K x z) {p : Program σ τ ε α}
    (hp : p.Moves K) {c : ℕ → τ} {ss ss' : Session σ} {a : α} (h : run c p ss = .ok (a, ss')) : K ss.db ss'.db := by
  induction p generalizing c ss with
  | done b =>
    obtain ⟨-, rfl⟩ := Prod.mk.inj (Except.ok.inj h)
    exact hrefl _
  | raised e => cases h
  | clock k ih => exact ih _ (hp _) h
  | query k ih => exact ih _ (hp _) h
  | statement st k ih => exact htrans (hp.1 ss.db) (ih _ (hp.2 _) h)

/-- Such a program guarantees `K`, whatever the others do. -/
theorem Moves.ensures [Preorder τ] (hrefl : ∀ s, K s s) (htrans : ∀ {x y z}, K x y → K y z → K x z)
    {I : σ → Prop} {R : σ → σ → Prop} {G : τ → σ → α → σ → Prop} (hG : ∀ {T s a s'}, K s s' → G T s a s')
    {p : Program σ τ ε α} (hp : p.Moves K) (t : τ) (s : σ) : p.Ensures I R G t s := by
  induction p generalizing t s with
  | done a => exact fun T s' _ _ _ => hG (hrefl s')
  | raised e => trivial
  | clock k ih => exact fun t' _ => ih t' (hp t') t' s
  | query k ih => exact fun s' _ _ => ih s' (hp s') t s'
  | statement st k ih =>
    exact fun c T ss a ss' _ _ _ _ hrun => hG (Moves.run hrefl htrans (p := statement st k) hp hrun)

end Moves

end Program

namespace Machine

variable [DecidableEq ι]

/-! ## Quiet runs -/

/-- The rely relation of every task, and the programs that rely on nothing yet. -/
structure Relies (ι σ τ ε α : Type) where
  rel : ι → σ → σ → Prop
  fresh : ι → Program σ τ ε α → Prop

/-- **Nothing is committed against what a reading task relies on.** -/
def Quiet [Max τ] (aborted : ε) (R : Relies ι σ τ ε α) : Machine ι σ τ ε α → List (Turn ι τ) → Prop
  | _, [] => True
  | m, u :: turns =>
    (∀ j p, m.tasks j = .reading p → ¬ R.fresh j p → R.rel j m.session.db (m.turn aborted u).session.db) ∧
      Quiet aborted R (m.turn aborted u) turns

/-- Every commit is covered by the guarantee of its program. -/
structure Covered [Preorder τ] (R : Relies ι σ τ ε α) (G : ι → τ → σ → α → σ → Prop) (m : Machine ι σ τ ε α) :
    Prop where
  reading : ∀ i p, m.tasks i = .reading p → p.Ensures (fun _ => True) (R.rel i) (G i) m.now m.session.db
  writing : ∀ i p ss, m.tasks i = .writing p ss → m.writer = some i ∧
    ∀ c T a ss', m.now ≤ T → (∀ j, c j ≤ T) → p.run c ss = .ok (a, ss') → G i T m.session.db a ss'.db
  commits : ∀ c ∈ m.log, G c.index c.time c.before c.result c.after

section Covered

variable [LinearOrder τ] {R : Relies ι σ τ ε α} {G : ι → τ → σ → α → σ → Prop} {m : Machine ι σ τ ε α} {i : ι}
  {aborted : ε}

/-- Task `i` goes on reading. -/
theorem Covered.setReading (h : m.Covered R G) {p : Program σ τ ε α}
    (hp : p.Ensures (fun _ => True) (R.rel i) (G i) m.now m.session.db) :
    (m.setTask i (.reading p)).Covered R G := by
  refine { h with reading := ?_, writing := ?_ }
  · intro j q hq
    by_cases hj : j = i
    · subst hj
      rw [setTask_self] at hq
      obtain rfl := Task.reading.inj hq
      exact hp
    · rw [setTask_of_ne m hj] at hq; exact h.reading j q hq
  · intro j q ss hq
    by_cases hj : j = i
    · subst hj; rw [setTask_self] at hq; cases hq
    · rw [setTask_of_ne m hj] at hq; exact h.writing j q ss hq

/-- Task `i` has executed a statement. -/
theorem Covered.setWriting (h : m.Covered R G) (hslot : m.writer = none ∨ m.writer = some i) {p : Program σ τ ε α}
    {ss : Session σ}
    (hp : ∀ c T a ss', m.now ≤ T → (∀ j, c j ≤ T) → p.run c ss = .ok (a, ss') → G i T m.session.db a ss'.db) :
    Covered R G { m.setTask i (.writing p ss) with writer := some i } := by
  refine { h with reading := ?_, writing := ?_ }
  · intro j q hq
    change (m.setTask i (.writing p ss)).tasks j = _ at hq
    by_cases hj : j = i
    · subst hj; rw [setTask_self] at hq; cases hq
    · rw [setTask_of_ne m hj] at hq; exact h.reading j q hq
  · intro j q ss' hq
    change (m.setTask i (.writing p ss)).tasks j = _ at hq
    by_cases hj : j = i
    · subst hj
      rw [setTask_self] at hq
      obtain ⟨rfl, rfl⟩ := Task.writing.inj hq
      exact ⟨rfl, hp⟩
    · -- nobody else holds the slot
      rw [setTask_of_ne m hj] at hq
      have hw := (h.writing j q ss' hq).1
      rcases hslot with hslot | hslot
      · rw [hslot] at hw; cases hw
      · rw [hslot] at hw; exact absurd (Option.some.inj hw).symm hj

/-- Task `i` has ended without a result. -/
theorem Covered.fail (h : m.Covered R G) (e : ε) : (m.fail i e).Covered R G := by
  refine { h with reading := ?_, writing := ?_ }
  · intro j q hq
    rw [fail_tasks] at hq
    by_cases hj : j = i
    · subst hj; rw [setTask_self] at hq; cases hq
    · rw [setTask_of_ne m hj] at hq; exact h.reading j q hq
  · intro j q ss hq
    rw [fail_tasks] at hq
    by_cases hj : j = i
    · subst hj; rw [setTask_self] at hq; cases hq
    · rw [setTask_of_ne m hj] at hq
      obtain ⟨hw, hG⟩ := h.writing j q ss hq
      refine ⟨?_, hG⟩
      show (if m.writer = some i then none else m.writer) = some j
      rw [hw, if_neg fun he => hj (Option.some.inj he)]

section Run

variable (hrefl : ∀ i s, R.rel i s s) (htrans : ∀ {i x y z}, R.rel i x y → R.rel i y z → R.rel i x z)
  (hfresh : ∀ i p, R.fresh i p → ∀ t s, p.Ensures (fun _ => True) (R.rel i) (G i) t s)

include hrefl htrans hfresh

/-- **A commit that is not against what the others rely on leaves them their guarantees.** -/
theorem Covered.succeed (h : m.Covered R G) {a : α} {ss : Session σ}
    (hss : m.writer = some i ∨ ss = m.session) (hcov : G i m.now m.session.db a ss.db)
    (hquiet : ∀ j p, m.tasks j = .reading p → ¬ R.fresh j p → R.rel j m.session.db ss.db) :
    (m.succeed i a ss).Covered R G := by
  refine { reading := ?_, writing := ?_, commits := ?_ }
  · intro j q hq
    rw [succeed_tasks] at hq
    by_cases hj : j = i
    · subst hj; rw [setTask_self] at hq; cases hq
    · rw [setTask_of_ne m hj] at hq
      by_cases hf : R.fresh j q
      · exact hfresh j q hf _ _
      · exact (h.reading j q hq).later (fun s _ => hrefl j s) htrans le_rfl (hquiet j q hq hf)
  · intro j q ss' hq
    rw [succeed_tasks] at hq
    by_cases hj : j = i
    · subst hj; rw [setTask_self] at hq; cases hq
    · rw [setTask_of_ne m hj] at hq
      obtain ⟨hw, hold⟩ := h.writing j q ss' hq
      -- another task holds the slot, so this one has written nothing
      have hne : m.writer ≠ some i := by rw [hw]; exact fun he => hj (Option.some.inj he)
      refine ⟨?_, ?_⟩
      · show (if m.writer = some i then none else m.writer) = some j
        rw [if_neg hne, hw]
      · rw [show (m.succeed i a ss).session = m.session from hss.resolve_left hne]; exact hold
  · intro c hc
    rcases List.mem_cons.1 hc with rfl | hc
    · exact hcov
    · exact h.commits c hc

theorem Covered.stepTask (h : m.Covered R G)
    (hquiet : ∀ j p, m.tasks j = .reading p → ¬ R.fresh j p → R.rel j m.session.db (m.stepTask i).session.db) :
    (m.stepTask i).Covered R G := by
  unfold Machine.stepTask at hquiet ⊢
  cases ht : m.tasks i with
  | finished r => exact h
  | reading p =>
    rw [ht] at hquiet
    have hp := h.reading i p ht
    cases p with
    | done a =>
      exact h.succeed hrefl htrans hfresh (Or.inr rfl) (hp m.now _ le_rfl trivial (hrefl i _)) hquiet
    | raised e => exact h.fail e
    | clock k => exact h.setReading (hp m.now le_rfl)
    | query k => exact h.setReading (hp m.session.db trivial (hrefl i _))
    | statement st k =>
      show Covered R G (if m.writer = none then _ else m)
      split
      · rename_i hw
        exact h.setWriting (Or.inl hw) fun c T a ss' hT hc hrun =>
          hp c T m.session a ss' hT hc trivial (hrefl i _) hrun
      · exact h
  | writing p ss =>
    rw [ht] at hquiet
    obtain ⟨hw, hp⟩ := h.writing i p ss ht
    -- the slot stays where it is
    have hset : ∀ t, m.setTask i t = { m.setTask i t with writer := some i } := by
      intro t
      show m.setTask i t = { m.setTask i t with writer := some i }
      rw [← hw]; rfl
    cases p with
    | done a =>
      exact h.succeed hrefl htrans hfresh (Or.inl hw) (hp (fun _ => m.now) m.now a ss le_rfl (fun _ => le_rfl) rfl)
        hquiet
    | raised e => exact h.fail e
    | clock k =>
      show Covered R G (m.setTask i (.writing (k m.now) ss))
      rw [hset]
      refine h.setWriting (Or.inr hw) fun c T a ss' hT hc hrun => ?_
      refine hp (fun j => if j = 0 then m.now else c (j - 1)) T a ss' hT (fun j => ?_) ?_
      · show (if j = 0 then m.now else c (j - 1)) ≤ T
        split
        · exact hT
        · exact hc _
      · simpa [Program.run] using hrun
    | query k =>
      show Covered R G (m.setTask i (.writing (k ss.db) ss))
      rw [hset]
      exact h.setWriting (Or.inr hw) fun c T a ss' hT hc hrun => hp c T a ss' hT hc hrun
    | statement st k =>
      show Covered R G (m.setTask i (.writing (k (st ss.db).2) (ss.push (st ss.db).1)))
      rw [hset]
      exact h.setWriting (Or.inr hw) fun c T a ss' hT hc hrun => hp c T a ss' hT hc hrun

theorem Covered.turn (h : m.Covered R G) (u : Turn ι τ)
    (hquiet : ∀ j p, m.tasks j = .reading p → ¬ R.fresh j p → R.rel j m.session.db (m.turn aborted u).session.db) :
    (m.turn aborted u).Covered R G := by
  cases u with
  | tick t =>
    have hle : m.now ≤ max m.now t := le_max_left _ _
    refine { h with reading := ?_, writing := ?_ }
    · exact fun i p hp => (h.reading i p hp).later (fun s _ => hrefl i s) htrans hle (hrefl i _)
    · intro i p ss hp
      obtain ⟨hw, hG⟩ := h.writing i p ss hp
      exact ⟨hw, fun c T a ss' hT hc hrun => hG c T a ss' (le_trans hle hT) hc hrun⟩
  | step i => exact h.stepTask hrefl htrans hfresh hquiet
  | abort i =>
    unfold Machine.turn
    cases ht : m.tasks i with
    | finished r => simpa [ht] using h
    | reading p => simpa [ht] using h.fail aborted
    | writing p ss => simpa [ht] using h.fail aborted

/-- **In a quiet run, every commit is covered by the guarantee of its program.** -/
theorem Covered.run (h : m.Covered R G) {turns : List (Turn ι τ)} (hquiet : Quiet aborted R m turns) :
    (m.runTurns aborted turns).Covered R G := by
  unfold runTurns
  induction turns generalizing m with
  | nil => exact h
  | cons u turns ih => exact ih (h.turn hrefl htrans hfresh u hquiet.1) hquiet.2

end Run

omit [DecidableEq ι] in
theorem Covered.start {ss : Session σ} {now : τ} {programs : ι → Program σ τ ε α}
    (h : ∀ i, (programs i).Ensures (fun _ => True) (R.rel i) (G i) now ss.db) :
    (start ss now programs).Covered R G := by
  refine { reading := ?_, writing := ?_, commits := ?_ }
  · rintro i p hp
    obtain rfl := Task.reading.inj hp
    exact h i
  · intro i p ss' hp; cases hp
  · intro c hc; cases hc

end Covered

end Machine

end Transaction
