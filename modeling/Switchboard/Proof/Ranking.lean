import Switchboard.Lib.KeySort
import Switchboard.Spec.Routing
import Mathlib.Algebra.Order.Field.Rat
import Mathlib.Data.String.Basic
import Mathlib.Tactic.Linarith
import Mathlib.Tactic.Positivity

/-!
# The ranking of candidates

* `compareCandidates_score`: the comparator compares the scores (cost, headroom downwards,
  load as a fraction, priority, worker id) lexicographically.
* `rankRoutingCandidates_ranked`: it is a strict total order on workers with distinct ids,
  and the ranked list does not depend on the order of the candidates.
-/

namespace Switchboard

open KeySort

/-- Cost, then headroom (more first), then load, then priority, then worker id. -/
abbrev RankScore : Type := ℤ ×ₗ ℤᵒᵈ ×ₗ ℚ ×ₗ ℤ ×ₗ String

/-- The share of its concurrency that a worker uses. -/
def Worker.load (w : Worker) : ℚ := w.activeRunCount / w.maxConcurrency

/-- What `rank_routing_candidates` orders by. -/
def rankScore (requiredQuotaUnits : ℤ) (c : Worker × RoutingProfile) : RankScore :=
  toLex (c.2.estimatedCostUnitsPerRun, toLex (OrderDual.toDual (c.2.quotaRemainingUnits - requiredQuotaUnits),
    toLex (c.1.load, toLex (c.2.routingPriority, c.1.workerId))))

variable {units : ℤ}

/-- Cross-multiplied loads compare like the fractions. -/
theorem load_lt_iff {a b : Worker} (ha : 1 ≤ a.maxConcurrency) (hb : 1 ≤ b.maxConcurrency) :
    a.activeRunCount * b.maxConcurrency < b.activeRunCount * a.maxConcurrency ↔ a.load < b.load := by
  have ha' : (0 : ℚ) < a.maxConcurrency := by exact_mod_cast ha
  have hb' : (0 : ℚ) < b.maxConcurrency := by exact_mod_cast hb
  rw [Worker.load, Worker.load, div_lt_div_iff₀ ha' hb']
  exact_mod_cast Iff.rfl

theorem load_eq_iff {a b : Worker} (ha : 1 ≤ a.maxConcurrency) (hb : 1 ≤ b.maxConcurrency) :
    a.activeRunCount * b.maxConcurrency = b.activeRunCount * a.maxConcurrency ↔ a.load = b.load := by
  have hab := load_lt_iff ha hb
  have hba := load_lt_iff hb ha
  constructor
  · intro h
    refine le_antisymm (not_lt.1 fun hlt => ?_) (not_lt.1 fun hlt => ?_)
    · exact absurd (hba.2 hlt) (by omega)
    · exact absurd (hab.2 hlt) (by omega)
  · intro h
    have h1 := hab.not.2 (by rw [h]; exact lt_irrefl _)
    have h2 := hba.not.2 (by rw [h]; exact lt_irrefl _)
    omega

/-- One level of a lexicographic comparison. -/
theorem compare_toLex {α β : Type*} [LinearOrder α] [LinearOrder β] (a b : α) (x y : β) :
    compare (toLex (a, x)) (toLex (b, y)) = if a ≠ b then (if a < b then .lt else .gt) else compare x y := by
  by_cases hab : a = b
  · subst hab
    simp only [ne_eq, not_true_eq_false, if_false]
    rcases lt_trichotomy x y with h | rfl | h
    · rw [compare_lt_iff_lt.2 h, compare_lt_iff_lt]
      exact Prod.Lex.toLex_lt_toLex.2 (Or.inr ⟨rfl, h⟩)
    · rw [compare_eq_iff_eq.2 rfl]
      exact (compare_eq_iff_eq.2 rfl).symm
    · rw [compare_gt_iff_gt.2 h, compare_gt_iff_gt]
      exact Prod.Lex.toLex_lt_toLex.2 (Or.inr ⟨rfl, h⟩)
  · rw [if_pos hab]
    by_cases hlt : a < b
    · rw [if_pos hlt, compare_lt_iff_lt]
      exact Prod.Lex.toLex_lt_toLex.2 (Or.inl hlt)
    · rw [if_neg hlt, compare_gt_iff_gt]
      exact Prod.Lex.toLex_lt_toLex.2 (Or.inl (lt_of_le_of_ne (not_lt.1 hlt) (Ne.symm hab)))

/-- **The comparator of `rank_routing_candidates` compares the scores.** -/
theorem compareCandidates_score {a b : Worker × RoutingProfile} (ha : 1 ≤ a.1.maxConcurrency)
    (hb : 1 ≤ b.1.maxConcurrency) :
    compareCandidates units a b = compare (rankScore units a) (rankScore units b) := by
  have hlt := load_lt_iff ha hb
  have heq := load_eq_iff ha hb
  have hids : compare a.1.workerId b.1.workerId =
      if a.1.workerId = b.1.workerId then .eq else if a.1.workerId < b.1.workerId then .lt else .gt := by
    by_cases hid : a.1.workerId = b.1.workerId
    · rw [if_pos hid, compare_eq_iff_eq, hid]
    · rw [if_neg hid]
      by_cases hless : a.1.workerId < b.1.workerId
      · rw [if_pos hless, compare_lt_iff_lt]
        exact hless
      · rw [if_neg hless, compare_gt_iff_gt]
        exact lt_of_le_of_ne (not_lt.1 hless) (Ne.symm hid)
  unfold rankScore
  rw [compare_toLex, compare_toLex, compare_toLex, compare_toLex, hids]
  simp only [compareCandidates, hlt, heq, ne_eq, OrderDual.toDual_lt_toDual, OrderDual.toDual_inj, gt_iff_lt]

/-! ## Lists of candidates -/

/-- `compare` of two candidates that carry profiles. -/
def RoutingCandidate.compare (units : ℤ) (a b : RoutingCandidate) : Ordering :=
  match a.profile, b.profile with
  | some p, some q => compareCandidates units (a.worker, p) (b.worker, q)
  | _, _ => .eq

/-- The score of a candidate, below all scores when it has no profile. -/
def RoutingCandidate.score (units : ℤ) (c : RoutingCandidate) : WithBot RankScore :=
  match c.profile with
  | some p => (rankScore units (c.worker, p) : RankScore)
  | none => ⊥

/-- The candidates the ranking is asked for: each has a profile, no worker occurs twice, and each
worker runs something at a time. -/
structure Rankable (candidates : List RoutingCandidate) : Prop where
  profiled : ∀ c ∈ candidates, c.profile ≠ none
  ids : (candidates.map fun c => c.worker.workerId).Nodup
  concurrency : ∀ c ∈ candidates, 1 ≤ c.worker.maxConcurrency

variable {candidates : List RoutingCandidate}

theorem candidateLe_eq : candidateLe units = KeySort.le (RoutingCandidate.compare units) := by
  funext a b
  unfold candidateLe KeySort.le RoutingCandidate.compare
  cases a.profile with
  | none => rfl
  | some p => cases b.profile <;> rfl

theorem Rankable.of_perm {other : List RoutingCandidate} (h : Rankable candidates) (hp : other.Perm candidates) :
    Rankable other where
  profiled := fun c hc => h.profiled c (hp.mem_iff.1 hc)
  ids := (hp.map _).nodup_iff.2 h.ids
  concurrency := fun c hc => h.concurrency c (hp.mem_iff.1 hc)

theorem Rankable.explains (h : Rankable candidates) :
    Explains (RoutingCandidate.compare units) (RoutingCandidate.score units) candidates := by
  intro a ha b hb
  obtain ⟨p, hp⟩ := Option.ne_none_iff_exists'.1 (h.profiled a ha)
  obtain ⟨q, hq⟩ := Option.ne_none_iff_exists'.1 (h.profiled b hb)
  have hscores : RoutingCandidate.compare units a b =
      Ord.compare (rankScore units (a.worker, p)) (rankScore units (b.worker, q)) := by
    simp only [RoutingCandidate.compare, hp, hq]
    exact compareCandidates_score (h.concurrency a ha) (h.concurrency b hb)
  rw [hscores]
  simp only [RoutingCandidate.score, hp, hq]
  rcases lt_trichotomy (rankScore units (a.worker, p)) (rankScore units (b.worker, q)) with hlt | heq | hgt
  · rw [compare_lt_iff_lt.2 hlt, eq_comm, compare_lt_iff_lt]
    exact_mod_cast hlt
  · rw [compare_eq_iff_eq.2 heq, eq_comm, compare_eq_iff_eq, heq]
  · rw [compare_gt_iff_gt.2 hgt, eq_comm, compare_gt_iff_gt]
    exact_mod_cast hgt

/-- The worker id is the last component of the score. -/
theorem Rankable.distinguishes (h : Rankable candidates) :
    Distinguishes (RoutingCandidate.score units) candidates := by
  intro a ha b hb heq
  obtain ⟨p, hp⟩ := Option.ne_none_iff_exists'.1 (h.profiled a ha)
  obtain ⟨q, hq⟩ := Option.ne_none_iff_exists'.1 (h.profiled b hb)
  simp only [RoutingCandidate.score, hp, hq, WithBot.coe_inj] at heq
  have hid : a.worker.workerId = b.worker.workerId :=
    congrArg (fun x : RankScore => (ofLex (ofLex (ofLex (ofLex x).2).2).2).2) heq
  exact List.inj_on_of_nodup_map h.ids ha hb hid

theorem rankRoutingCandidates_eq (h : Rankable candidates) :
    rankRoutingCandidates candidates units =
      .ok (candidates.mergeSort (KeySort.le (RoutingCandidate.compare units))) := by
  have hprofiles : ¬ (candidates.any fun c => c.profile.isNone) = true := by
    simp only [List.any_eq_true, not_exists, not_and]
    intro c hc hnone
    exact h.profiled c hc (Option.isNone_iff_eq_none.1 hnone)
  unfold rankRoutingCandidates
  rw [if_neg fun hc => hprofiles hc.2, candidateLe_eq]

/-- **The ranking is a strict total order of the workers**: the comparator orders them as their scores
are ordered, and the ranked list is the same for every order of the candidates. -/
theorem rankRoutingCandidates_ranked (units : ℤ) (candidates : List RoutingCandidate) (h : Rankable candidates) :
    StrictTotalOn (fun a b => RoutingCandidate.compare units a b = .lt) candidates ∧
      (∀ a ∈ candidates, ∀ b ∈ candidates,
        RoutingCandidate.compare units a b = Ord.compare (a.score units) (b.score units)) ∧
      ∃ ranked, rankRoutingCandidates candidates units = .ok ranked ∧ ranked.Perm candidates ∧
        (ranked.Pairwise fun a b => a.score units < b.score units) ∧
        ∀ other : List RoutingCandidate, other.Perm candidates → rankRoutingCandidates other units = .ok ranked := by
  have hexplains : Explains (RoutingCandidate.compare units) (RoutingCandidate.score units) candidates := h.explains
  have hkeys : Distinguishes (RoutingCandidate.score units) candidates := h.distinguishes
  have hnodup : candidates.Nodup := h.ids.of_map _
  refine ⟨hexplains.strictTotalOn hkeys, hexplains, _, rankRoutingCandidates_eq h, List.mergeSort_perm _ _,
    hexplains.pairwise_mergeSort hkeys hnodup, ?_⟩
  intro other hperm
  rw [rankRoutingCandidates_eq (h.of_perm hperm), hexplains.mergeSort_perm hkeys hnodup hperm]

/-- A candidate of cost 2 with the given id that uses `active` of `maximum` places. -/
def loadedCandidate (workerId : String) (active maximum : ℤ) : RoutingCandidate :=
  ⟨⟨workerId, ⟨workerId, "linux", "x86_64", none, none, none, false, [], false, false, false, [], [], .disabled,
      false⟩, maximum, active, .online, 0, none⟩,
    some ⟨workerId, 1, true, 2, 10, 10, none, 0, 1⟩⟩

/-- Loads 1/2, 1/3 and 2/5. -/
def loadedCandidates : List RoutingCandidate :=
  [loadedCandidate "half" 1 2, loadedCandidate "third" 1 3, loadedCandidate "two-fifths" 2 5]

theorem rankRoutingCandidates_ranked_loads :
    ∃ ranked, rankRoutingCandidates loadedCandidates 1 = .ok ranked ∧
      (ranked.Pairwise fun a b => a.score 1 < b.score 1) ∧
      rankRoutingCandidates loadedCandidates.reverse 1 = .ok ranked := by
  have hrankable : Rankable loadedCandidates := by
    refine ⟨?_, by decide, ?_⟩
    · intro c hc
      simp only [loadedCandidates, List.mem_cons, List.not_mem_nil, or_false] at hc
      rcases hc with rfl | rfl | rfl <;> simp [loadedCandidate]
    · intro c hc
      simp only [loadedCandidates, List.mem_cons, List.not_mem_nil, or_false] at hc
      rcases hc with rfl | rfl | rfl <;> simp [loadedCandidate]
  obtain ⟨-, -, ranked, hranked, -, hsorted, hother⟩ := rankRoutingCandidates_ranked 1 loadedCandidates hrankable
  exact ⟨ranked, hranked, hsorted, hother _ (List.reverse_perm _)⟩

end Switchboard
