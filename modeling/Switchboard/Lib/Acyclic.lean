import Mathlib.Logic.Relation
import Mathlib.Data.Finset.Card
import Mathlib.Data.Finset.Filter
import Mathlib.Data.Finset.Dedup

/-!
# Relations without cycles

* `Acyclic.replace`, `not_acyclic_replace`: new edges out of one vertex close no cycle if and only if no path leads
  from one of their ends back to it.
* `Acyclic.exists_order`: the vertices of a finite list can be put in an order in which every
  vertex comes after those it points to.
-/

namespace Graph

open Relation

variable {α : Type*} {r r' : α → α → Prop}

/-- No vertex is reached from itself. -/
def Acyclic (r : α → α → Prop) : Prop := ∀ a, ¬ TransGen r a a

theorem Acyclic.mono (h : Acyclic r) (hr : ∀ a b, r' a b → r a b) : Acyclic r' :=
  fun a ha => h a (TransGen.mono hr a a ha)

section replace

variable {v : α} {E : α → Prop}

/-- A path to `v` may as well stop at its first visit. -/
theorem path_avoiding (hkeep : ∀ a b, r a b → a ≠ v → r' a b) {a : α} (h : ReflTransGen r a v) :
    ReflTransGen r' a v := by
  induction h using ReflTransGen.head_induction_on with
  | refl => exact .refl
  | @head a b hab _ ih =>
    by_cases ha : a = v
    · rw [ha]
    · exact .head (hkeep a b hab ha) ih

/-- A path to `v` over old and new edges ends with old ones, from `a` itself or from the end of a new edge. -/
theorem path_old (hsub : ∀ a b, r' a b → r a b ∨ (a = v ∧ E b)) {a : α} (h : ReflTransGen r' a v) :
    ReflTransGen r a v ∨ ∃ d, E d ∧ ReflTransGen r d v := by
  induction h using ReflTransGen.head_induction_on with
  | refl => exact Or.inl .refl
  | head hab _ ih =>
    rcases ih with ih | ih
    · rcases hsub _ _ hab with hold | ⟨rfl, hd⟩
      · exact Or.inl (.head hold ih)
      · exact Or.inr ⟨_, hd, ih⟩
    · exact Or.inr ih

/-- A path is old, or it takes a new edge. -/
theorem path_split (hsub : ∀ a b, r' a b → r a b ∨ (a = v ∧ E b)) {a b : α} (h : TransGen r' a b) :
    TransGen r a b ∨ ∃ d, E d ∧ ReflTransGen r' a v ∧ ReflTransGen r' d b := by
  induction h with
  | single hab =>
    rcases hsub _ _ hab with hold | ⟨rfl, hd⟩
    · exact Or.inl (.single hold)
    · exact Or.inr ⟨_, hd, .refl, .refl⟩
  | tail hab hbc ih =>
    rcases ih with ih | ⟨d, hd, hto, hfrom⟩
    · rcases hsub _ _ hbc with hold | ⟨rfl, hd⟩
      · exact Or.inl (.tail ih hold)
      · exact Or.inr ⟨_, hd, hab.to_reflTransGen, .refl⟩
    · exact Or.inr ⟨d, hd, hto, hfrom.tail hbc⟩

/-- **New edges out of `v` close no cycle**, if none of their ends leads to `v`. -/
theorem Acyclic.replace (h : Acyclic r) (hsub : ∀ a b, r' a b → r a b ∨ (a = v ∧ E b))
    (hno : ∀ d, E d → ¬ ReflTransGen r d v) : Acyclic r' := by
  intro a ha
  rcases path_split hsub ha with hold | ⟨d, hd, hto, hfrom⟩
  · exact h a hold
  · rcases path_old hsub (hfrom.trans hto) with hback | ⟨e, he, hback⟩
    · exact hno d hd hback
    · exact hno e he hback

/-- **They close a cycle otherwise.** -/
theorem not_acyclic_replace (hkeep : ∀ a b, r a b → a ≠ v → r' a b) {d : α} (hnew : r' v d)
    (hback : ReflTransGen r d v) : ¬ Acyclic r' := fun h =>
  h v (TransGen.head' hnew (path_avoiding hkeep hback))

end replace

/-- **A finite set of vertices has an order** in which no vertex points to a later one. -/
theorem Acyclic.exists_order (h : Acyclic r) (vertices : List α) :
    ∃ order : List α, order.Perm vertices ∧ order.Pairwise fun a b => b ∈ vertices → ¬ r a b := by
  classical
  -- how many vertices can be reached
  let rank : α → ℕ := fun a => (vertices.toFinset.filter fun b => TransGen r a b).card
  have hrank : ∀ a b, b ∈ vertices → r a b → rank b < rank a := by
    intro a b hb hab
    refine Finset.card_lt_card ((Finset.ssubset_iff_of_subset ?_).2 ⟨b, ?_, ?_⟩)
    · intro c hc
      obtain ⟨hc, hbc⟩ := Finset.mem_filter.1 hc
      exact Finset.mem_filter.2 ⟨hc, .head hab hbc⟩
    · exact Finset.mem_filter.2 ⟨List.mem_toFinset.2 hb, .single hab⟩
    · exact fun hb' => h b (Finset.mem_filter.1 hb').2
  refine ⟨vertices.mergeSort fun a b => decide (rank a ≤ rank b), List.mergeSort_perm _ _, ?_⟩
  have hsorted : (vertices.mergeSort fun a b => decide (rank a ≤ rank b)).Pairwise
      fun a b => decide (rank a ≤ rank b) = true := by
    refine List.pairwise_mergeSort (fun a b c hab hbc => ?_) (fun a b => ?_) vertices
    · simp only [decide_eq_true_eq] at *; omega
    · simp only [Bool.or_eq_true, decide_eq_true_eq]; omega
  refine hsorted.imp fun {a b} hle hb hab => ?_
  have := hrank a b hb hab
  simp only [decide_eq_true_eq] at hle
  omega

end Graph
