import Mathlib.Data.List.Sort
import Mathlib.Order.Lex
import Mathlib.Data.Prod.Lex

/-!
# Sorting by a comparison that a key explains

A comparison need only agree with a key on the members of the list that is sorted.

* `Explains`: on a list, the comparison orders exactly as a key of a linear order does.
* `Explains.strictTotalOn`: it is then a strict total order there.
* `Explains.pairwise_mergeSort`: the sorted list is strictly increasing in an injective key.
* `Explains.mergeSort_perm`: it does not depend on the order of the input.
-/

namespace KeySort

variable {α β : Type*} [LinearOrder β] {cmp : α → α → Ordering} {key : α → β} {l l' : List α}

/-- On `l` the comparison `cmp` is the comparison of the keys. -/
def Explains (cmp : α → α → Ordering) (key : α → β) (l : List α) : Prop :=
  ∀ a ∈ l, ∀ b ∈ l, cmp a b = compare (key a) (key b)

/-- No two members of `l` share a key. -/
def Distinguishes (key : α → β) (l : List α) : Prop := ∀ a ∈ l, ∀ b ∈ l, key a = key b → a = b

/-- On `l` the relation orders any two different members one way. -/
structure StrictTotalOn (r : α → α → Prop) (l : List α) : Prop where
  irreflexive : ∀ a ∈ l, ¬ r a a
  transitive : ∀ a ∈ l, ∀ b ∈ l, ∀ c ∈ l, r a b → r b c → r a c
  total : ∀ a ∈ l, ∀ b ∈ l, a ≠ b → r a b ∨ r b a

/-- The comparison as the test that a stable sort makes. -/
def le (cmp : α → α → Ordering) (a b : α) : Bool := cmp a b != .gt

namespace Explains

theorem lt_iff (h : Explains cmp key l) {a b : α} (ha : a ∈ l) (hb : b ∈ l) : cmp a b = .lt ↔ key a < key b := by
  rw [h a ha b hb, compare_lt_iff_lt]

/-- **The comparison is a strict total order** where the key tells the members apart. -/
theorem strictTotalOn (h : Explains cmp key l) (hkey : Distinguishes key l) :
    StrictTotalOn (fun a b => cmp a b = .lt) l where
  irreflexive := fun a ha hlt => absurd ((h.lt_iff ha ha).1 hlt) (lt_irrefl _)
  transitive := fun a ha b hb c hc hab hbc =>
    (h.lt_iff ha hc).2 (((h.lt_iff ha hb).1 hab).trans ((h.lt_iff hb hc).1 hbc))
  total := by
    intro a ha b hb hne
    rcases lt_or_gt_of_ne fun heq => hne (hkey a ha b hb heq) with hlt | hgt
    · exact Or.inl ((h.lt_iff ha hb).2 hlt)
    · exact Or.inr ((h.lt_iff hb ha).2 hgt)

theorem of_perm (h : Explains cmp key l) (hp : l'.Perm l) : Explains cmp key l' :=
  fun a ha b hb => h a (hp.mem_iff.1 ha) b (hp.mem_iff.1 hb)

/-- Sorting by the comparison is sorting by the key. -/
theorem mergeSort_eq (h : Explains cmp key l) :
    l.mergeSort (le cmp) = l.mergeSort fun a b => decide (key a ≤ key b) := by
  have hagree : ∀ a ∈ l, ∀ b ∈ l, le cmp a b = decide (key (id a) ≤ key (id b)) := by
    intro a ha b hb
    have hle : cmp a b ≠ .gt ↔ key a ≤ key b := by
      rw [h a ha b hb, Ne, compare_gt_iff_gt, not_lt]
    by_cases hk : key a ≤ key b
    · simp [le, hk, hle.2 hk]
    · have hgt : cmp a b = .gt := by
        by_contra hne
        exact hk (hle.1 hne)
      simp [le, hk, hgt]
  have hmap := List.map_mergeSort (f := id) (s := fun a b => decide (key a ≤ key b)) hagree
  rwa [List.map_id, List.map_id] at hmap

/-- **Sorting is strictly increasing in the key.** -/
theorem pairwise_mergeSort (h : Explains cmp key l) (hkey : Distinguishes key l) (hl : l.Nodup) :
    (l.mergeSort (le cmp)).Pairwise fun a b => key a < key b := by
  have hperm := List.mergeSort_perm l (le cmp)
  have hsorted : (l.mergeSort (le cmp)).Pairwise fun a b => key a ≤ key b := by
    rw [h.mergeSort_eq]
    have htrans : ∀ a b c, decide (key a ≤ key b) = true → decide (key b ≤ key c) = true →
        decide (key a ≤ key c) = true := by
      intro a b c hab hbc
      simp only [decide_eq_true_eq] at *
      exact hab.trans hbc
    have hs := List.pairwise_mergeSort htrans (fun a b => by simpa using le_total (key a) (key b)) l
    simpa using hs
  have hne : (l.mergeSort (le cmp)).Pairwise (· ≠ ·) := hperm.nodup_iff.2 hl
  refine (hsorted.and hne).imp_of_mem ?_
  rintro a b ha hb ⟨hab, hdiff⟩
  refine lt_of_le_of_ne hab fun heq => hdiff ?_
  exact hkey a (hperm.mem_iff.1 ha) b (hperm.mem_iff.1 hb) heq

/-- **Every order of the input gives the same sorted list.** -/
theorem mergeSort_perm (h : Explains cmp key l) (hkey : Distinguishes key l) (hl : l.Nodup) (hp : l'.Perm l) :
    l'.mergeSort (le cmp) = l.mergeSort (le cmp) := by
  have hkey' : Distinguishes key l' := fun a ha b hb => hkey a (hp.mem_iff.1 ha) b (hp.mem_iff.1 hb)
  have hsorted' := (h.of_perm hp).pairwise_mergeSort hkey' (hp.nodup_iff.2 hl)
  have hsorted := h.pairwise_mergeSort hkey hl
  have hperm : (l'.mergeSort (le cmp)).Perm (l.mergeSort (le cmp)) :=
    (List.mergeSort_perm l' _).trans (hp.trans (List.mergeSort_perm l _).symm)
  refine hperm.eq_of_pairwise (fun a b _ _ hab hba => ?_) hsorted' hsorted
  exact absurd hab (not_lt_of_gt hba)

end Explains

end KeySort
