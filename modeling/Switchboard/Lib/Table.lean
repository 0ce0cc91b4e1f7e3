import Mathlib

/-!
# Keyed tables

A table is the list of its rows, each with a key. A guarded SQL statement touches
the rows that satisfy its `WHERE` clause (`updateWhere`, `deleteWhere`) and reports
whether it touched exactly one (`affectedOne`).

* `updateWhere_eq_put`, `deleteWhere_eq_remove`: with unique keys, a statement that
  touched exactly one row is a keyed write of that row.
* `mem_put`, `mem_remove`: membership after a keyed write.
* `countP_put`, `countP_remove`, `sum_put`: what a keyed write does to a count or a sum.
-/

namespace Table

/-- The rows of type `α` are identified by a key. -/
class Keyed (α : Type*) (κ : outParam (Type*)) where
  key : α → κ

export Keyed (key)

variable {α κ β : Type*} [Keyed α κ]

/-- The key column. -/
def keys (t : List α) : List κ := t.map key

/-- No key occurs twice. -/
def UniqueKeys (t : List α) : Prop := (keys t).Nodup

/-- `UPDATE ... WHERE p`. -/
def updateWhere (p : α → Bool) (f : α → α) (t : List α) : List α :=
  t.map fun x => if p x then f x else x

/-- `DELETE ... WHERE p`. -/
def deleteWhere (p : α → Bool) (t : List α) : List α := t.filter fun x => !p x

/-- A statement with this `WHERE` clause affects exactly one row. -/
def affectedOne (p : α → Bool) (t : List α) : Bool := t.countP p == 1

theorem UniqueKeys.eq_of_key {t : List α} (ht : UniqueKeys t) {x y : α} (hx : x ∈ t) (hy : y ∈ t)
    (h : key x = key y) : x = y :=
  List.inj_on_of_nodup_map ht hx hy h

/-- A row is the only one that a lookup by its key can find. -/
theorem UniqueKeys.find?_eq {t : List α} (ht : UniqueKeys t) {r : α} {p : α → Bool} (hr : r ∈ t) (hp : p r = true)
    (hkey : ∀ x ∈ t, p x = true → key x = key r) : t.find? p = some r := by
  cases h : t.find? p with
  | none => exact absurd hp (List.find?_eq_none.1 h r hr)
  | some x =>
    have hx : x ∈ t := List.mem_of_find?_eq_some h
    rw [ht.eq_of_key hx hr (hkey x hx (List.find?_some h))]

theorem UniqueKeys.append {t : List α} (ht : UniqueKeys t) {r : α} (h : ∀ x ∈ t, key x ≠ key r) :
    UniqueKeys (t ++ [r]) := by
  unfold UniqueKeys keys at *
  rw [List.map_append, List.map_singleton]
  refine List.Nodup.append ht (List.nodup_singleton _) ?_
  intro k hk hk'
  obtain ⟨x, hx, rfl⟩ := List.mem_map.1 hk
  exact h x hx (List.mem_singleton.1 hk')

/-! ## Rows that satisfy a clause -/

theorem countP_eq_one_of_unique {t : List α} (ht : UniqueKeys t) {p : α → Bool} {r : α} (hr : r ∈ t)
    (hp : p r = true) (hu : ∀ x ∈ t, p x = true → key x = key r) : t.countP p = 1 := by
  have hnd : t.Nodup := List.Nodup.of_map _ ht
  rw [List.countP_eq_length_filter]
  have : t.filter p = [r] := by
    have hf : (t.filter p).Nodup := hnd.filter p
    have hm : ∀ x, x ∈ t.filter p ↔ x = r := by
      intro x
      rw [List.mem_filter]
      constructor
      · rintro ⟨hx, hpx⟩; exact ht.eq_of_key hx hr (hu x hx hpx)
      · rintro rfl; exact ⟨hr, hp⟩
    exact (List.perm_singleton.1 ((List.perm_ext_iff_of_nodup hf (List.nodup_singleton r)).2
      (by simpa using hm)))
  rw [this]; rfl

/-- A statement that affected exactly one row: that row, and no other, satisfied the clause. -/
theorem affectedOne_row {t : List α} {p : α → Bool} (h : affectedOne p t = true) :
    ∃ r ∈ t, p r = true ∧ ∀ x ∈ t, p x = true → x = r := by
  unfold affectedOne at h
  rw [beq_iff_eq, List.countP_eq_length_filter, List.length_eq_one_iff] at h
  obtain ⟨r, hr⟩ := h
  have hm : ∀ x, (x ∈ t ∧ p x = true) ↔ x = r := by
    intro x; rw [← List.mem_filter, hr, List.mem_singleton]
  exact ⟨r, ((hm r).2 rfl).1, ((hm r).2 rfl).2, fun x hx hp => (hm x).1 ⟨hx, hp⟩⟩

/-- A clause that fixes the key affects one row as soon as some row satisfies it. -/
theorem affectedOne_of_mem {t : List α} (ht : UniqueKeys t) {p : α → Bool} {r : α} (hr : r ∈ t)
    (hp : p r = true) (hu : ∀ x ∈ t, p x = true → key x = key r) : affectedOne p t = true := by
  unfold affectedOne; rw [countP_eq_one_of_unique ht hr hp hu]; rfl

/-! ## Keyed writes -/

variable [DecidableEq κ]

/-- Replace the row that has the key of `r` by `r`. -/
def put (r : α) (t : List α) : List α := t.map fun x => if key x = key r then r else x

/-- Drop the row with key `k`. -/
def remove (k : κ) (t : List α) : List α := t.filter fun x => key x ≠ k

theorem updateWhere_eq_self {t : List α} {p : α → Bool} {f : α → α} (h : ∀ x ∈ t, p x = false) :
    updateWhere p f t = t := by
  unfold updateWhere
  rw [List.map_congr_left (g := id) (fun x hx => by simp [h x hx]), List.map_id]

theorem deleteWhere_eq_self {t : List α} {p : α → Bool} (h : ∀ x ∈ t, p x = false) :
    deleteWhere p t = t := by
  unfold deleteWhere; rw [List.filter_eq_self]; intro x hx; simp [h x hx]

omit [Keyed α κ] in
/-- In a column without repetitions, a value leads back to its row. -/
theorem find?_column {t : List α} {g : α → κ} (h : (t.map g).Nodup) {x : α} (hx : x ∈ t) :
    t.find? (fun y => g y == g x) = some x := by
  cases hf : t.find? fun y => g y == g x with
  | none => exact absurd (beq_self_eq_true (g x)) (List.find?_eq_none.1 hf x hx)
  | some y =>
    have hy : g y = g x := by simpa using List.find?_some hf
    rw [List.inj_on_of_nodup_map h (List.mem_of_find?_eq_some hf) hx hy]

omit [Keyed α κ] [DecidableEq κ] in
/-- In an ordered list, the first element that satisfies `p` comes before all others that do. -/
theorem rel_of_find? {r : α → α → Prop} {t : List α} (h : t.Pairwise r) {p : α → Bool} {x y : α}
    (hx : t.find? p = some x) (hy : y ∈ t) (hp : p y = true) : y = x ∨ r x y := by
  obtain ⟨_, before, after, rfl, hbefore⟩ := List.find?_eq_some_iff_append.1 hx
  rcases List.mem_append.1 hy with hy | hy
  · have := hbefore y hy
    rw [hp] at this
    cases this
  · rcases List.mem_cons.1 hy with rfl | hy
    · exact Or.inl rfl
    · exact Or.inr ((List.pairwise_cons.1 (List.pairwise_append.1 h).2.1).1 y hy)

omit [Keyed α κ] [DecidableEq κ] in
/-- A column that an update leaves alone. -/
theorem map_updateWhere {t : List α} {p : α → Bool} {f : α → α} {g : α → β} (hg : ∀ x, g (f x) = g x) :
    (updateWhere p f t).map g = t.map g := by
  unfold updateWhere
  rw [List.map_map]
  refine List.map_congr_left fun x _ => ?_
  show g (if p x then f x else x) = g x
  split
  · exact hg x
  · rfl

omit [Keyed α κ] [DecidableEq κ] in
/-- A lookup by a column that an update leaves alone finds the updated row. -/
theorem find?_updateWhere {t : List α} {p q : α → Bool} {f : α → α} (hq : ∀ x, q (f x) = q x) :
    (updateWhere p f t).find? q = (t.find? q).map fun x => if p x then f x else x := by
  unfold updateWhere
  rw [List.find?_map]
  have hsame : (q ∘ fun x => if p x then f x else x) = q := by
    funext x
    show q (if p x then f x else x) = q x
    split
    · exact hq x
    · rfl
  rw [hsame]

omit [Keyed α κ] [DecidableEq κ] in
/-- A lookup of rows that a deletion does not touch. -/
theorem find?_deleteWhere {t : List α} {p q : α → Bool} (h : ∀ x, q x = true → p x = false) :
    (deleteWhere p t).find? q = t.find? q := by
  unfold deleteWhere
  rw [List.find?_filter]
  congr 1
  funext x
  cases hq : q x with
  | false => simp
  | true => simp [h x hq]

omit [Keyed α κ] [DecidableEq κ] in
/-- A lookup of rows that a deletion removes. -/
theorem find?_deleteWhere_none {t : List α} {p q : α → Bool} (h : ∀ x ∈ t, q x = true → p x = true) :
    (deleteWhere p t).find? q = none := by
  unfold deleteWhere
  rw [List.find?_eq_none]
  intro x hx hq
  obtain ⟨hx, hp⟩ := List.mem_filter.1 hx
  rw [h x hx hq] at hp
  cases hp

/-- **A guarded update of one row is a keyed write of that row.** -/
theorem updateWhere_eq_put {t : List α} (ht : UniqueKeys t) {p : α → Bool} {f : α → α} {r : α}
    (hr : r ∈ t) (hp : p r = true) (hu : ∀ x ∈ t, p x = true → x = r) (hk : key (f r) = key r) :
    updateWhere p f t = put (f r) t := by
  unfold updateWhere put
  apply List.map_congr_left
  intro x hx
  by_cases hx' : p x = true
  · rw [if_pos hx', hu x hx hx', if_pos hk.symm]
  · rw [if_neg hx', if_neg]
    intro he
    exact hx' (ht.eq_of_key hx hr (he.trans hk) ▸ hp)

/-- The row that a guarded update of exactly one row rewrote. -/
theorem updateWhere_row {t : List α} (ht : UniqueKeys t) {p : α → Bool} {f : α → α}
    (h : affectedOne p t = true) (hk : ∀ x, key (f x) = key x) :
    ∃ r ∈ t, p r = true ∧ updateWhere p f t = put (f r) t := by
  obtain ⟨r, hr, hp, hu⟩ := affectedOne_row h
  exact ⟨r, hr, hp, updateWhere_eq_put ht hr hp hu (hk r)⟩

/-- **A guarded delete of one row removes its key.** -/
theorem deleteWhere_eq_remove {t : List α} (ht : UniqueKeys t) {p : α → Bool} {r : α} (hr : r ∈ t)
    (hp : p r = true) (hu : ∀ x ∈ t, p x = true → x = r) : deleteWhere p t = remove (key r) t := by
  unfold deleteWhere remove
  apply List.filter_congr
  intro x hx
  by_cases hx' : p x = true
  · simp [hu x hx hx', hp]
  · have : key x ≠ key r := fun he => hx' (ht.eq_of_key hx hr he ▸ hp)
    simp [hx', this]

/-- The row that a guarded delete of exactly one row dropped. -/
theorem deleteWhere_row {t : List α} (ht : UniqueKeys t) {p : α → Bool} (h : affectedOne p t = true) :
    ∃ r ∈ t, p r = true ∧ deleteWhere p t = remove (key r) t := by
  obtain ⟨r, hr, hp, hu⟩ := affectedOne_row h
  exact ⟨r, hr, hp, deleteWhere_eq_remove ht hr hp hu⟩

/-- Of two writes under one key, the later one stays. -/
theorem put_put {t : List α} {r r' : α} (h : key r = key r') : put r' (put r t) = put r' t := by
  unfold put
  rw [List.map_map]
  apply List.map_congr_left
  intro x _
  simp only [Function.comp_apply]
  by_cases hx : key x = key r
  · rw [if_pos hx, if_pos h, if_pos (hx.trans h)]
  · rw [if_neg hx]

/-- Writing a row that is there changes nothing. -/
theorem put_self {t : List α} (ht : UniqueKeys t) {r : α} (hr : r ∈ t) : put r t = t := by
  unfold put
  rw [List.map_congr_left (g := id) ?_, List.map_id]
  intro x hx
  split
  · rename_i h; exact (ht.eq_of_key hx hr h).symm
  · rfl

theorem mem_put {t : List α} {r x : α} :
    x ∈ put r t ↔ (x = r ∧ ∃ y ∈ t, key y = key r) ∨ (x ∈ t ∧ key x ≠ key r) := by
  unfold put
  rw [List.mem_map]
  constructor
  · rintro ⟨y, hy, rfl⟩
    by_cases h : key y = key r
    · exact Or.inl ⟨if_pos h, y, hy, h⟩
    · rw [if_neg h]; exact Or.inr ⟨hy, h⟩
  · rintro (⟨rfl, y, hy, h⟩ | ⟨hx, h⟩)
    · exact ⟨y, hy, if_pos h⟩
    · exact ⟨x, hx, if_neg h⟩

theorem mem_put_self {t : List α} {r y : α} (hy : y ∈ t) (h : key y = key r) : r ∈ put r t :=
  mem_put.2 (Or.inl ⟨rfl, y, hy, h⟩)

theorem mem_put_of_ne {t : List α} {r x : α} (hx : x ∈ t) (h : key x ≠ key r) : x ∈ put r t :=
  mem_put.2 (Or.inr ⟨hx, h⟩)

/-- A keyed write loses no key. -/
theorem exists_mem_put {t : List α} {r x : α} (hx : x ∈ t) : ∃ y ∈ put r t, key y = key x := by
  by_cases h : key x = key r
  · exact ⟨r, mem_put_self hx h, h.symm⟩
  · exact ⟨x, mem_put_of_ne hx h, rfl⟩

/-- A row that a keyed write leaves behind is the written one or an old one with another key. -/
theorem of_mem_put {t : List α} {r x : α} (h : x ∈ put r t) : x = r ∨ (x ∈ t ∧ key x ≠ key r) := by
  rcases mem_put.1 h with ⟨h, -⟩ | h
  · exact Or.inl h
  · exact Or.inr h

theorem mem_remove {t : List α} {k : κ} {x : α} : x ∈ remove k t ↔ x ∈ t ∧ key x ≠ k := by
  simp [remove, List.mem_filter]

/-! ## Columns -/

/-- A column that the write keeps is unchanged. -/
theorem map_put {t : List α} (ht : UniqueKeys t) {r y : α} (hy : y ∈ t) (hk : key y = key r)
    (g : α → β) (hg : g r = g y) : (put r t).map g = t.map g := by
  unfold put
  rw [List.map_map]
  apply List.map_congr_left
  intro x hx
  simp only [Function.comp_apply]
  split
  · rename_i h
    rw [hg, ht.eq_of_key hx hy (h.trans hk.symm)]
  · rfl

theorem keys_put (r : α) (t : List α) : keys (put r t) = keys t := by
  unfold keys put
  rw [List.map_map]
  apply List.map_congr_left
  intro x _
  simp only [Function.comp_apply]
  split
  · rename_i h; exact h.symm
  · rfl

theorem UniqueKeys.put {t : List α} (ht : UniqueKeys t) (r : α) : UniqueKeys (put r t) := by
  unfold UniqueKeys at *; rw [keys_put]; exact ht

theorem UniqueKeys.remove {t : List α} (ht : UniqueKeys t) (k : κ) : UniqueKeys (remove k t) :=
  (List.Sublist.map key List.filter_sublist).nodup ht

/-- A unique column stays unique when the written row keeps its value there. -/
theorem nodup_map_put {t : List α} (ht : UniqueKeys t) {r y : α} (hy : y ∈ t) (hk : key y = key r)
    {g : α → β} (hg : g r = g y) (h : (t.map g).Nodup) : ((put r t).map g).Nodup := by
  rw [map_put ht hy hk g hg]; exact h

theorem nodup_map_remove {t : List α} {g : α → β} (k : κ) (h : (t.map g).Nodup) :
    ((remove k t).map g).Nodup :=
  (List.Sublist.map g List.filter_sublist).nodup h

/-! ## Counts and sums -/

theorem countP_remove {t : List α} (ht : UniqueKeys t) {r : α} (hr : r ∈ t) (p : α → Bool) :
    (remove (key r) t).countP p + (if p r then 1 else 0) = t.countP p := by
  induction t with
  | nil => simp at hr
  | cons a t ih =>
    have hnd : key a ∉ t.map key ∧ UniqueKeys t := by
      unfold UniqueKeys keys at ht ⊢; exact List.nodup_cons.1 ht
    by_cases ha : key a = key r
    · have har : a = r := ht.eq_of_key List.mem_cons_self hr ha
      subst har
      have hrest : remove (key a) t = t := by
        unfold remove; rw [List.filter_eq_self]
        intro x hx
        simp only [ne_eq, decide_not, Bool.not_eq_eq_eq_not, Bool.not_true, decide_eq_false_iff_not]
        intro he; exact hnd.1 (he ▸ List.mem_map_of_mem hx)
      have hcons : remove (key a) (a :: t) = remove (key a) t := by simp [remove]
      rw [hcons, hrest, List.countP_cons]
    · have hr' : r ∈ t := by
        rcases List.mem_cons.1 hr with h | h
        · exact absurd (h ▸ rfl) ha
        · exact h
      have hcons : remove (key r) (a :: t) = a :: remove (key r) t := by simp [remove, ha]
      rw [hcons, List.countP_cons, List.countP_cons, ← ih hnd.2 hr']; omega

theorem countP_put {t : List α} (ht : UniqueKeys t) {r y : α} (hy : y ∈ t) (hk : key y = key r)
    {p : α → Bool} (hp : p r = p y) : (put r t).countP p = t.countP p := by
  have h := map_put ht hy hk p hp
  have hc : ∀ l : List α, l.countP p = (l.map p).countP id := by
    intro l; rw [List.countP_map]; rfl
  rw [hc, hc, h]

/-- A keyed write changes a column sum by the difference at the written row. -/
theorem sum_put {t : List α} (ht : UniqueKeys t) {r y : α} (hy : y ∈ t) (hk : key y = key r)
    (g : α → ℤ) : ((put r t).map g).sum = (t.map g).sum - g y + g r := by
  induction t with
  | nil => simp at hy
  | cons a t ih =>
    have hnd : key a ∉ t.map key ∧ UniqueKeys t := by
      unfold UniqueKeys keys at ht ⊢; exact List.nodup_cons.1 ht
    have hcons : put r (a :: t) = (if key a = key r then r else a) :: put r t := by simp [put]
    rw [hcons]
    by_cases ha : key a = key r
    · have hay : a = y := ht.eq_of_key List.mem_cons_self hy (ha.trans hk.symm)
      subst hay
      have hrest : put r t = t := by
        unfold put
        rw [List.map_congr_left (g := id) ?_, List.map_id]
        intro x hx
        rw [if_neg]; rfl
        intro he; exact hnd.1 (by rw [ha, ← he]; exact List.mem_map_of_mem hx)
      rw [if_pos ha, hrest, List.map_cons, List.sum_cons, List.map_cons, List.sum_cons]; omega
    · have hy' : y ∈ t := by
        rcases List.mem_cons.1 hy with h | h
        · exact absurd (h ▸ hk) ha
        · exact h
      rw [if_neg ha, List.map_cons, List.sum_cons, List.map_cons, List.sum_cons, ih hnd.2 hy']; omega

/-! ## Rows before and after -/

/-- Every row is still there, and `R` relates it to the row that now has its key. -/
structure RowsMove (R : α → α → Prop) (t t' : List α) : Prop where
  kept : ∀ x ∈ t, ∃ x' ∈ t', key x' = key x
  moves : ∀ x ∈ t, ∀ x' ∈ t', key x' = key x → R x x'

section RowsMove

variable {R : α → α → Prop}

omit [DecidableEq κ] in
theorem RowsMove.refl {t : List α} (ht : UniqueKeys t) (hR : ∀ x, R x x) : RowsMove R t t :=
  ⟨fun x hx => ⟨x, hx, rfl⟩, fun _ hx x' hx' h => ht.eq_of_key hx' hx h ▸ hR x'⟩

/-- A keyed write moves the written row; the rows under other keys stay. -/
theorem RowsMove.put_of_ne {t : List α} (ht : UniqueKeys t) {r y : α} (hR : ∀ x ∈ t, key x ≠ key r → R x x)
    (hy : y ∈ t) (hk : key y = key r) (h : R y r) : RowsMove R t (Table.put r t) := by
  constructor
  · exact fun _ hx => exists_mem_put hx
  · intro x hx x' hx' he
    rcases of_mem_put hx' with rfl | ⟨hx', hne⟩
    · rw [ht.eq_of_key hx hy (he.symm.trans hk.symm)]; exact h
    · have hxx : x' = x := ht.eq_of_key hx' hx he
      rw [hxx] at hne ⊢
      exact hR x hx hne

theorem RowsMove.put {t : List α} (ht : UniqueKeys t) (hR : ∀ x, R x x) {r y : α} (hy : y ∈ t)
    (hk : key y = key r) (h : R y r) : RowsMove R t (Table.put r t) :=
  .put_of_ne ht (fun x _ _ => hR x) hy hk h

omit [DecidableEq κ] in
theorem RowsMove.append {t : List α} (ht : UniqueKeys t) (hR : ∀ x, R x x) {r : α}
    (hr : ∀ x ∈ t, key x ≠ key r) : RowsMove R t (t ++ [r]) := by
  constructor
  · intro x hx; exact ⟨x, List.mem_append_left _ hx, rfl⟩
  · intro x hx x' hx' he
    rcases List.mem_append.1 hx' with hx' | hx'
    · rw [ht.eq_of_key hx' hx he]; exact hR x
    · rw [List.mem_singleton] at hx'
      exact absurd (hx' ▸ he.symm) (hr x hx)

omit [DecidableEq κ] in
theorem RowsMove.trans {t t' t'' : List α} (hR : ∀ {x y z}, R x y → R y z → R x z) (h : RowsMove R t t')
    (h' : RowsMove R t' t'') : RowsMove R t t'' := by
  constructor
  · intro x hx
    obtain ⟨y, hy, hyx⟩ := h.kept x hx
    obtain ⟨z, hz, hzy⟩ := h'.kept y hy
    exact ⟨z, hz, hzy.trans hyx⟩
  · intro x hx z hz hzx
    obtain ⟨y, hy, hyx⟩ := h.kept x hx
    exact hR (h.moves x hx y hy hyx) (h'.moves y hy z hz (hzx.trans hyx.symm))

end RowsMove

/-! ## One row -/

/-- The row under `k` is the same, or there is none on both sides. -/
def SameRow (k : κ) (t t' : List α) : Prop := ∀ x, key x = k → (x ∈ t' ↔ x ∈ t)

section SameRow

variable {k : κ}

omit [DecidableEq κ] in
theorem SameRow.refl (t : List α) : SameRow k t t := fun _ _ => Iff.rfl

omit [DecidableEq κ] in
theorem SameRow.trans {t t' t'' : List α} (h : SameRow k t t') (h' : SameRow k t' t'') : SameRow k t t'' :=
  fun x hx => (h' x hx).trans (h x hx)

theorem SameRow.put {r : α} (hr : key r ≠ k) (t : List α) : SameRow k t (Table.put r t) := by
  intro x hx
  constructor
  · intro hm
    rcases of_mem_put hm with rfl | ⟨hm, -⟩
    · exact absurd hx hr
    · exact hm
  · intro hm
    exact mem_put_of_ne hm fun he => hr (he.symm.trans hx)

theorem SameRow.remove {k' : κ} (hk : k' ≠ k) (t : List α) : SameRow k t (Table.remove k' t) := by
  intro x hx
  rw [mem_remove]
  exact ⟨fun h => h.1, fun h => ⟨h, fun he => hk (he.symm.trans hx)⟩⟩

end SameRow

/-! ## Generated keys -/

/-- The next row id: one above the largest id in the table. -/
def nextId {α : Type*} [Keyed α ℕ] (t : List α) : ℕ := (t.map key).foldr max 0 + 1

theorem lt_nextId {α : Type*} [Keyed α ℕ] {t : List α} {x : α} (hx : x ∈ t) : key x < nextId t := by
  unfold nextId
  induction t with
  | nil => simp at hx
  | cons a t ih =>
    rw [List.map_cons, List.foldr_cons]
    rcases List.mem_cons.1 hx with rfl | hx
    · omega
    · have := ih hx; omega

/-- Rows in the order of their ids. -/
def Ordered {α : Type*} [Keyed α ℕ] (t : List α) : Prop := (keys t).Pairwise (· < ·)

section Ordered

variable {α : Type*} [Keyed α ℕ]

theorem Ordered.unique {t : List α} (h : Ordered t) : UniqueKeys t :=
  List.Pairwise.imp (fun hab => Nat.ne_of_lt hab) h

theorem Ordered.put {t : List α} (h : Ordered t) (r : α) : Ordered (put r t) := by
  unfold Ordered at *; rw [keys_put]; exact h

theorem Ordered.remove {t : List α} (h : Ordered t) (k : ℕ) : Ordered (remove k t) :=
  List.Pairwise.sublist (List.Sublist.map key List.filter_sublist) h

theorem Ordered.append {t : List α} (h : Ordered t) {r : α} (hr : key r = nextId t) :
    Ordered (t ++ [r]) := by
  unfold Ordered keys at *
  rw [List.map_append, List.pairwise_append]
  refine ⟨h, by simp, ?_⟩
  intro a ha b hb
  obtain ⟨x, hx, rfl⟩ := List.mem_map.1 ha
  simp only [List.map_cons, List.map_nil, List.mem_singleton] at hb
  rw [hb, hr]; exact lt_nextId hx

end Ordered

end Table
