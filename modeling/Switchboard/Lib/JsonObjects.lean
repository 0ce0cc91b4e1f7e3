import Mathlib.Data.List.Perm.Basic
import Switchboard.Lib.JsonPrint
import Switchboard.Lib.Utf8

/-!
# Mappings of JSON

A mapping that is written with its keys sorted and read by a decoder that refuses a repeated key.

* `sorted`: a value with the keys of its mappings in order.
* `distinctPairs`: the hook that refuses a repeated key.
* `Decoded`, `decoded_loads`: what a decoder returns has passed its hooks and its limits.
* `readable_sorted`: sorting keeps a value within the limits of a strict decoder.
* `loads_sorted`: the sorted text of a value is read as the sorted value.
* `strict_ascii_text`: the bytes of an ASCII text are decoded as the text.
-/

namespace JsonText

open Transaction

variable {F : Type} {d : Decoder F} {e : Encoder F}

/-! ## Sorted keys -/

def byName (f g : String × Value F) : Bool := decide (f.1 ≤ g.1)

mutual

/-- `sort_keys=True`. -/
def sorted : Value F → Value F
  | .arr items => .arr (sortedItems items)
  | .obj fields => .obj ((sortedFields fields).mergeSort byName)
  | value => value

def sortedItems : List (Value F) → List (Value F)
  | [] => []
  | item :: items => sorted item :: sortedItems items

def sortedFields : List (String × Value F) → List (String × Value F)
  | [] => []
  | (name, value) :: fields => (name, sorted value) :: sortedFields fields

end

theorem sortedItems_eq (items : List (Value F)) : sortedItems items = items.map sorted := by
  induction items with
  | nil => rfl
  | cons item items ih => rw [sortedItems, ih, List.map_cons]

theorem sortedFields_eq (fields : List (String × Value F)) :
    sortedFields fields = fields.map fun f => (f.1, sorted f.2) := by
  induction fields with
  | nil => rfl
  | cons field fields ih =>
    obtain ⟨name, value⟩ := field
    rw [sortedFields, ih, List.map_cons]

theorem sorted_arr (items : List (Value F)) : sorted (.arr items) = .arr (items.map sorted) := by
  rw [sorted, sortedItems_eq]

/-- The fields of a mapping in the order of their names, each with its value sorted. -/
def orderedFields (fields : List (String × Value F)) : List (String × Value F) :=
  (fields.map fun f => (f.1, sorted f.2)).mergeSort byName

theorem sorted_obj (fields : List (String × Value F)) : sorted (.obj fields) = .obj (orderedFields fields) := by
  rw [sorted, sortedFields_eq]
  rfl

theorem orderedFields_perm (fields : List (String × Value F)) :
    (orderedFields fields).Perm (fields.map fun f => (f.1, sorted f.2)) := List.mergeSort_perm _ _

theorem names_orderedFields (fields : List (String × Value F)) :
    ((orderedFields fields).map Prod.fst).Perm (fields.map Prod.fst) := by
  have hperm := (orderedFields_perm fields).map Prod.fst
  rwa [List.map_map] at hperm

/-! ## The length of a text -/

/-- The characters of a field and of what separates it from the others. -/
def fieldLength (e : Encoder F) (f : String × Value F) : ℕ := (printString e f.1).length + (print e f.2).length + 2

theorem length_printFields_eq (fields : List (String × Value F)) :
    (printFields e fields).length = (fields.map (fieldLength e)).sum := by
  induction fields with
  | nil => rfl
  | cons f fields ih =>
    obtain ⟨name, value⟩ := f
    simp only [printFields, List.length_cons, List.length_append, ih, List.map_cons, List.sum_cons, fieldLength]
    omega

theorem length_print_obj {fields : List (String × Value F)} (h : fields ≠ []) :
    (print e (.obj fields)).length = 1 + (fields.map (fieldLength e)).sum := by
  cases fields with
  | nil => exact (h rfl).elim
  | cons f fields =>
    obtain ⟨name, value⟩ := f
    simp only [print, List.length_cons, List.length_append, length_printFields_eq, List.map_cons, List.sum_cons,
      fieldLength, List.length_nil]
    omega

theorem length_printItems_eq (items : List (Value F)) :
    (printItems e items).length = (items.map fun item => (print e item).length + 1).sum := by
  induction items with
  | nil => rfl
  | cons item items ih =>
    simp only [printItems, List.length_cons, List.length_append, ih, List.map_cons, List.sum_cons]

theorem length_print_arr {items : List (Value F)} (h : items ≠ []) :
    (print e (.arr items)).length = 1 + (items.map fun item => (print e item).length + 1).sum := by
  cases items with
  | nil => exact (h rfl).elim
  | cons item items =>
    simp only [print, List.length_cons, List.length_append, length_printItems_eq, List.map_cons, List.sum_cons,
      List.length_nil]
    omega

mutual

/-- **The text of a value is as long as that of the sorted value.** -/
theorem length_print_sorted : ∀ v : Value F, (print e (sorted v)).length = (print e v).length
  | .null | .bool _ | .int _ | .float _ | .str _ => rfl
  | .arr [] => rfl
  | .arr (item :: items) => by
    rw [sorted_arr, length_print_arr (by simp), length_print_arr (by simp), List.map_map]
    exact congrArg (1 + ·) (congrArg List.sum (lengths_sorted (item :: items)))
  | .obj [] => by
    rw [sorted_obj, orderedFields, List.map_nil, List.mergeSort_nil]
  | .obj (f :: fields) => by
    have hperm := orderedFields_perm (f :: fields)
    have hne : orderedFields (f :: fields) ≠ [] := by
      intro h
      have hlength := hperm.length_eq
      rw [h] at hlength
      cases hlength
    rw [sorted_obj, length_print_obj hne, length_print_obj (by simp), (hperm.map (fieldLength e)).sum_nat, List.map_map]
    exact congrArg (1 + ·) (congrArg List.sum (fieldLengths_sorted (f :: fields)))

theorem lengths_sorted : ∀ items : List (Value F),
    items.map ((fun item => (print e item).length + 1) ∘ sorted) = items.map fun item => (print e item).length + 1
  | [] => rfl
  | item :: items => by
    rw [List.map_cons, List.map_cons, lengths_sorted items, Function.comp_apply, length_print_sorted item]

theorem fieldLengths_sorted : ∀ fields : List (String × Value F),
    fields.map (fieldLength e ∘ fun f => (f.1, sorted f.2)) = fields.map (fieldLength e)
  | [] => rfl
  | (name, value) :: fields => by
    rw [List.map_cons, List.map_cons, fieldLengths_sorted fields, Function.comp_apply, fieldLength, fieldLength,
      length_print_sorted value]

end

/-! ## Strict decoders -/

/-- An `object_pairs_hook` that refuses a repeated key. -/
def distinctPairs (pairs : List (String × Value F)) : Except Error (List (String × Value F)) :=
  if (pairs.map Prod.fst).Nodup then .ok pairs else .error .value

theorem distinctPairs_ok {pairs fields : List (String × Value F)} :
    distinctPairs pairs = .ok fields ↔ fields = pairs ∧ (pairs.map Prod.fst).Nodup := by
  unfold distinctPairs
  split
  · rename_i hnodup
    exact ⟨fun h => ⟨(Except.ok.inj h).symm, hnodup⟩, fun h => by rw [h.1]⟩
  · rename_i hnodup
    constructor
    · intro h
      cases h
    · intro h
      exact absurd h.2 hnodup

/-- **Sorting keeps a value within the limits of a strict decoder.** -/
theorem readable_sorted (hd : d.objectPairs = distinctPairs) {limit : ℕ} {v : Value F} (h : Readable d e limit v) :
    Readable d e limit (sorted v) := by
  induction h with
  | null => exact .null
  | bool b => exact .bool b
  | int h => exact .int h
  | float h => exact .float h
  | str s => exact .str s
  | arr h ih =>
    rw [sorted_arr]
    refine .arr fun item hitem => ?_
    obtain ⟨w, hw, rfl⟩ := List.mem_map.1 hitem
    exact ih w hw
  | @obj limit fields hpairs h ih =>
    rw [sorted_obj]
    rw [hd] at hpairs
    have hnodup := (distinctPairs_ok.1 hpairs).2
    refine .obj ?_ fun field hfield => ?_
    · rw [hd]
      exact distinctPairs_ok.2 ⟨rfl, (names_orderedFields fields).nodup_iff.2 hnodup⟩
    · obtain ⟨w, hw, rfl⟩ := List.mem_map.1 ((orderedFields_perm fields).mem_iff.1 hfield)
      exact ih w hw

/-- **The sorted text of a value is read as the sorted value.** -/
theorem loads_sorted (hd : d.objectPairs = distinctPairs) (hescape : ReadsBack e.escape) {v : Value F}
    (h : Readable d e d.recursionLimit v) : loads d (print e (sorted v)) = .ok (sorted v) :=
  loads_print hescape (readable_sorted hd h)

/-! ## What a decoder returns -/

/-- A value that a decoder can return: its integers are within the limit, its mappings come out of the hook. -/
inductive Decoded (d : Decoder F) : Value F → Prop
  | null : Decoded d .null
  | bool (b : Bool) : Decoded d (.bool b)
  | int {i : ℤ} (h : (Nat.toDigits 10 i.natAbs).length ≤ d.maximumDigits) : Decoded d (.int i)
  | float (f : F) : Decoded d (.float f)
  | str (s : String) : Decoded d (.str s)
  | arr {items : List (Value F)} (h : ∀ item ∈ items, Decoded d item) : Decoded d (.arr items)
  | obj {pairs fields : List (String × Value F)} (hpairs : d.objectPairs pairs = .ok fields)
      (h : ∀ pair ∈ pairs, Decoded d pair.2) : Decoded d (.obj fields)

/-- Everything a scanner returns. -/
def Yields {α : Type} (scan : List Char → Except Error (α × List Char)) (P : α → Prop) : Prop :=
  ∀ s v rest, scan s = .ok (v, rest) → P v

theorem lt_of_digits {digits : List Char} (h : ∀ c ∈ digits, isDigit c = true) :
    natOfDigits digits < 10 ^ digits.length := by
  unfold natOfDigits
  induction digits using List.reverseRecOn with
  | nil => exact Nat.one_pos
  | append_singleton digits c ih =>
    have hdigits := ih fun x hx => h x (List.mem_append_left _ hx)
    have hc := h c (by simp)
    simp only [isDigit, Bool.and_eq_true, decide_eq_true_eq, Char.le_def, UInt32.le_iff_toNat_le] at hc
    have hvalue : digitValue c ≤ 9 := by
      have hnine : c.toNat ≤ 57 := hc.2
      unfold digitValue
      omega
    rw [List.foldl_append, List.foldl_cons, List.foldl_nil, List.length_append, List.length_singleton, Nat.pow_succ]
    omega

theorem digits_integerPart {s digits rest : List Char} (h : integerPart s = some (digits, rest)) :
    ∀ c ∈ digits, isDigit c = true := by
  unfold integerPart at h
  split at h
  · rename_i c cs
    split at h
    · rename_i hzero
      obtain ⟨rfl, -⟩ := Prod.mk.inj (Option.some.inj h)
      subst hzero
      intro x hx
      obtain rfl := List.mem_singleton.1 hx
      rfl
    · split at h
      · rename_i hdigit
        obtain ⟨rfl, -⟩ := Prod.mk.inj (Option.some.inj h)
        intro x hx
        rcases List.mem_cons.1 hx with rfl | hx
        · exact hdigit
        · exact List.all_eq_true.1 List.all_takeWhile x hx
      · cases h
  · cases h

theorem length_integerPart {s digits rest : List Char} (h : integerPart s = some (digits, rest)) : 0 < digits.length := by
  unfold integerPart at h
  split at h
  · split at h
    · obtain ⟨rfl, -⟩ := Prod.mk.inj (Option.some.inj h)
      exact Nat.one_pos
    · split at h
      · obtain ⟨rfl, -⟩ := Prod.mk.inj (Option.some.inj h)
        exact Nat.succ_pos _
      · cases h
  · cases h

theorem yields_scanUnsigned (negative : Bool) : Yields (scanUnsigned d negative) (Decoded d) := by
  intro s v rest h
  unfold scanUnsigned at h
  split at h
  · cases h
  · rename_i digits after hdigits
    dsimp only at h
    split at h
    · split at h
      · cases h
      · rename_i hlong
        obtain ⟨rfl, -⟩ := Prod.mk.inj (Except.ok.inj h)
        have habs : (if negative then -(natOfDigits digits : ℤ) else natOfDigits digits).natAbs = natOfDigits digits := by
          split
          · omega
          · omega
        refine .int ?_
        rw [habs]
        have hpos : 0 < digits.length := length_integerPart hdigits
        have hshort := Nat.toDigits_length 10 _ _ hpos (lt_of_digits (digits_integerPart hdigits))
        omega
    · obtain ⟨rfl, -⟩ := Prod.mk.inj (Except.ok.inj h)
      exact .float _

theorem yields_scanConstant (word : List Char) {otherwise : Except Error (Value F × List Char)} {s : List Char}
    (hother : ∀ v rest, otherwise = .ok (v, rest) → Decoded d v) {v : Value F} {rest : List Char}
    (h : scanConstant d word s otherwise = .ok (v, rest)) : Decoded d v := by
  unfold scanConstant at h
  split at h
  · exact hother v rest h
  · obtain ⟨f, -, heq⟩ := except_bind_ok.1 h
    cases heq
    exact .float f

theorem yields_scanNumber : Yields (scanNumber d) (Decoded d) := by
  intro s v rest h
  unfold scanNumber at h
  split at h
  · exact yields_scanConstant _ (yields_scanUnsigned true _) h
  · exact yields_scanUnsigned false _ _ _ h

theorem yields_scanLiteral {w : Value F} (hw : Decoded d w) (word : List Char) :
    Yields (fun s => scanLiteral word s w) (Decoded d) := by
  intro s v rest h
  dsimp only [scanLiteral] at h
  split at h
  · cases h
  · cases h
    exact hw

section rests

variable {scan : Scanner F} (hscan : Yields scan (Decoded d))

include hscan

theorem yields_scanItems (fuel : ℕ) : Yields (scanItems scan fuel) fun items => ∀ item ∈ items, Decoded d item := by
  induction fuel with
  | zero =>
    intro s v rest h
    cases h
  | succ fuel ih =>
    intro s items rest h
    unfold scanItems at h
    obtain ⟨⟨item, after⟩, hitem, h⟩ := except_bind_ok.1 h
    have hfirst := hscan _ _ _ hitem
    dsimp only at h
    split at h
    · obtain ⟨⟨others, after'⟩, hothers, heq⟩ := except_bind_ok.1 h
      cases heq
      exact List.forall_mem_cons.2 ⟨hfirst, ih _ _ _ hothers⟩
    · cases h
      exact List.forall_mem_singleton.2 hfirst
    · cases h

theorem yields_scanArray : Yields (scanArray scan) (Decoded d) := by
  intro s v rest h
  unfold scanArray at h
  split at h
  · cases h
    refine .arr fun item hitem => ?_
    cases hitem
  · obtain ⟨⟨items, after⟩, hitems, heq⟩ := except_bind_ok.1 h
    cases heq
    exact .arr (yields_scanItems hscan _ _ _ _ hitems)

theorem yields_scanPair : Yields (scanPair scan) fun pair => Decoded d pair.2 := by
  intro s pair rest h
  unfold scanPair at h
  split at h
  · split at h
    · obtain ⟨⟨key, after⟩, -, h⟩ := except_bind_ok.1 h
      dsimp only at h
      split at h
      · obtain ⟨⟨v, after'⟩, hv, heq⟩ := except_bind_ok.1 h
        cases heq
        exact hscan _ _ _ hv
      · cases h
    · cases h
  · cases h

theorem yields_scanPairs (fuel : ℕ) : Yields (scanPairs scan fuel) fun pairs => ∀ pair ∈ pairs, Decoded d pair.2 := by
  induction fuel with
  | zero =>
    intro s v rest h
    cases h
  | succ fuel ih =>
    intro s pairs rest h
    unfold scanPairs at h
    obtain ⟨⟨pair, after⟩, hpair, h⟩ := except_bind_ok.1 h
    have hfirst := yields_scanPair hscan _ _ _ hpair
    dsimp only at h
    split at h
    · split at h
      · obtain ⟨⟨others, after'⟩, hothers, heq⟩ := except_bind_ok.1 h
        cases heq
        exact List.forall_mem_cons.2 ⟨hfirst, ih _ _ _ hothers⟩
      · split at h
        · cases h
          exact List.forall_mem_singleton.2 hfirst
        · cases h
    · cases h

theorem yields_scanObject : Yields (scanObject d scan) (Decoded d) := by
  intro s v rest h
  unfold scanObject at h
  split at h
  · cases h
  · split at h
    · obtain ⟨fields, hfields, heq⟩ := except_bind_ok.1 h
      cases heq
      refine .obj hfields fun pair hpair => ?_
      cases hpair
    · obtain ⟨⟨pairs, after⟩, hpairs, h⟩ := except_bind_ok.1 h
      obtain ⟨fields, hfields, heq⟩ := except_bind_ok.1 h
      cases heq
      exact .obj hfields (yields_scanPairs hscan _ _ _ _ hpairs)

end rests

theorem yields_scanWith {array object : Scanner F} (harray : Yields array (Decoded d))
    (hobject : Yields object (Decoded d)) : Yields (scanWith d array object) (Decoded d) := by
  intro s v rest h
  unfold scanWith at h
  split at h
  · cases h
  · split at h
    · obtain ⟨⟨t, after⟩, -, heq⟩ := except_bind_ok.1 h
      cases heq
      exact .str _
    split at h
    · exact hobject _ _ _ h
    split at h
    · exact harray _ _ _ h
    split at h
    · exact yields_scanLiteral .null _ _ _ _ h
    split at h
    · exact yields_scanLiteral (.bool true) _ _ _ _ h
    split at h
    · exact yields_scanLiteral (.bool false) _ _ _ _ h
    split at h
    · exact yields_scanConstant _ (fun v rest hv => by cases hv) h
    split at h
    · exact yields_scanConstant _ (fun v rest hv => by cases hv) h
    · exact yields_scanNumber _ _ _ h

theorem yields_scanValue (limit : ℕ) : Yields (scanValue d limit) (Decoded d) := by
  induction limit with
  | zero =>
    have hnone : Yields (fun _ => .error .recursion) (Decoded d) := by
      intro s v rest h
      cases h
    exact yields_scanWith hnone hnone
  | succ limit ih =>
    exact yields_scanWith (yields_scanArray ih) (yields_scanObject ih)

/-- **What a decoder returns has passed its hooks and its limits.** -/
theorem decoded_loads {s : List Char} {v : Value F} (h : loads d s = .ok v) : Decoded d v := by
  unfold loads at h
  split at h
  · cases h
  · obtain ⟨⟨w, rest⟩, hw, h⟩ := except_bind_ok.1 h
    dsimp only at h
    split at h
    · cases h
      exact yields_scanValue _ _ _ _ hw
    · cases h

/-! ## ASCII text -/

/-- An encoder that writes ASCII characters only. -/
structure Ascii (e : Encoder F) : Prop where
  escape : ∀ c, ∀ x ∈ e.escape c, x.toNat < 128
  float : ∀ f, ∀ x ∈ e.float f, x.toNat < 128

theorem ascii_append {s t : List Char} (hs : ∀ x ∈ s, x.toNat < 128) (ht : ∀ x ∈ t, x.toNat < 128) :
    ∀ x ∈ s ++ t, x.toNat < 128 := by
  intro x hx
  rcases List.mem_append.1 hx with hx | hx
  · exact hs x hx
  · exact ht x hx

theorem ascii_cons {c : Char} {s : List Char} (hc : c.toNat < 128) (hs : ∀ x ∈ s, x.toNat < 128) :
    ∀ x ∈ c :: s, x.toNat < 128 := List.forall_mem_cons.2 ⟨hc, hs⟩

theorem ascii_printString (he : Ascii e) (s : String) : ∀ x ∈ printString e s, x.toNat < 128 := by
  refine ascii_cons (by decide) (ascii_append ?_ (by decide))
  intro x hx
  obtain ⟨c, -, hx⟩ := List.mem_flatMap.1 hx
  exact he.escape c x hx

theorem ascii_int (i : ℤ) : ∀ x ∈ (toString i).toList, x.toNat < 128 := by
  have hdigits : ∀ x ∈ Nat.toDigits 10 i.natAbs, x.toNat < 128 := by
    intro x hx
    have hdigit := isDigit_toDigits hx
    simp only [isDigit, Bool.and_eq_true, decide_eq_true_eq, Char.le_def, UInt32.le_iff_toNat_le] at hdigit
    have hnine : x.toNat ≤ 57 := hdigit.2
    omega
  rw [toList_toString_int]
  split
  · exact ascii_cons (by decide) hdigits
  · exact hdigits

mutual

theorem ascii_print (he : Ascii e) : ∀ v : Value F, ∀ x ∈ print e v, x.toNat < 128
  | .null => by rw [print]; decide
  | .bool true => by rw [print]; decide
  | .bool false => by rw [print]; decide
  | .int i => ascii_int i
  | .float f => he.float f
  | .str s => ascii_printString he s
  | .arr [] => by rw [print]; decide
  | .arr (item :: items) =>
    ascii_append (ascii_append (ascii_cons (by decide) (ascii_print he item)) (ascii_printItems he items)) (by decide)
  | .obj [] => by rw [print]; decide
  | .obj ((name, value) :: fields) =>
    ascii_append
      (ascii_append
        (ascii_append (ascii_cons (by decide) (ascii_printString he name)) (ascii_cons (by decide) (ascii_print he value)))
        (ascii_printFields he fields))
      (by decide)

theorem ascii_printItems (he : Ascii e) : ∀ items : List (Value F), ∀ x ∈ printItems e items, x.toNat < 128
  | [] => by simp [printItems]
  | item :: items => ascii_append (ascii_cons (by decide) (ascii_print he item)) (ascii_printItems he items)

theorem ascii_printFields (he : Ascii e) : ∀ fields : List (String × Value F), ∀ x ∈ printFields e fields, x.toNat < 128
  | [] => by simp [printFields]
  | (name, value) :: fields =>
    ascii_append
      (ascii_append (ascii_cons (by decide) (ascii_printString he name)) (ascii_cons (by decide) (ascii_print he value)))
      (ascii_printFields he fields)

end

theorem utf8EncodeChar_ascii {c : Char} (h : c.toNat < 128) : String.utf8EncodeChar c = [UInt8.ofNat c.toNat] := by
  have hsmall : c.val ≤ 127 := UInt32.le_iff_toNat_le.2 (Nat.le_of_lt_succ h)
  rw [String.utf8EncodeChar_eq_singleton (Char.utf8Size_eq_one_iff.2 hsmall)]
  rfl

/-- **The bytes of an ASCII text are decoded as the text.** -/
theorem strict_ascii_text {text : List Char} (h : ∀ x ∈ text, x.toNat < 128) :
    Utf8.strict (text.flatMap String.utf8EncodeChar) = some text ∧
      (text.flatMap String.utf8EncodeChar).length = text.length := by
  have hbytes : text.flatMap String.utf8EncodeChar = text.map fun c => UInt8.ofNat c.toNat := by
    induction text with
    | nil => rfl
    | cons c text ih =>
      rw [List.flatMap_cons, utf8EncodeChar_ascii (h c List.mem_cons_self),
        ih fun x hx => h x (List.mem_cons_of_mem _ hx), List.map_cons]
      rfl
  have htoNat : ∀ c ∈ text, (UInt8.ofNat c.toNat).toNat = c.toNat := by
    intro c hc
    have hsmall := h c hc
    rw [UInt8.toNat_ofNat']
    omega
  rw [hbytes]
  refine ⟨?_, List.length_map _⟩
  rw [Utf8.strict_ascii, List.map_map]
  · refine congrArg some ?_
    refine (List.map_congr_left fun c hc => ?_).trans (List.map_id text)
    show Char.ofNat (UInt8.ofNat c.toNat).toNat = c
    rw [htoNat c hc, Char.ofNat_toNat]
  · intro b hb
    obtain ⟨c, hc, rfl⟩ := List.mem_map.1 hb
    rw [htoNat c hc]
    exact h c hc

end JsonText
