import Switchboard.Spec.Identity

/-!
# Canonical JSON tells documents apart

* `readsBack_escapeChar`, `readsBack_escapeAscii`: both escapes are undone by the scanner of strings.
* `canonicalJson_injective`, `canonicalAscii_injective`: documents with one text are the same once their keys are sorted.
* `same_of_sortKeys`: and then they are the same.
-/

namespace Switchboard

open JsonText

/-! ## Escapes -/

theorem scanString_unicode {a b c d : Char} {n : ℕ} (hhex : hexFour a b c d = some n) (high : Option ℕ)
    (rest : List Char) : scanString high ('\\' :: 'u' :: a :: b :: c :: d :: rest) =
      (scanString (unit high n).2 rest).map fun r => ((unit high n).1 ++ r.1, r.2) := by
  rw [scanString, hhex]
  dsimp only
  cases scanString (unit high n).2 rest <;> rfl

theorem scanString_short {c e : Char} (hc : shortEscape c = some e) (rest : List Char) :
    scanString none ('\\' :: c :: rest) = (scanString none rest).map fun r => (e :: r.1, r.2) := by
  have hu : c ≠ 'u' := by
    rintro rfl
    cases hc
  rw [scanString.eq_def]
  split
  · rename_i heq
    cases heq
  · rename_i heq
    exact absurd (List.cons.inj (List.cons.inj heq).2).1 hu
  · rename_i heq
    obtain ⟨rfl, rfl⟩ := List.cons.inj (List.cons.inj heq).2
    rw [hc]
    cases scanString none _ <;> rfl
  · rename_i hno heq
    obtain ⟨rfl, rfl⟩ := List.cons.inj heq
    exact absurd rfl (hno c rest rfl)

theorem scanString_plain {c : Char} (hquote : c.toNat ≠ 34) (hback : c ≠ '\\') (hcontrol : 32 ≤ c.toNat)
    (rest : List Char) : scanString none (c :: rest) = (scanString none rest).map fun r => (c :: r.1, r.2) := by
  rw [scanString.eq_def]
  split
  · rename_i heq
    cases heq
  · rename_i heq
    exact absurd (List.cons.inj heq).1 hback
  · rename_i heq
    exact absurd (List.cons.inj heq).1 hback
  · rename_i heq
    obtain ⟨rfl, rfl⟩ := List.cons.inj heq
    rw [if_neg hquote, if_neg (by simp [hback, hcontrol])]
    cases scanString none _ <;> rfl

theorem hexValue_hexDigit {n : ℕ} (h : n < 16) : hexValue (hexDigit n) = some n := by
  have hall : ∀ n < 16, hexValue (hexDigit n) = some n := by decide
  exact hall n h

theorem hexFour_digits {n : ℕ} (h : n < 65536) :
    hexFour (hexDigit (n / 4096)) (hexDigit (n / 256 % 16)) (hexDigit (n / 16 % 16)) (hexDigit (n % 16)) = some n := by
  unfold hexFour
  rw [hexValue_hexDigit (by omega), hexValue_hexDigit (by omega), hexValue_hexDigit (by omega),
    hexValue_hexDigit (by omega)]
  show some _ = some n
  congr 1
  omega

theorem scanString_unicodeEscape {n : ℕ} (h : n < 65536) (high : Option ℕ) (rest : List Char) :
    scanString high (unicodeEscape n ++ rest) =
      (scanString (unit high n).2 rest).map fun r => ((unit high n).1 ++ r.1, r.2) :=
  scanString_unicode (hexFour_digits h) high rest

/-- A character is no surrogate. -/
theorem not_surrogate (c : Char) : isHighSurrogate c.toNat = false ∧ isLowSurrogate c.toNat = false := by
  have hvalid : c.toNat < 0xD800 ∨ 0xDFFF < c.toNat ∧ c.toNat < 0x110000 := c.valid
  unfold isHighSurrogate isLowSurrogate
  simp only [decide_eq_false_iff_not]
  omega

theorem scanString_basic {c : Char} (h : c.toNat < 65536) (rest : List Char) :
    scanString none (unicodeEscape c.toNat ++ rest) = (scanString none rest).map fun r => (c :: r.1, r.2) := by
  obtain ⟨hhigh, hlow⟩ := not_surrogate c
  have hunit : unit none c.toNat = ([c], none) := by
    unfold unit
    dsimp only
    rw [if_neg (by simp [hhigh]), charOf, if_neg (by simp [hhigh, hlow]), Char.ofNat_toNat]
  rw [scanString_unicodeEscape h, hunit]
  rfl

/-- The letter of a control character is undone. -/
theorem shortEscape_letter {c letter : Char} (h : escapeLetter c = some letter) : shortEscape letter = some c := by
  unfold escapeLetter at h
  split at h
  case h_6 => cases h
  all_goals
    rename_i hc
    cases h
    rw [← Char.ofNat_toNat c, hc]
    rfl

/-- The other control characters are written with four digits, two of them zeros. -/
theorem unicodeEscape_control {n : ℕ} (h : n < 32) :
    unicodeEscape n = ['\\', 'u', '0', '0', hexDigit (n / 16), hexDigit (n % 16)] := by
  have hfirst : n / 4096 = 0 := by omega
  have hsecond : n / 256 % 16 = 0 := by omega
  have hthird : n / 16 % 16 = n / 16 := by omega
  unfold unicodeEscape
  rw [hfirst, hsecond, hthird]
  rfl

/-- **`json.dumps` without `ensure_ascii` is undone.** -/
theorem readsBack_escapeChar : ReadsBack escapeChar := by
  intro c rest
  unfold escapeChar
  simp only [Bool.or_eq_true, decide_eq_true_eq]
  by_cases hshort : c.toNat = 34 ∨ c = '\\'
  · rw [if_pos hshort]
    refine scanString_short ?_ rest
    unfold shortEscape
    rw [if_pos (by simp [hshort])]
  · rw [if_neg hshort]
    by_cases hcontrol : c.toNat < 32
    · rw [if_pos hcontrol]
      split
      · rename_i hletter
        exact scanString_short (shortEscape_letter hletter) rest
      · rw [← unicodeEscape_control hcontrol]
        exact scanString_basic (by omega) rest
    · rw [if_neg hcontrol]
      exact scanString_plain (fun h => hshort (.inl h)) (fun h => hshort (.inr h)) (by omega) rest

/-- A character beyond the basic plane is written as two surrogates. -/
theorem scanString_pair {c : Char} (h : 65536 ≤ c.toNat) (rest : List Char) :
    scanString none (unicodeEscape (0xD800 + (c.toNat - 65536) / 1024) ++
      (unicodeEscape (0xDC00 + (c.toNat - 65536) % 1024) ++ rest)) =
      (scanString none rest).map fun r => (c :: r.1, r.2) := by
  have hvalid : c.toNat < 0xD800 ∨ 0xDFFF < c.toNat ∧ c.toNat < 0x110000 := c.valid
  have hhigh : isHighSurrogate (0xD800 + (c.toNat - 65536) / 1024) = true := by
    unfold isHighSurrogate
    simp only [decide_eq_true_eq]
    omega
  have hlow : isLowSurrogate (0xDC00 + (c.toNat - 65536) % 1024) = true := by
    unfold isLowSurrogate
    simp only [decide_eq_true_eq]
    omega
  have hpoint : 0x10000 + (0xD800 + (c.toNat - 65536) / 1024 - 0xD800) * 0x400 +
      (0xDC00 + (c.toNat - 65536) % 1024 - 0xDC00) = c.toNat := by omega
  rw [scanString_unicodeEscape (by omega), unit, if_pos hhigh]
  dsimp only
  rw [scanString_unicodeEscape (by omega), unit, if_pos hlow, hpoint, Char.ofNat_toNat]
  cases scanString none rest <;> rfl

/-- **`json.dumps` with `ensure_ascii` is undone.** -/
theorem readsBack_escapeAscii : ReadsBack escapeAscii := by
  intro c rest
  unfold escapeAscii
  split
  · exact readsBack_escapeChar c rest
  · split
    · rename_i hbasic
      exact scanString_basic hbasic rest
    · rw [List.append_assoc]
      exact scanString_pair (by omega) rest

/-! ## Documents without floats -/

/-- A decoder without limits that matter: `n` digits, and arrays and mappings as they are. -/
def plainDecoder (n : ℕ) : Decoder FloatText where
  parseFloat := fun _ => ⟨"", by decide⟩
  parseConstant := fun _ => .error .decode
  objectPairs := .ok
  recursionLimit := n
  maximumDigits := n

section readable

variable (e : Encoder FloatText)

/-- The document is read within all limits from `n` on. -/
def ReadableFrom (n : ℕ) (v : Json) : Prop :=
  ∀ digits ≥ n, ∀ limit ≥ n, JsonText.Readable (plainDecoder digits) e limit v.toValue

theorem mem_toValues {items : List Json} {v : Value FloatText} (h : v ∈ Json.toValues items) :
    ∃ item ∈ items, v = item.toValue := by
  induction items with
  | nil => cases h
  | cons item items ih =>
    rw [Json.toValues] at h
    rcases List.mem_cons.1 h with rfl | h
    · exact ⟨item, List.mem_cons_self, rfl⟩
    · obtain ⟨item', hmem, rfl⟩ := ih h
      exact ⟨item', List.mem_cons_of_mem _ hmem, rfl⟩

theorem mem_toFields {fields : List (String × Json)} {f : String × Value FloatText} (h : f ∈ Json.toFields fields) :
    ∃ field ∈ fields, f.2 = field.2.toValue := by
  induction fields with
  | nil => cases h
  | cons field fields ih =>
    obtain ⟨name, value⟩ := field
    rw [Json.toFields] at h
    rcases List.mem_cons.1 h with rfl | h
    · exact ⟨(name, value), List.mem_cons_self, rfl⟩
    · obtain ⟨field', hmem, hf⟩ := ih h
      exact ⟨field', List.mem_cons_of_mem _ hmem, hf⟩

mutual

theorem exists_readable : ∀ v : Json, v.FloatFree → ∃ n, ReadableFrom e n v
  | .null, _ => ⟨0, fun _ _ _ _ => .null⟩
  | .bool b, _ => ⟨0, fun _ _ _ _ => .bool b⟩
  | .int i, _ => ⟨(Nat.toDigits 10 i.natAbs).length, fun _ hdigits _ _ => .int hdigits⟩
  | .str s, _ => ⟨0, fun _ _ _ _ => .str s⟩
  | .arr items, h => by
    obtain ⟨n, hn⟩ := exists_readable_items items h
    refine ⟨n + 1, fun digits hdigits limit hlimit => ?_⟩
    obtain ⟨limit, rfl⟩ : ∃ m, limit = m + 1 := ⟨limit - 1, by omega⟩
    refine .arr fun v hv => ?_
    obtain ⟨item, hmem, rfl⟩ := mem_toValues hv
    exact hn item hmem digits (by omega) limit (by omega)
  | .obj fields, h => by
    obtain ⟨n, hn⟩ := exists_readable_fields fields h
    refine ⟨n + 1, fun digits hdigits limit hlimit => ?_⟩
    obtain ⟨limit, rfl⟩ : ∃ m, limit = m + 1 := ⟨limit - 1, by omega⟩
    refine .obj rfl fun f hf => ?_
    obtain ⟨field, hmem, hvalue⟩ := mem_toFields hf
    rw [hvalue]
    exact hn field hmem digits (by omega) limit (by omega)

theorem exists_readable_items : ∀ items : List Json, Json.floatFreeItems items →
    ∃ n, ∀ item ∈ items, ReadableFrom e n item
  | [], _ => ⟨0, fun _ h => absurd h List.not_mem_nil⟩
  | item :: items, h => by
    obtain ⟨n, hn⟩ := exists_readable item h.1
    obtain ⟨m, hm⟩ := exists_readable_items items h.2
    refine ⟨n + m, fun v hv digits hdigits limit hlimit => ?_⟩
    rcases List.mem_cons.1 hv with rfl | hv
    · exact hn digits (by omega) limit (by omega)
    · exact hm v hv digits (by omega) limit (by omega)

theorem exists_readable_fields : ∀ fields : List (String × Json), Json.floatFreeFields fields →
    ∃ n, ∀ field ∈ fields, ReadableFrom e n field.2
  | [], _ => ⟨0, fun _ h => absurd h List.not_mem_nil⟩
  | (name, value) :: fields, h => by
    obtain ⟨n, hn⟩ := exists_readable value h.1
    obtain ⟨m, hm⟩ := exists_readable_fields fields h.2
    refine ⟨n + m, fun f hf digits hdigits limit hlimit => ?_⟩
    rcases List.mem_cons.1 hf with rfl | hf
    · exact hn digits (by omega) limit (by omega)
    · exact hm f hf digits (by omega) limit (by omega)

end

end readable

mutual

theorem toValue_injective : ∀ v w : Json, v.toValue = w.toValue → v = w
  | .arr items, .arr items', h => congrArg Json.arr (toValues_injective items items' (Value.arr.inj h))
  | .obj fields, .obj fields', h => congrArg Json.obj (toFields_injective fields fields' (Value.obj.inj h))
  | .null, w, h | .bool _, w, h | .int _, w, h | .float _, w, h | .str _, w, h => by
    cases w <;> simp_all [Json.toValue]
  | .arr _, .null, h | .arr _, .bool _, h | .arr _, .int _, h | .arr _, .float _, h | .arr _, .str _, h
  | .arr _, .obj _, h => by simp [Json.toValue] at h
  | .obj _, .null, h | .obj _, .bool _, h | .obj _, .int _, h | .obj _, .float _, h | .obj _, .str _, h
  | .obj _, .arr _, h => by simp [Json.toValue] at h

theorem toValues_injective : ∀ items items' : List Json, Json.toValues items = Json.toValues items' → items = items'
  | [], [], _ => rfl
  | [], _ :: _, h | _ :: _, [], h => by simp [Json.toValues] at h
  | v :: items, w :: items', h => by
    obtain ⟨hitem, hitems⟩ := List.cons.inj h
    rw [toValue_injective v w hitem, toValues_injective items items' hitems]

theorem toFields_injective : ∀ fields fields' : List (String × Json),
    Json.toFields fields = Json.toFields fields' → fields = fields'
  | [], [], _ => rfl
  | [], (_, _) :: _, h | (_, _) :: _, [], h => by simp [Json.toFields] at h
  | (name, v) :: fields, (name', w) :: fields', h => by
    obtain ⟨hfield, hfields⟩ := List.cons.inj h
    obtain ⟨hname, hvalue⟩ := Prod.mk.inj hfield
    rw [hname, toValue_injective v w hvalue, toFields_injective fields fields' hfields]

end

/-! ## Sorted keys -/

theorem sortItems_eq (items : List Json) : sortItems items = items.map sortKeys := by
  induction items with
  | nil => rfl
  | cons item items ih => rw [sortItems, ih, List.map_cons]

theorem sortFields_eq (fields : List (String × Json)) :
    sortFields fields = fields.map fun f => (f.1, sortKeys f.2) := by
  induction fields with
  | nil => rfl
  | cons field fields ih =>
    obtain ⟨name, value⟩ := field
    rw [sortFields, ih, List.map_cons]

theorem floatFreeItems_iff {items : List Json} : Json.floatFreeItems items ↔ ∀ item ∈ items, item.FloatFree := by
  induction items with
  | nil => simp [Json.floatFreeItems]
  | cons item items ih => rw [Json.floatFreeItems, List.forall_mem_cons, ih]

theorem floatFreeFields_iff {fields : List (String × Json)} :
    Json.floatFreeFields fields ↔ ∀ f ∈ fields, f.2.FloatFree := by
  induction fields with
  | nil => simp [Json.floatFreeFields]
  | cons field fields ih =>
    obtain ⟨name, value⟩ := field
    rw [Json.floatFreeFields, List.forall_mem_cons, ih]

mutual

theorem floatFree_sortKeys : ∀ v : Json, v.FloatFree → (sortKeys v).FloatFree
  | .null, h | .bool _, h | .int _, h | .str _, h => h
  | .arr items, h => floatFree_sortItems items h
  | .obj fields, h => by
    have hsorted := floatFreeFields_iff.1 (floatFree_sortFields fields h)
    exact floatFreeFields_iff.2 fun f hf => hsorted f (List.mem_mergeSort.1 hf)

theorem floatFree_sortItems : ∀ items : List Json, Json.floatFreeItems items → Json.floatFreeItems (sortItems items)
  | [], h => h
  | item :: items, h => ⟨floatFree_sortKeys item h.1, floatFree_sortItems items h.2⟩

theorem floatFree_sortFields : ∀ fields : List (String × Json),
    Json.floatFreeFields fields → Json.floatFreeFields (sortFields fields)
  | [], h => h
  | (_, value) :: fields, h => ⟨floatFree_sortKeys value h.1, floatFree_sortFields fields h.2⟩

end

theorem print_toValue_injective {e : Encoder FloatText} (he : ReadsBack e.escape) {v w : Json} (hv : v.FloatFree)
    (hw : w.FloatFree) (h : print e v.toValue = print e w.toValue) : v = w := by
  obtain ⟨n, hn⟩ := exists_readable e v hv
  obtain ⟨m, hm⟩ := exists_readable e w hw
  have hv' : JsonText.Readable (plainDecoder (n + m)) e (n + m) v.toValue := hn (n + m) (by omega) (n + m) (by omega)
  have hw' : JsonText.Readable (plainDecoder (n + m)) e (n + m) w.toValue := hm (n + m) (by omega) (n + m) (by omega)
  exact toValue_injective v w (print_injective he hv' hw' h)

/-- **Documents with one canonical text are the same once their keys are sorted.** -/
theorem canonicalJson_injective {v w : Json} (hv : v.FloatFree) (hw : w.FloatFree)
    (h : canonicalJson v = canonicalJson w) : sortKeys v = sortKeys w :=
  print_toValue_injective readsBack_escapeChar (floatFree_sortKeys v hv) (floatFree_sortKeys w hw) h

theorem canonicalAscii_injective {v w : Json} (hv : v.FloatFree) (hw : w.FloatFree)
    (h : canonicalAscii v = canonicalAscii w) : sortKeys v = sortKeys w :=
  print_toValue_injective readsBack_escapeAscii (floatFree_sortKeys v hv) (floatFree_sortKeys w hw) h

/-! ## Equality of documents -/

theorem sortKeys_obj (fields : List (String × Json)) :
    sortKeys (.obj fields) = .obj ((fields.map fun f => (f.1, sortKeys f.2)).mergeSort byKey) := by
  rw [sortKeys, sortFields_eq]

theorem sortKeys_arr (items : List Json) : sortKeys (.arr items) = .arr (items.map sortKeys) := by
  rw [sortKeys, sortItems_eq]

/-- The fields of mappings that are the same once sorted are the same up to their order. -/
theorem perm_of_sortKeys {fields fields' : List (String × Json)} (h : sortKeys (.obj fields) = sortKeys (.obj fields')) :
    (fields.map fun f => (f.1, sortKeys f.2)).Perm (fields'.map fun f => (f.1, sortKeys f.2)) := by
  rw [sortKeys_obj, sortKeys_obj] at h
  have hsorted := Json.obj.inj h
  have hleft := List.mergeSort_perm (fields.map fun f => (f.1, sortKeys f.2)) byKey
  rw [hsorted] at hleft
  exact hleft.symm.trans (List.mergeSort_perm _ _)

mutual

/-- **Documents that are the same once their keys are sorted are the same.** -/
theorem same_of_sortKeys : ∀ v w : Json, sortKeys v = sortKeys w → v.Same w
  | .arr items, .arr items', h => by
    rw [sortKeys_arr, sortKeys_arr] at h
    exact sameAll_of_sortKeys items items' (Json.arr.inj h)
  | .obj fields, .obj fields', h => by
    have hperm := perm_of_sortKeys h
    refine ⟨by simpa using hperm.length_eq, sameFields_of_sortKeys fields fields' fun f hf => ?_⟩
    exact hperm.subset (List.mem_map_of_mem hf)
  | .null, w, h | .bool _, w, h | .int _, w, h | .float _, w, h | .str _, w, h => by
    cases w <;> simp_all [sortKeys, Json.Same]
  | .arr _, .null, h | .arr _, .bool _, h | .arr _, .int _, h | .arr _, .float _, h | .arr _, .str _, h
  | .arr _, .obj _, h => by simp [sortKeys] at h
  | .obj _, .null, h | .obj _, .bool _, h | .obj _, .int _, h | .obj _, .float _, h | .obj _, .str _, h
  | .obj _, .arr _, h => by simp [sortKeys] at h

theorem sameAll_of_sortKeys : ∀ items items' : List Json,
    items.map sortKeys = items'.map sortKeys → Json.sameAll items items'
  | [], [], _ => trivial
  | [], _ :: _, h | _ :: _, [], h => by simp at h
  | v :: items, w :: items', h => by
    obtain ⟨hitem, hitems⟩ := List.cons.inj h
    exact ⟨same_of_sortKeys v w hitem, sameAll_of_sortKeys items items' hitems⟩

theorem sameFields_of_sortKeys : ∀ fields fields' : List (String × Json),
    (∀ f ∈ fields, (f.1, sortKeys f.2) ∈ fields'.map fun f => (f.1, sortKeys f.2)) → Json.sameFields fields fields'
  | [], _, _ => trivial
  | (name, v) :: fields, fields', h => by
    obtain ⟨⟨name', w⟩, hmem, heq⟩ := List.mem_map.1 (h (name, v) List.mem_cons_self)
    obtain ⟨hname, hvalue⟩ := Prod.mk.inj heq
    dsimp only at hname hvalue
    subst hname
    exact ⟨⟨w, hmem, same_of_sortKeys v w hvalue.symm⟩,
      sameFields_of_sortKeys fields fields' fun f hf => h f (List.mem_cons_of_mem _ hf)⟩

end

theorem lookup_map (g : Json → Json) (fields : List (String × Json)) (name : String) :
    lookup (fields.map fun f => (f.1, g f.2)) name = (lookup fields name).map g := by
  unfold lookup
  induction fields with
  | nil => rfl
  | cons field fields ih =>
    rw [List.map_cons, List.find?_cons, List.find?_cons]
    dsimp only
    split
    · rfl
    · exact ih

theorem lookup_some_iff {fields : List (String × Json)} (hkeys : (fields.map Prod.fst).Nodup) {name : String} {v : Json} :
    lookup fields name = some v ↔ (name, v) ∈ fields := by
  unfold lookup
  induction fields with
  | nil => simp
  | cons field fields ih =>
    obtain ⟨key, value⟩ := field
    rw [List.map_cons, List.nodup_cons] at hkeys
    rw [List.find?_cons, List.mem_cons]
    by_cases hkey : key = name
    · subst hkey
      have hno : (key, v) ∉ fields := fun hmem => hkeys.1 (List.mem_map.2 ⟨_, hmem, rfl⟩)
      simp [hno, eq_comm]
    · have hne : ¬ (name, v) = (key, value) := fun heq => hkey (congrArg Prod.fst heq).symm
      rw [beq_eq_false_iff_ne.2 hkey, ih hkeys.2]
      simp [hne]

/-- The fields of one name are the same once sorted. -/
theorem lookup_of_sortKeys {fields fields' : List (String × Json)} (h : sortKeys (.obj fields) = sortKeys (.obj fields'))
    (hkeys : (fields.map Prod.fst).Nodup) (name : String) :
    (lookup fields name).map sortKeys = (lookup fields' name).map sortKeys := by
  have hperm := perm_of_sortKeys h
  have hnames : ∀ fields : List (String × Json),
      (fields.map fun f => (f.1, sortKeys f.2)).map Prod.fst = fields.map Prod.fst := fun fields => by
    rw [List.map_map]
    rfl
  have hleft : ((fields.map fun f => (f.1, sortKeys f.2)).map Prod.fst).Nodup := (hnames fields).symm ▸ hkeys
  have hright := (hperm.map Prod.fst).nodup_iff.1 hleft
  rw [← lookup_map, ← lookup_map]
  ext v
  rw [lookup_some_iff hleft, lookup_some_iff hright, hperm.mem_iff]

theorem lookup_append (xs ys : List (String × Json)) (name : String) :
    lookup (xs ++ ys) name = (lookup xs name).or (lookup ys name) := by
  unfold lookup
  rw [List.find?_append]
  cases xs.find? fun f => f.1 == name <;> rfl

theorem lookup_none_iff {fields : List (String × Json)} {name : String} :
    lookup fields name = none ↔ name ∉ fields.map Prod.fst := by
  unfold lookup
  rw [Option.map_eq_none_iff, List.find?_eq_none, List.mem_map]
  constructor
  · rintro h ⟨f, hf, rfl⟩
    exact h f hf (beq_self_eq_true _)
  · intro h f hf hname
    exact h ⟨f, hf, beq_iff_eq.1 hname⟩

/-- The values of a mapping are the lookups of its keys. -/
theorem values_eq {fields : List (String × Json)} (hkeys : (fields.map Prod.fst).Nodup) :
    fields.map (fun f => some (sortKeys f.2)) =
      (fields.map Prod.fst).map fun name => (lookup fields name).map sortKeys := by
  rw [List.map_map]
  refine List.map_congr_left fun f hf => ?_
  show _ = (lookup fields f.1).map sortKeys
  rw [(lookup_some_iff hkeys).2 hf]
  rfl

/-- **Payloads whose first fields have the same names agree in the first fields, and in the others name by name.** -/
theorem parts_of_sortKeys {xs ys xs' ys' : List (String × Json)}
    (h : sortKeys (.obj (xs ++ ys)) = sortKeys (.obj (xs' ++ ys'))) (hkeys : ((xs ++ ys).map Prod.fst).Nodup)
    (hkeys' : ((xs' ++ ys').map Prod.fst).Nodup) (hnames : xs.map Prod.fst = xs'.map Prod.fst) :
    xs.map (fun f => sortKeys f.2) = xs'.map (fun f => sortKeys f.2) ∧
      ∀ name, (lookup ys name).map sortKeys = (lookup ys' name).map sortKeys := by
  have hfield := lookup_of_sortKeys h hkeys
  rw [List.map_append] at hkeys hkeys'
  have hdisjoint := List.disjoint_of_nodup_append hkeys
  have hdisjoint' := List.disjoint_of_nodup_append hkeys'
  constructor
  · have hleft := values_eq (List.nodup_append.1 hkeys).1
    have hright := values_eq (List.nodup_append.1 hkeys').1
    rw [← hnames] at hright
    have hvalues : xs.map (fun f => some (sortKeys f.2)) = xs'.map (fun f => some (sortKeys f.2)) := by
      rw [hleft, hright]
      refine List.map_congr_left fun name hname => ?_
      have hxs : lookup xs name ≠ none := fun hnone => lookup_none_iff.1 hnone hname
      have hxs' : lookup xs' name ≠ none := fun hnone => lookup_none_iff.1 hnone (hnames ▸ hname)
      have hname' := hfield name
      obtain ⟨v, hv⟩ := Option.ne_none_iff_exists'.1 hxs
      obtain ⟨w, hw⟩ := Option.ne_none_iff_exists'.1 hxs'
      rw [lookup_append, lookup_append, hv, hw] at hname'
      rw [hv, hw]
      exact hname'
    have hsome : ∀ zs : List (String × Json),
        zs.map (fun f => some (sortKeys f.2)) = (zs.map fun f => sortKeys f.2).map some := fun zs => by
      rw [List.map_map]
      rfl
    rw [hsome, hsome] at hvalues
    exact List.map_injective_iff.2 (Option.some_injective Json) hvalues
  · intro name
    by_cases hname : name ∈ xs.map Prod.fst
    · rw [lookup_none_iff.2 (hdisjoint hname), lookup_none_iff.2 (hdisjoint' (hnames ▸ hname))]
    · have hname' := hfield name
      have hnone : lookup xs name = none := lookup_none_iff.2 hname
      have hnone' : lookup xs' name = none := lookup_none_iff.2 (by rwa [← hnames])
      rwa [lookup_append, lookup_append, hnone, hnone', Option.none_or, Option.none_or] at hname'

theorem values_of_sortKeys {xs xs' : List (String × Json)} (h : sortKeys (.obj xs) = sortKeys (.obj xs'))
    (hkeys : (xs.map Prod.fst).Nodup) (hnames : xs.map Prod.fst = xs'.map Prod.fst) :
    xs.map (fun f => sortKeys f.2) = xs'.map (fun f => sortKeys f.2) := by
  have hparts : sortKeys (.obj (xs ++ [])) = sortKeys (.obj (xs' ++ [])) := by rwa [List.append_nil, List.append_nil]
  refine (parts_of_sortKeys hparts ?_ ?_ hnames).1
  · rwa [List.append_nil]
  · rwa [List.append_nil, ← hnames]

end Switchboard
