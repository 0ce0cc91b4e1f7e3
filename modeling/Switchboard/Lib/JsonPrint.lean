import Mathlib.Data.Nat.Digits.Defs
import Switchboard.Lib.JsonNesting

/-!
# JSON text as Python writes it

`json.dumps` with the compact separators, for any way to escape the characters of a string. What it writes is read
back as the same value, so that no two values have the same text.

* `print`: the text of a value.
* `ReadsBack`: an escape that the scanner of strings undoes.
* `Readable`: a value within the limits of a decoder, which passes its hooks.
* `scanValue_print`, `loads_print`: the text of a value is read as the value.
-/

namespace JsonText

variable {F : Type}

/-- How the characters of a string and the floats are written. -/
structure Encoder (F : Type) where
  escape : Char → List Char
  float : F → List Char

def quotationMark : Char := Char.ofNat 34

def openingBrace : Char := Char.ofNat 123

def closingBrace : Char := Char.ofNat 125

/-- A string with its quotes. -/
def printString (e : Encoder F) (s : String) : List Char :=
  quotationMark :: s.toList.flatMap e.escape ++ [quotationMark]

mutual

/-- `json.dumps` with `separators=(",", ":")`. -/
def print (e : Encoder F) : Value F → List Char
  | .null => "null".toList
  | .bool b => if b then "true".toList else "false".toList
  | .int i => (toString i).toList
  | .float f => e.float f
  | .str s => printString e s
  | .arr [] => ['[', ']']
  | .arr (item :: items) => '[' :: print e item ++ printItems e items ++ [']']
  | .obj [] => [openingBrace, closingBrace]
  | .obj ((name, value) :: fields) =>
    openingBrace :: printString e name ++ ':' :: print e value ++ printFields e fields ++ [closingBrace]

def printItems (e : Encoder F) : List (Value F) → List Char
  | [] => []
  | item :: items => ',' :: print e item ++ printItems e items

def printFields (e : Encoder F) : List (String × Value F) → List Char
  | [] => []
  | (name, value) :: fields => ',' :: printString e name ++ ':' :: print e value ++ printFields e fields

end

/-! ## Strings -/

/-- An escape that the scanner of strings undoes. -/
def ReadsBack (escape : Char → List Char) : Prop :=
  ∀ c rest, scanString none (escape c ++ rest) = (scanString none rest).map fun r => (c :: r.1, r.2)

theorem scanString_print {escape : Char → List Char} (h : ReadsBack escape) (s rest : List Char) :
    scanString none (s.flatMap escape ++ quotationMark :: rest) = .ok (s, rest) := by
  induction s with
  | nil => rfl
  | cons c s ih =>
    rw [List.flatMap_cons, List.append_assoc, h, ih]
    rfl

/-! ## Where a value ends -/

/-- What may stand after a value in the text of another one. -/
def Ends (rest : List Char) : Prop := ∀ c ∈ rest.head?, c = ',' ∨ c = ']' ∨ c = closingBrace

theorem ends_comma (rest : List Char) : Ends (',' :: rest) := by
  intro c hc
  cases hc
  exact .inl rfl

theorem ends_bracket (rest : List Char) : Ends (']' :: rest) := by
  intro c hc
  cases hc
  exact .inr (.inl rfl)

theorem ends_brace (rest : List Char) : Ends (closingBrace :: rest) := by
  intro c hc
  cases hc
  exact .inr (.inr rfl)

theorem ends_nil : Ends [] := by
  intro c hc
  cases hc

/-- A number goes on over none of the characters that end a value. -/
theorem Ends.number {rest : List Char} (h : Ends rest) :
    rest.dropWhile isDigit = rest ∧ rest.takeWhile isDigit = [] ∧ fraction rest = ([], rest) ∧
      exponent rest = ([], rest) := by
  cases rest with
  | nil => exact ⟨rfl, rfl, rfl, rfl⟩
  | cons c rest =>
    rcases h c rfl with rfl | rfl | rfl
    · exact ⟨rfl, rfl, rfl, rfl⟩
    · exact ⟨rfl, rfl, rfl, rfl⟩
    · exact ⟨rfl, rfl, rfl, rfl⟩

/-! ## Numbers -/

theorem natOfDigits_toDigits (n : ℕ) : natOfDigits (Nat.toDigits 10 n) = n := by
  have hfold : natOfDigits (Nat.toDigits 10 n) = Nat.ofDigitChars 10 (Nat.toDigits 10 n) 0 := by
    rw [Nat.ofDigitChars_eq_foldl, natOfDigits]
    have hstep : (fun n c => n * 10 + digitValue c) = fun n c => 10 * n + (Char.toNat c - '0'.toNat) := by
      funext n c
      rw [Nat.mul_comm]
      rfl
    rw [hstep]
  rw [hfold, Nat.ofDigitChars_ten_toDigits]

theorem isDigit_toDigits {n : ℕ} {c : Char} (h : c ∈ Nat.toDigits 10 n) : isDigit c = true := by
  have hdigit := Nat.isDigit_of_mem_toDigits (by decide) (by decide) h
  simpa [isDigit, Char.isDigit, Char.le_def] using hdigit

/-- Only zero begins with a zero. -/
theorem toDigits_cons_zero {n : ℕ} {cs : List Char} (h : Nat.toDigits 10 n = '0' :: cs) : n = 0 := by
  induction n using Nat.strong_induction_on generalizing cs with
  | _ n ih =>
    rw [Nat.toDigits_eq_if (by decide)] at h
    by_cases hn : n < 10
    · rw [if_pos hn] at h
      have hzero : ∀ n < 10, Nat.digitChar n = '0' → n = 0 := by decide
      exact hzero n hn (List.cons.inj h).1
    · rw [if_neg hn] at h
      obtain ⟨c, ds, hds⟩ := List.exists_cons_of_ne_nil (Nat.toDigits_ne_nil : Nat.toDigits 10 (n / 10) ≠ [])
      rw [hds, List.cons_append] at h
      have hzero := ih (n / 10) (by omega) (by rw [hds, (List.cons.inj h).1])
      omega

theorem toList_toString_int (i : ℤ) :
    (toString i).toList = (if i < 0 then ['-'] else []) ++ Nat.toDigits 10 i.natAbs := by
  cases i with
  | ofNat n =>
    have hn : ¬ ((n : ℤ) < 0) := by omega
    rw [Int.ofNat_eq_natCast, if_neg hn, Int.natAbs_natCast, List.nil_append]
    exact Nat.toList_repr
  | negSucc n =>
    rw [if_pos (Int.negSucc_lt_zero n), Int.natAbs_negSucc]
    show ("-" ++ Nat.repr (n + 1)).toList = _
    rw [String.toList_append, Nat.toList_repr]
    rfl

theorem integerPart_toDigits (n : ℕ) {rest : List Char} (h : Ends rest) :
    integerPart (Nat.toDigits 10 n ++ rest) = some (Nat.toDigits 10 n, rest) := by
  obtain ⟨hdrop, htake, -, -⟩ := h.number
  obtain ⟨c, cs, hdigits⟩ := List.exists_cons_of_ne_nil (Nat.toDigits_ne_nil : Nat.toDigits 10 n ≠ [])
  have hall : ∀ x ∈ c :: cs, isDigit x = true := by
    rw [← hdigits]
    exact fun x hx => isDigit_toDigits hx
  rw [hdigits, List.cons_append]
  dsimp only [integerPart]
  by_cases hc : c = '0'
  · subst hc
    obtain rfl := toDigits_cons_zero hdigits
    rw [Nat.toDigits_zero] at hdigits
    rw [if_pos rfl, ← (List.cons.inj hdigits).2, List.nil_append]
  · have hcs : ∀ x ∈ cs, isDigit x = true := fun x hx => hall x (List.mem_cons_of_mem _ hx)
    rw [if_neg hc, if_pos (hall c List.mem_cons_self), List.takeWhile_append_of_pos hcs,
      List.dropWhile_append_of_pos hcs, htake, hdrop, List.append_nil]

theorem scanUnsigned_toDigits (d : Decoder F) (negative : Bool) {n : ℕ} (hn : (Nat.toDigits 10 n).length ≤ d.maximumDigits)
    {rest : List Char} (h : Ends rest) :
    scanUnsigned d negative (Nat.toDigits 10 n ++ rest) = .ok (.int (if negative then -(n : ℤ) else n), rest) := by
  obtain ⟨-, -, hfraction, hexponent⟩ := h.number
  unfold scanUnsigned
  rw [integerPart_toDigits n h]
  simp only [hfraction, hexponent, and_self, if_true, if_neg (not_lt.2 hn), natOfDigits_toDigits]

theorem beginsNumber_int (i : ℤ) (rest : List Char) : BeginsNumber ((toString i).toList ++ rest) := by
  rw [toList_toString_int]
  split
  · exact ⟨'-', Nat.toDigits 10 i.natAbs ++ rest, rfl, .inl rfl⟩
  · obtain ⟨c, cs, hdigits⟩ := List.exists_cons_of_ne_nil (Nat.toDigits_ne_nil : Nat.toDigits 10 i.natAbs ≠ [])
    have hc : c ∈ Nat.toDigits 10 i.natAbs := by
      rw [hdigits]
      exact List.mem_cons_self
    exact ⟨c, cs ++ rest, by rw [hdigits]; rfl, .inr (isDigit_toDigits hc)⟩

theorem scanNumber_print (d : Decoder F) {i : ℤ} (hi : (Nat.toDigits 10 i.natAbs).length ≤ d.maximumDigits)
    {rest : List Char} (h : Ends rest) : scanNumber d ((toString i).toList ++ rest) = .ok (.int i, rest) := by
  obtain ⟨c, cs, hdigits⟩ := List.exists_cons_of_ne_nil (Nat.toDigits_ne_nil : Nat.toDigits 10 i.natAbs ≠ [])
  have hc : isDigit c = true := isDigit_toDigits (hdigits ▸ List.mem_cons_self)
  rw [toList_toString_int]
  by_cases hneg : i < 0
  · rw [if_pos hneg]
    show scanConstant d "-Infinity".toList _ (scanUnsigned d true (Nat.toDigits 10 i.natAbs ++ rest)) = _
    -- no digit is the letter after the sign of the constant
    have hafter : after "-Infinity".toList (['-'] ++ Nat.toDigits 10 i.natAbs ++ rest) = none := by
      unfold after
      rw [if_neg]
      rw [hdigits]
      intro hprefix
      have hI : 'I' = c := (List.cons_prefix_cons.1 (List.cons_prefix_cons.1 hprefix).2).1
      subst hI
      cases hc
    unfold scanConstant
    rw [hafter]
    dsimp only
    rw [scanUnsigned_toDigits d true hi h, if_pos rfl]
    have habs : -(i.natAbs : ℤ) = i := by omega
    rw [habs]
  · rw [if_neg hneg, List.nil_append]
    have hscan : scanNumber d (Nat.toDigits 10 i.natAbs ++ rest) =
        scanUnsigned d false (Nat.toDigits 10 i.natAbs ++ rest) := by
      unfold scanNumber
      split
      · rename_i heq
        rw [hdigits, List.cons_append] at heq
        have hsign := (List.cons.inj heq).1
        subst hsign
        cases hc
      · rfl
    rw [hscan, scanUnsigned_toDigits d false hi h, if_neg (by decide)]
    have habs : (i.natAbs : ℤ) = i := by omega
    rw [habs]

/-! ## Values -/

/-- A float whose text is read as the float. -/
structure ReadsFloat (d : Decoder F) (e : Encoder F) (f : F) : Prop where
  begins : BeginsNumber (e.float f)
  reads : ∀ rest, Ends rest → scanNumber d (e.float f ++ rest) = .ok (.float f, rest)

/-- A value within the limits of a decoder, with `limit` levels of recursion left, which passes its hooks. -/
inductive Readable (d : Decoder F) (e : Encoder F) : ℕ → Value F → Prop
  | null {limit : ℕ} : Readable d e limit .null
  | bool {limit : ℕ} (b : Bool) : Readable d e limit (.bool b)
  | int {limit : ℕ} {i : ℤ} (h : (Nat.toDigits 10 i.natAbs).length ≤ d.maximumDigits) : Readable d e limit (.int i)
  | float {limit : ℕ} {f : F} (h : ReadsFloat d e f) : Readable d e limit (.float f)
  | str {limit : ℕ} (s : String) : Readable d e limit (.str s)
  | arr {limit : ℕ} {items : List (Value F)} (h : ∀ item ∈ items, Readable d e limit item) :
      Readable d e (limit + 1) (.arr items)
  | obj {limit : ℕ} {fields : List (String × Value F)} (hpairs : d.objectPairs fields = .ok fields)
      (h : ∀ field ∈ fields, Readable d e limit field.2) : Readable d e (limit + 1) (.obj fields)

/-- A character that the text of a value may begin with. -/
def Opens (c : Char) : Prop :=
  c = quotationMark ∨ c = openingBrace ∨ c = '[' ∨ c = 'n' ∨ c = 't' ∨ c = 'f' ∨ c = '-' ∨ isDigit c = true

theorem digit_ne {c x : Char} (h : isDigit c = true) (hx : x.toNat < 48 ∨ 57 < x.toNat) : c ≠ x := by
  have hrange := isDigit_range h
  rintro rfl
  omega

theorem Opens.visible {c : Char} (h : Opens c) : isWhitespace c = false ∧ c ≠ ']' := by
  rcases h with rfl | rfl | rfl | rfl | rfl | rfl | rfl | h
  case inr.inr.inr.inr.inr.inr.inr =>
    refine ⟨?_, digit_ne h (by decide)⟩
    unfold isWhitespace
    simp only [Bool.or_eq_false_iff, decide_eq_false_iff_not]
    exact ⟨⟨⟨digit_ne h (by decide), digit_ne h (by decide)⟩, digit_ne h (by decide)⟩, digit_ne h (by decide)⟩
  all_goals exact ⟨by decide, by decide⟩

variable {d : Decoder F} {e : Encoder F} {limit : ℕ} {v : Value F} {rest : List Char}

theorem opens_number {s : List Char} (h : BeginsNumber s) : ∃ c cs, s = c :: cs ∧ Opens c := by
  obtain ⟨c, cs, hs, hc | hc⟩ := h
  · exact ⟨c, cs, hs, .inr (.inr (.inr (.inr (.inr (.inr (.inl hc))))))⟩
  · exact ⟨c, cs, hs, .inr (.inr (.inr (.inr (.inr (.inr (.inr hc))))))⟩

theorem print_opens (h : Readable d e limit v) (rest : List Char) : ∃ c cs, print e v ++ rest = c :: cs ∧ Opens c := by
  cases h with
  | null => exact ⟨'n', _, rfl, by unfold Opens; simp⟩
  | bool b =>
    cases b
    · exact ⟨'f', _, rfl, by unfold Opens; simp⟩
    · exact ⟨'t', _, rfl, by unfold Opens; simp⟩
  | int => exact opens_number (beginsNumber_int _ rest)
  | float h =>
    obtain ⟨c, cs, hs, hc⟩ := opens_number h.begins
    exact ⟨c, cs ++ rest, by rw [print, hs]; rfl, hc⟩
  | str s => exact ⟨quotationMark, _, rfl, .inl rfl⟩
  | @arr _ items h =>
    cases items
    · exact ⟨'[', _, rfl, by unfold Opens; simp⟩
    · exact ⟨'[', _, rfl, by unfold Opens; simp⟩
  | @obj _ fields hpairs h =>
    cases fields
    · exact ⟨openingBrace, _, rfl, .inr (.inl rfl)⟩
    · exact ⟨openingBrace, _, rfl, .inr (.inl rfl)⟩

theorem skipWhitespace_cons {c : Char} (h : isWhitespace c = false) (cs : List Char) :
    skipWhitespace (c :: cs) = c :: cs := by
  unfold skipWhitespace
  rw [List.dropWhile_cons_of_neg (by simp [h])]

/-- The text of the value is read as the value, wherever it ends. -/
structure Scans (scan : Scanner F) (e : Encoder F) (v : Value F) : Prop where
  opens : ∀ rest, ∃ c cs, print e v ++ rest = c :: cs ∧ Opens c
  reads : ∀ rest, Ends rest → scan (print e v ++ rest) = .ok (v, rest)

theorem Scans.skip {scan : Scanner F} (h : Scans scan e v) (rest : List Char) :
    skipWhitespace (print e v ++ rest) = print e v ++ rest := by
  obtain ⟨c, cs, hs, hc⟩ := h.opens rest
  rw [hs]
  exact skipWhitespace_cons hc.visible.1 cs

section collections

variable {scan : Scanner F}

theorem scanItems_print {item : Value F} {items : List (Value F)} {fuel : ℕ} (hfuel : items.length < fuel)
    (hscan : ∀ v ∈ item :: items, Scans scan e v) (rest : List Char) :
    scanItems scan fuel (print e item ++ (printItems e items ++ ']' :: rest)) = .ok (item :: items, rest) := by
  induction items generalizing item fuel with
  | nil =>
    obtain ⟨fuel, rfl⟩ : ∃ n, fuel = n + 1 := ⟨fuel - 1, by omega⟩
    rw [scanItems, printItems, List.nil_append, (hscan item List.mem_cons_self).reads _ (ends_bracket rest)]
    rfl
  | cons next items ih =>
    obtain ⟨fuel, rfl⟩ : ∃ n, fuel = n + 1 := ⟨fuel - 1, by omega⟩
    rw [List.length_cons] at hfuel
    have htail : scanItems scan fuel (print e next ++ (printItems e items ++ ']' :: rest)) = .ok (next :: items, rest) :=
      ih (by omega) fun v hv => hscan v (List.mem_cons_of_mem _ hv)
    have hskip := (hscan next (by simp)).skip (printItems e items ++ ']' :: rest)
    rw [scanItems, printItems]
    simp only [List.cons_append, List.append_assoc]
    rw [(hscan item List.mem_cons_self).reads _ (ends_comma _)]
    simp only [Bind.bind, Except.bind, skipWhitespace_cons (show isWhitespace ',' = false from rfl), hskip, htail]
    rfl

theorem length_printItems (items : List (Value F)) : items.length ≤ (printItems e items).length := by
  induction items with
  | nil => exact le_refl _
  | cons item items ih =>
    simp only [printItems, List.length_cons, List.length_append]
    omega

theorem scanArray_print {items : List (Value F)} (hscan : ∀ v ∈ items, Scans scan e v) (rest : List Char) :
    scanArray scan ((print e (.arr items)).tail ++ rest) = .ok (.arr items, rest) := by
  cases items with
  | nil => rfl
  | cons item items =>
    have hitem := hscan item List.mem_cons_self
    obtain ⟨c, cs, hs, hc⟩ := hitem.opens (printItems e items ++ ']' :: rest)
    have htext : (print e (.arr (item :: items))).tail ++ rest =
        print e item ++ (printItems e items ++ ']' :: rest) := by
      simp [print]
    have hlength : items.length < (print e item ++ (printItems e items ++ ']' :: rest)).length := by
      have hitems := length_printItems (e := e) items
      simp only [List.length_append, List.length_cons]
      omega
    have hitems := scanItems_print hlength hscan rest
    unfold scanArray
    rw [htext, hitem.skip]
    rw [hs] at hitems ⊢
    split
    · rename_i heq
      exact absurd (List.cons.inj heq).1 hc.visible.2
    · rw [hitems]
      rfl

theorem scanPair_print (hescape : ReadsBack e.escape) (name : String) (hscan : Scans scan e v) (hrest : Ends rest) :
    scanPair scan (printString e name ++ ':' :: (print e v ++ rest)) = .ok ((name, v), rest) := by
  unfold printString
  simp only [List.cons_append, List.append_assoc, List.nil_append, scanPair]
  rw [if_pos (by decide), scanString_print hescape]
  simp only [Bind.bind, Except.bind, skipWhitespace_cons (show isWhitespace ':' = false from rfl), hscan.skip,
    hscan.reads rest hrest, String.ofList_toList]
  rfl

theorem scanPairs_print (hescape : ReadsBack e.escape) {field : String × Value F} {fields : List (String × Value F)}
    {fuel : ℕ} (hfuel : fields.length < fuel) (hscan : ∀ f ∈ field :: fields, Scans scan e f.2) (rest : List Char) :
    scanPairs scan fuel (printString e field.1 ++ ':' :: (print e field.2 ++
      (printFields e fields ++ closingBrace :: rest))) = .ok (field :: fields, rest) := by
  induction fields generalizing field fuel with
  | nil =>
    obtain ⟨fuel, rfl⟩ : ∃ n, fuel = n + 1 := ⟨fuel - 1, by omega⟩
    rw [scanPairs, printFields, List.nil_append,
      scanPair_print hescape field.1 (hscan field List.mem_cons_self) (ends_brace rest)]
    rfl
  | cons next fields ih =>
    obtain ⟨fuel, rfl⟩ : ∃ n, fuel = n + 1 := ⟨fuel - 1, by omega⟩
    rw [List.length_cons] at hfuel
    have htail : scanPairs scan fuel (printString e next.1 ++ ':' :: (print e next.2 ++
        (printFields e fields ++ closingBrace :: rest))) = .ok (next :: fields, rest) :=
      ih (by omega) fun f hf => hscan f (List.mem_cons_of_mem _ hf)
    have hskip : ∀ text, skipWhitespace (printString e next.1 ++ text) = printString e next.1 ++ text :=
      fun text => skipWhitespace_cons (by decide) _
    rw [scanPairs, printFields]
    simp only [List.cons_append, List.append_assoc]
    rw [scanPair_print hescape field.1 (hscan field List.mem_cons_self) (ends_comma _)]
    simp only [Bind.bind, Except.bind, skipWhitespace_cons (show isWhitespace ',' = false from rfl), hskip, htail, if_true]
    rfl

theorem length_printFields (fields : List (String × Value F)) : fields.length ≤ (printFields e fields).length := by
  induction fields with
  | nil => exact le_refl _
  | cons field fields ih =>
    obtain ⟨name, value⟩ := field
    simp only [printFields, List.length_cons, List.length_append]
    omega

theorem scanObject_print (d : Decoder F) (hescape : ReadsBack e.escape) {fields : List (String × Value F)}
    (hpairs : d.objectPairs fields = .ok fields) (hscan : ∀ f ∈ fields, Scans scan e f.2) (rest : List Char) :
    scanObject d scan ((print e (.obj fields)).tail ++ rest) = .ok (.obj fields, rest) := by
  cases fields with
  | nil =>
    show scanObject d scan (closingBrace :: rest) = _
    unfold scanObject
    rw [skipWhitespace_cons (by decide)]
    dsimp only
    rw [if_pos (by decide), hpairs]
    rfl
  | cons field fields =>
    obtain ⟨name, value⟩ := field
    have htext : (print e (.obj ((name, value) :: fields))).tail ++ rest =
        printString e name ++ ':' :: (print e value ++ (printFields e fields ++ closingBrace :: rest)) := by
      simp [print]
    have hlength : fields.length <
        (printString e name ++ ':' :: (print e value ++ (printFields e fields ++ closingBrace :: rest))).length := by
      have hfields := length_printFields (e := e) fields
      simp only [List.length_append, List.length_cons]
      omega
    have hall := scanPairs_print hescape hlength hscan rest
    rw [htext]
    unfold printString at hall ⊢
    unfold scanObject
    simp only [List.cons_append] at hall ⊢
    rw [skipWhitespace_cons (by decide)]
    dsimp only
    rw [if_neg (by decide), hall]
    simp only [Bind.bind, Except.bind, hpairs]
    rfl

end collections

/-! ## The round trip -/

theorem scanWith_number (d : Decoder F) (array object : Scanner F) {s : List Char} (h : BeginsNumber s) :
    scanWith d array object s = scanNumber d s := by
  obtain ⟨c, cs, rfl, hc⟩ := h
  have hne : ∀ x : Char, (x.toNat < 45 ∨ 57 < x.toNat) → c ≠ x := by
    rintro x hx rfl
    rcases hc with rfl | hc
    · revert hx
      decide
    · have hrange := isDigit_range hc
      omega
  have hnat : ∀ n, (n < 45 ∨ 57 < n) → c.toNat ≠ n := by
    rintro n hn rfl
    exact hne c hn rfl
  unfold scanWith
  dsimp only
  rw [if_neg (hnat 34 (by decide)), if_neg (hnat 123 (by decide)), if_neg (hne '[' (by decide)),
    if_neg (hne 'n' (by decide)), if_neg (hne 't' (by decide)), if_neg (hne 'f' (by decide)),
    if_neg (hne 'N' (by decide)), if_neg (hne 'I' (by decide))]

theorem after_append (word rest : List Char) : after word (word ++ rest) = some rest := by
  unfold after
  rw [if_pos (List.prefix_append word rest), List.drop_left]

theorem scanValue_scanWith (d : Decoder F) (limit : ℕ) : ∃ array object, scanValue d limit = scanWith d array object := by
  cases limit with
  | zero => exact ⟨_, _, rfl⟩
  | succ limit => exact ⟨_, _, rfl⟩

theorem scanValue_literal (d : Decoder F) (limit : ℕ) (rest : List Char) :
    scanValue d limit ("null".toList ++ rest) = .ok (.null, rest) ∧
      scanValue d limit ("true".toList ++ rest) = .ok (.bool true, rest) ∧
      scanValue d limit ("false".toList ++ rest) = .ok (.bool false, rest) := by
  obtain ⟨array, object, hscan⟩ := scanValue_scanWith d limit
  have hliteral : ∀ word (v : Value F), scanLiteral word (word ++ rest) v = .ok (v, rest) := by
    intro word v
    unfold scanLiteral
    rw [after_append]
  rw [hscan]
  exact ⟨hliteral "null".toList .null, hliteral "true".toList (.bool true), hliteral "false".toList (.bool false)⟩

/-- **The text of a value is read as the value.** -/
theorem scans_print (hescape : ReadsBack e.escape) (h : Readable d e limit v) : Scans (scanValue d limit) e v := by
  refine ⟨print_opens h, ?_⟩
  induction h with
  | @null limit => exact fun rest _ => (scanValue_literal d limit rest).1
  | @bool limit b =>
    intro rest _
    cases b
    · exact (scanValue_literal d limit rest).2.2
    · exact (scanValue_literal d limit rest).2.1
  | @int limit i hdigits =>
    intro rest hrest
    obtain ⟨array, object, hscan⟩ := scanValue_scanWith d limit
    rw [hscan, print, scanWith_number d array object (beginsNumber_int i rest), scanNumber_print d hdigits hrest]
  | @float limit f hf =>
    intro rest hrest
    obtain ⟨array, object, hscan⟩ := scanValue_scanWith d limit
    obtain ⟨c, cs, hs, hc⟩ := hf.begins
    rw [hscan, print, scanWith_number d array object ⟨c, cs ++ rest, by rw [hs]; rfl, hc⟩, hf.reads rest hrest]
  | @str limit s =>
    intro rest _
    obtain ⟨array, object, hscan⟩ := scanValue_scanWith d limit
    rw [hscan, print, printString]
    simp only [List.cons_append, List.append_assoc, List.nil_append, scanWith]
    rw [if_pos (by decide), scanString_print hescape]
    simp only [Bind.bind, Except.bind, String.ofList_toList]
    rfl
  | @arr limit items hitems ih =>
    intro rest _
    have hall : ∀ v ∈ items, Scans (scanValue d limit) e v := fun v hv => ⟨print_opens (hitems v hv), ih v hv⟩
    have harray := scanArray_print hall rest
    cases items <;> exact harray
  | @obj limit fields hpairs hfields ih =>
    intro rest _
    have hall : ∀ f ∈ fields, Scans (scanValue d limit) e f.2 := fun f hf =>
      ⟨print_opens (hfields f hf), ih f hf⟩
    have hobject := scanObject_print d hescape hpairs hall rest
    cases fields <;> exact hobject

/-- **What `json.dumps` writes, `json.loads` reads back.** -/
theorem loads_print (hescape : ReadsBack e.escape) (h : Readable d e d.recursionLimit v) :
    loads d (print e v) = .ok v := by
  have hscans := scans_print hescape h
  obtain ⟨c, cs, hs, hc⟩ := hscans.opens []
  have hread := hscans.reads [] ends_nil
  have hskip := hscans.skip []
  rw [List.append_nil] at hs hread hskip
  have hbom : (print e v).head? ≠ some (Char.ofNat 0xFEFF) := by
    rw [hs, List.head?_cons]
    intro heq
    have hc' := Option.some.inj heq
    subst hc'
    revert hc
    unfold Opens
    decide
  unfold loads
  rw [if_neg hbom, hskip, hread]
  rfl

/-- **No two values have the same text.** -/
theorem print_injective {w : Value F} (hescape : ReadsBack e.escape) (hv : Readable d e limit v)
    (hw : Readable d e limit w) (h : print e v = print e w) : v = w := by
  have hread := (scans_print hescape hv).reads [] ends_nil
  rw [h, (scans_print hescape hw).reads [] ends_nil] at hread
  exact (congrArg Prod.fst (Except.ok.inj hread)).symm

end JsonText
