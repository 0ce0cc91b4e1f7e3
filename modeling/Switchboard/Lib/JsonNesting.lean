import Switchboard.Lib.JsonText
import Switchboard.Lib.Tx

/-!
# How deep a JSON text nests, and how long its integers are

The only `RecursionError` of `json.loads` is that of a text which opens more arrays and mappings
at once than the interpreter follows; without hooks that raise one, its only plain `ValueError` is that of an
integer with too many digits.

* `Takes`: a scanner takes at least one character.
* `Nests`: a value begins more than `n` levels before its first error.
* `ReadsLong`: an integer that is too long stands before the first error.
* `scanValue_recursion`, `loads_recursion`: the texts that the scanner gives up on.
* `scanValue_value`, `loads_value`: the texts with an integer that is too long.
-/

namespace JsonText

open Transaction

variable {F : Type} {d : Decoder F} {scan : Scanner F} {s rest : List Char}

/-! ## Scanners take characters -/

theorem length_skipWhitespace_le (s : List Char) : (skipWhitespace s).length ≤ s.length :=
  (List.dropWhile_suffix _).length_le

/-- The scanner takes at least one character. -/
def Takes {α : Type} (scan : List Char → Except Error (α × List Char)) : Prop :=
  ∀ s v rest, scan s = .ok (v, rest) → rest.length < s.length

/-- What follows a scanner without scanning itself leaves the same rest. -/
theorem length_rest {α β : Type} {x : Except Error (α × List Char)} {f : α → β} {w : β} {n : ℕ}
    (hx : ∀ v rest, x = .ok (v, rest) → rest.length < n)
    (h : (do let (v, rest) ← x; return (f v, rest)) = .ok (w, rest)) : rest.length < n := by
  obtain ⟨⟨v, rest'⟩, hv, heq⟩ := except_bind_ok.1 h
  cases heq
  exact hx v rest hv

theorem takes_scanString (high : Option ℕ) : Takes (scanString high) := by
  intro s
  fun_induction scanString high s with
  | case1 => intro v rest h; cases h
  | case2 => intro v rest h; cases h
  | case3 high a b c d cs n hn ih =>
    intro v rest h
    have := length_rest ih h
    simp only [List.length_cons]
    omega
  | case4 => intro v rest h; cases h
  | case5 high c cs hu e he ih =>
    intro v rest h
    have := length_rest (f := fun t => pending high ++ e :: t) ih h
    simp only [List.length_cons]
    omega
  | case6 =>
    intro v rest h
    cases h
    simp
  | case7 => intro v rest h; cases h
  | case8 high c cs hu hs hquote hplain ih =>
    intro v rest h
    have := length_rest (f := fun t => pending high ++ c :: t) ih h
    simp only [List.length_cons]
    omega

theorem length_dropWhile_le (p : Char → Bool) (s : List Char) : (s.dropWhile p).length ≤ s.length :=
  (List.dropWhile_suffix _).length_le

theorem length_fraction_le (s : List Char) : (fraction s).2.length ≤ s.length := by
  unfold fraction
  split
  · rename_i c cs
    split
    · have := length_dropWhile_le isDigit cs
      simp only [List.length_cons]
      omega
    · exact le_refl _
  · exact le_refl _

theorem length_exponentDigits_le (taken whole : List Char) {s : List Char} (h : s.length ≤ whole.length) :
    (exponentDigits taken whole s).2.length ≤ whole.length := by
  unfold exponentDigits
  split
  · rename_i c cs
    split
    · have := length_dropWhile_le isDigit cs
      simp only [List.length_cons] at h ⊢
      omega
    · exact le_refl _
  · exact le_refl _

theorem length_exponent_le (s : List Char) : (exponent s).2.length ≤ s.length := by
  unfold exponent
  split
  · rename_i e cs
    split
    · split
      · rename_i sign cs
        split
        · exact length_exponentDigits_le _ _ (by simp only [List.length_cons]; omega)
        · exact length_exponentDigits_le _ _ (by simp)
      · exact le_refl _
    · exact le_refl _
  · exact le_refl _

theorem takes_scanUnsigned (negative : Bool) : Takes (scanUnsigned d negative) := by
  intro s v rest h
  unfold scanUnsigned at h
  split at h
  · cases h
  · rename_i digits after hdigits
    have hafter : after.length < s.length := by
      unfold integerPart at hdigits
      split at hdigits
      · rename_i c cs
        split at hdigits
        · cases hdigits
          simp
        · split at hdigits
          · cases hdigits
            have := length_dropWhile_le isDigit cs
            simp only [List.length_cons]
            omega
          · cases hdigits
      · cases hdigits
    have := length_fraction_le after
    have := length_exponent_le (fraction after).2
    dsimp only at h
    split at h
    · split at h
      · cases h
      · cases h
        exact hafter
    · cases h
      omega

theorem length_after {word : List Char} (hword : word ≠ []) (h : after word s = some rest) : rest.length < s.length := by
  unfold after at h
  split at h
  · rename_i hprefix
    cases h
    have := hprefix.length_le
    have := List.length_pos_iff.2 hword
    rw [List.length_drop]
    omega
  · cases h

theorem takes_scanLiteral {word : List Char} (hword : word ≠ []) (v : Value F) : Takes fun s => scanLiteral word s v := by
  intro s w rest h
  simp only [scanLiteral] at h
  split at h
  · cases h
  · rename_i hafter
    cases h
    exact length_after hword hafter

theorem takes_scanConstant {word : List Char} (hword : word ≠ []) {otherwise : Scanner F} (h : Takes otherwise) :
    Takes fun s => scanConstant d word s (otherwise s) := by
  intro s w rest hs
  simp only [scanConstant] at hs
  split at hs
  · exact h s w rest hs
  · rename_i hafter
    obtain ⟨f, -, heq⟩ := except_bind_ok.1 hs
    cases heq
    exact length_after hword hafter

theorem takes_scanItems (h : Takes scan) (fuel : ℕ) : Takes (scanItems scan fuel) := by
  induction fuel with
  | zero => intro s v rest hs; cases hs
  | succ fuel ih =>
    intro s v rest hs
    simp only [scanItems] at hs
    obtain ⟨⟨w, after⟩, hw, hs⟩ := except_bind_ok.1 hs
    have htaken := h _ _ _ hw
    have hskip := length_skipWhitespace_le after
    split at hs
    · rename_i more hmore
      obtain ⟨⟨ws, rest'⟩, hws, heq⟩ := except_bind_ok.1 hs
      cases heq
      change rest'.length < _
      have := ih _ _ _ hws
      have := length_skipWhitespace_le more
      rw [hmore, List.length_cons] at hskip
      omega
    · rename_i hclose
      cases hs
      rw [hclose, List.length_cons] at hskip
      omega
    · cases hs

theorem takes_scanPair (h : Takes scan) : Takes (scanPair scan) := by
  intro s v rest hs
  cases s with
  | nil => cases hs
  | cons c cs =>
    simp only [scanPair] at hs
    split at hs
    · obtain ⟨⟨key, after⟩, hkey, hs⟩ := except_bind_ok.1 hs
      have hcs := takes_scanString none _ _ _ hkey
      have hskip := length_skipWhitespace_le after
      split at hs
      · rename_i more hmore
        obtain ⟨⟨w, rest'⟩, hw, heq⟩ := except_bind_ok.1 hs
        cases heq
        change rest'.length < _
        have := h _ _ _ hw
        have := length_skipWhitespace_le more
        rw [hmore, List.length_cons] at hskip
        rw [List.length_cons]
        omega
      · cases hs
    · cases hs

theorem takes_scanPairs (h : Takes scan) (fuel : ℕ) : Takes (scanPairs scan fuel) := by
  induction fuel with
  | zero => intro s v rest hs; cases hs
  | succ fuel ih =>
    intro s v rest hs
    simp only [scanPairs] at hs
    obtain ⟨⟨pair, after⟩, hpair, hs⟩ := except_bind_ok.1 hs
    have htaken := takes_scanPair h _ _ _ hpair
    have hskip := length_skipWhitespace_le after
    split at hs
    · rename_i c more hmore
      rw [hmore, List.length_cons] at hskip
      split at hs
      · obtain ⟨⟨pairs, rest'⟩, hpairs, heq⟩ := except_bind_ok.1 hs
        cases heq
        change rest'.length < _
        have := ih _ _ _ hpairs
        have := length_skipWhitespace_le more
        omega
      · split at hs
        · cases hs
          omega
        · cases hs
    · cases hs

/-- The rest of an array is not longer than what its bracket begins. -/
theorem length_scanArray_le (h : Takes scan) {v : Value F} (hs : scanArray scan s = .ok (v, rest)) :
    rest.length ≤ s.length := by
  have hskip := length_skipWhitespace_le s
  unfold scanArray at hs
  split at hs
  · rename_i hclose
    cases hs
    rw [hclose, List.length_cons] at hskip
    omega
  · obtain ⟨⟨vs, rest'⟩, hvs, heq⟩ := except_bind_ok.1 hs
    cases heq
    have := takes_scanItems h _ _ _ _ hvs
    omega

theorem length_scanObject_le (h : Takes scan) {v : Value F} (hs : scanObject d scan s = .ok (v, rest)) :
    rest.length ≤ s.length := by
  have hskip := length_skipWhitespace_le s
  unfold scanObject at hs
  split at hs
  · cases hs
  · rename_i c more hmore
    rw [hmore, List.length_cons] at hskip
    split at hs
    · obtain ⟨fields, -, heq⟩ := except_bind_ok.1 hs
      cases heq
      omega
    · obtain ⟨⟨pairs, rest'⟩, hpairs, hs⟩ := except_bind_ok.1 hs
      obtain ⟨fields, -, heq⟩ := except_bind_ok.1 hs
      cases heq
      have := takes_scanPairs h _ _ _ _ hpairs
      rw [List.length_cons] at this
      omega

theorem takes_scanNumber : Takes (scanNumber d) := by
  intro s v rest hs
  unfold scanNumber at hs
  split at hs
  · rename_i cs
    have hnumber : Takes fun s => scanConstant d "-Infinity".toList s (scanUnsigned d true s.tail) := by
      refine takes_scanConstant (by decide) fun s v rest h => ?_
      have := takes_scanUnsigned true _ _ _ h
      rw [List.length_tail] at this
      omega
    exact hnumber ('-' :: cs) v rest hs
  · exact takes_scanUnsigned false _ _ _ hs

theorem takes_scanWith {array object : Scanner F}
    (harray : ∀ s v rest, array s = .ok (v, rest) → rest.length ≤ s.length)
    (hobject : ∀ s v rest, object s = .ok (v, rest) → rest.length ≤ s.length) : Takes (scanWith d array object) := by
  have herror : Takes fun _ : List Char => (.error .decode : Except Error (Value F × List Char)) := by simp [Takes]
  intro s v rest hs
  cases s with
  | nil => cases hs
  | cons c cs =>
    simp only [scanWith] at hs
    repeat' split at hs
    · obtain ⟨⟨t, rest'⟩, ht, heq⟩ := except_bind_ok.1 hs
      cases heq
      exact Nat.lt_succ_of_lt (takes_scanString none _ _ _ ht)
    · exact Nat.lt_succ_of_le (hobject _ _ _ hs)
    · exact Nat.lt_succ_of_le (harray _ _ _ hs)
    · exact takes_scanLiteral (by decide) _ _ _ _ hs
    · exact takes_scanLiteral (by decide) _ _ _ _ hs
    · exact takes_scanLiteral (by decide) _ _ _ _ hs
    · exact takes_scanConstant (by decide) herror _ _ _ hs
    · exact takes_scanConstant (by decide) herror _ _ _ hs
    · exact takes_scanNumber _ _ _ hs

/-- **A value takes at least one character.** -/
theorem takes_scanValue (d : Decoder F) (limit : ℕ) : Takes (scanValue d limit) := by
  induction limit with
  | zero => exact takes_scanWith (by simp) (by simp)
  | succ limit ih => exact takes_scanWith (fun _ _ _ => length_scanArray_le ih) fun _ _ _ => length_scanObject_le ih

/-! ## Nesting -/

/-- One of the items of an array, after items that were scanned, reaches what is looked for. -/
inductive ItemsReach (scan : Scanner F) (reach : List Char → Prop) : List Char → Prop
  | here {s : List Char} : reach s → ItemsReach scan reach s
  | later {s rest more : List Char} {v : Value F} : scan s = .ok (v, rest) → skipWhitespace rest = ',' :: more →
      ItemsReach scan reach (skipWhitespace more) → ItemsReach scan reach s

/-- The value of one of the items of a mapping, after items that were scanned, reaches what is looked for. -/
inductive PairsReach (scan : Scanner F) (reach : List Char → Prop) : List Char → Prop
  | here {c : Char} {cs key rest more : List Char} : c.toNat = 34 → scanString none cs = .ok (key, rest) →
      skipWhitespace rest = ':' :: more → reach (skipWhitespace more) → PairsReach scan reach (c :: cs)
  | later {s rest more : List Char} {pair : String × Value F} : scanPair scan s = .ok (pair, rest) → skipWhitespace rest = ',' :: more →
      PairsReach scan reach (skipWhitespace more) → PairsReach scan reach s

/-- The text begins a value that, before any error, opens more than `n` arrays and mappings at once. -/
def Nests (d : Decoder F) : ℕ → List Char → Prop
  | 0, s => ∃ c cs, s = c :: cs ∧ (c = '[' ∨ c.toNat = 123)
  | n + 1, s =>
    (∃ cs, s = '[' :: cs ∧ ItemsReach (scanValue d n) (Nests d n) (skipWhitespace cs)) ∨
      ∃ c cs, s = c :: cs ∧ c.toNat = 123 ∧ PairsReach (scanValue d n) (Nests d n) (skipWhitespace cs)

/-- The text without a sign. -/
def withoutSign : List Char → List Char
  | '-' :: cs => cs
  | s => s

/-- The text begins with an integer of more digits than `int` converts. -/
def LongInteger (d : Decoder F) (s : List Char) : Prop :=
  ∃ digits rest, integerPart (withoutSign s) = some (digits, rest) ∧ (fraction rest).1 = [] ∧
    (exponent (fraction rest).2).1 = [] ∧ d.maximumDigits < digits.length

/-- The text begins a value that, before any error, holds an integer that is too long, at most `n` levels deep. -/
def ReadsLong (d : Decoder F) : ℕ → List Char → Prop
  | 0, s => LongInteger d s
  | n + 1, s =>
    LongInteger d s ∨
      (∃ cs, s = '[' :: cs ∧ ItemsReach (scanValue d n) (ReadsLong d n) (skipWhitespace cs)) ∨
      ∃ c cs, s = c :: cs ∧ c.toNat = 123 ∧ PairsReach (scanValue d n) (ReadsLong d n) (skipWhitespace cs)

/-- The hooks of the decoder raise no `RecursionError`. -/
structure Decoder.Shallow (d : Decoder F) : Prop where
  constant : ∀ s, Raises (· ≠ .recursion) (d.parseConstant s)
  pairs : ∀ pairs, Raises (· ≠ .recursion) (d.objectPairs pairs)

/-- The hooks of the decoder do not raise `e`. -/
structure Decoder.Quiet (d : Decoder F) (e : Error) : Prop where
  constant : ∀ s, Raises (· ≠ e) (d.parseConstant s)
  pairs : ∀ pairs, Raises (· ≠ e) (d.objectPairs pairs)

theorem Decoder.Shallow.quiet (h : d.Shallow) : d.Quiet .recursion := ⟨h.constant, h.pairs⟩

/-- A string is wrong in one way only. -/
theorem raises_scanString (high : Option ℕ) (s : List Char) : Raises (· = .decode) (scanString high s) := by
  fun_induction scanString high s with
  | case1 | case2 | case4 | case7 => exact raises_error.2 rfl
  | case3 _ _ _ _ _ _ _ _ ih => exact raises_bind ih fun _ _ => raises_pure
  | case5 _ _ _ _ _ _ ih => exact raises_bind ih fun _ _ => raises_pure
  | case6 => exact raises_ok
  | case8 _ _ _ _ _ _ _ ih => exact raises_bind ih fun _ _ => raises_pure

section reaching

variable {e : Error} (he : e ≠ .decode)

section

variable {reach : List Char → Prop} (htakes : Takes scan) (hreach : ∀ s, scan s = .error e ↔ reach s)

include he htakes hreach

theorem scanItems_error (hnil : ¬ reach []) (fuel : ℕ) {s : List Char} (hfuel : s.length ≤ fuel) :
    scanItems scan fuel s = .error e ↔ ItemsReach scan reach s := by
  induction fuel generalizing s with
  | zero =>
    obtain rfl : s = [] := List.length_eq_zero_iff.1 (by omega)
    refine iff_of_false (by simp [scanItems, he.symm]) ?_
    intro h
    cases h with
    | here h => exact hnil h
    | later h _ _ => exact absurd (htakes _ _ _ h) (by simp)
  | succ fuel ih =>
    simp only [scanItems, except_bind_error]
    constructor
    · rintro (h | ⟨⟨v, rest⟩, hv, h⟩)
      · exact .here ((hreach s).1 h)
      · have hlt := htakes _ _ _ hv
        have hskip := length_skipWhitespace_le rest
        split at h
        · rename_i more hmore
          rw [hmore, List.length_cons] at hskip
          have hmore' := length_skipWhitespace_le more
          refine .later hv hmore ((ih (by omega)).1 ?_)
          rcases except_bind_error.1 h with h | ⟨_, _, h⟩
          · exact h
          · cases h
        · cases h
        · exact absurd (Except.error.inj h).symm he
    · intro h
      cases h with
      | here h => exact .inl ((hreach s).2 h)
      | @later _ rest more v hv hmore h =>
        have hlt := htakes _ _ _ hv
        have hskip := length_skipWhitespace_le rest
        rw [hmore, List.length_cons] at hskip
        have hmore' := length_skipWhitespace_le more
        refine .inr ⟨(v, rest), hv, ?_⟩
        simp only [hmore]
        exact except_bind_error.2 (.inl ((ih (by omega)).2 h))

omit htakes in
theorem scanPair_error : scanPair scan s = .error e ↔ ∃ c cs key rest more, s = c :: cs ∧ c.toNat = 34 ∧
    scanString none cs = .ok (key, rest) ∧ skipWhitespace rest = ':' :: more ∧ reach (skipWhitespace more) := by
  cases s with
  | nil => simp [scanPair, he.symm]
  | cons c cs =>
    simp only [scanPair]
    constructor
    · intro h
      split at h
      · rename_i hquote
        rcases except_bind_error.1 h with h | ⟨⟨key, rest⟩, hkey, h⟩
        · exact absurd (raises_scanString none cs _ h) he
        · split at h
          · rename_i more hmore
            rcases except_bind_error.1 h with h | ⟨_, _, h⟩
            · exact ⟨c, cs, key, rest, more, rfl, hquote, hkey, hmore, (hreach _).1 h⟩
            · cases h
          · exact absurd (Except.error.inj h).symm he
      · exact absurd (Except.error.inj h).symm he
    · rintro ⟨c', cs', key, rest, more, heq, hquote, hkey, hmore, h⟩
      obtain ⟨rfl, rfl⟩ := List.cons.inj heq
      rw [if_pos hquote]
      refine except_bind_error.2 (.inr ⟨(key, rest), hkey, ?_⟩)
      simp only [hmore]
      exact except_bind_error.2 (.inl ((hreach _).2 h))

theorem scanPairs_error (fuel : ℕ) {s : List Char} (hfuel : s.length ≤ fuel) :
    scanPairs scan fuel s = .error e ↔ PairsReach scan reach s := by
  induction fuel generalizing s with
  | zero =>
    obtain rfl : s = [] := List.length_eq_zero_iff.1 (by omega)
    refine iff_of_false (by simp [scanPairs, he.symm]) ?_
    intro h
    cases h with
    | later h _ _ => exact absurd (takes_scanPair htakes _ _ _ h) (by simp)
  | succ fuel ih =>
    simp only [scanPairs, except_bind_error]
    constructor
    · rintro (h | ⟨⟨pair, rest⟩, hpair, h⟩)
      · obtain ⟨c, cs, key, rest, more, rfl, hquote, hkey, hmore, h⟩ := (scanPair_error he hreach).1 h
        exact .here hquote hkey hmore h
      · have hlt := takes_scanPair htakes _ _ _ hpair
        have hskip := length_skipWhitespace_le rest
        split at h
        · rename_i c more hmore
          rw [hmore, List.length_cons] at hskip
          have hmore' := length_skipWhitespace_le more
          split at h
          · rename_i hcomma
            refine .later hpair (hcomma ▸ hmore) ((ih (by omega)).1 ?_)
            rcases except_bind_error.1 h with h | ⟨_, _, h⟩
            · exact h
            · cases h
          · split at h
            · cases h
            · exact absurd (Except.error.inj h).symm he
        · exact absurd (Except.error.inj h).symm he
    · intro h
      cases h with
      | here hquote hkey hmore h =>
        exact .inl ((scanPair_error he hreach).2 ⟨_, _, _, _, _, rfl, hquote, hkey, hmore, h⟩)
      | @later _ rest more pair hpair hmore h =>
        have hlt := takes_scanPair htakes _ _ _ hpair
        have hskip := length_skipWhitespace_le rest
        rw [hmore, List.length_cons] at hskip
        have hmore' := length_skipWhitespace_le more
        refine .inr ⟨(pair, rest), hpair, ?_⟩
        simp only [hmore, if_pos]
        exact except_bind_error.2 (.inl ((ih (by omega)).2 h))

end

theorem scanArray_error {reach : List Char → Prop} (he : e ≠ .decode) (htakes : Takes scan)
    (hreach : ∀ s, scan s = .error e ↔ reach s) (hnil : ¬ reach []) (hclose : ∀ cs, ¬ reach (']' :: cs))
    (hscan : ∀ cs r, scan (']' :: cs) ≠ .ok r) (s : List Char) :
    scanArray scan s = .error e ↔ ItemsReach scan reach (skipWhitespace s) := by
  unfold scanArray
  split
  · rename_i rest hrest
    rw [hrest]
    refine iff_of_false (by simp) ?_
    intro h
    cases h with
    | here h => exact hclose _ h
    | later h _ _ => exact hscan _ _ h
  · rename_i hopen
    rw [← scanItems_error he htakes hreach hnil _ (le_refl _), except_bind_error]
    refine or_iff_left ?_
    rintro ⟨_, _, h⟩
    cases h

theorem scanObject_error {reach : List Char → Prop} (he : e ≠ .decode) (hd : d.Quiet e) (htakes : Takes scan)
    (hreach : ∀ s, scan s = .error e ↔ reach s) (s : List Char) :
    scanObject d scan s = .error e ↔ PairsReach scan reach (skipWhitespace s) := by
  have hpairs := scanPairs_error he htakes hreach
  unfold scanObject
  split
  · rename_i hempty
    rw [hempty, ← hpairs 0 (by simp)]
    simp [scanPairs]
  · rename_i c rest hrest
    rw [hrest]
    split
    · rename_i hclose
      refine iff_of_false ?_ ?_
      · rw [except_bind_error]
        rintro (h | ⟨_, _, h⟩)
        · exact hd.pairs [] _ h rfl
        · cases h
      · intro h
        cases h with
        | here hquote _ _ _ => omega
        | later h _ _ => simp [scanPair, hclose] at h
    · rw [← hpairs _ (le_refl _), except_bind_error]
      refine or_iff_left ?_
      rintro ⟨pairs, _, h⟩
      rcases except_bind_error.1 h with h | ⟨_, _, h⟩
      · exact hd.pairs _ _ h rfl
      · cases h

theorem raises_scanConstant (hd : d.Quiet e) (word s : List Char) {otherwise : Except Error (Value F × List Char)}
    (h : Raises (· ≠ e) otherwise) : Raises (· ≠ e) (scanConstant d word s otherwise) := by
  unfold scanConstant
  split
  · exact h
  · exact raises_bind (hd.constant word) fun _ _ => raises_pure

theorem raises_scanLiteral (he : e ≠ .decode) (word s : List Char) (v : Value F) :
    Raises (· ≠ e) (scanLiteral word s v) := by
  unfold scanLiteral
  split
  · exact raises_error.2 he.symm
  · exact raises_ok

theorem isDigit_range {c : Char} (h : isDigit c = true) : 48 ≤ c.toNat ∧ c.toNat ≤ 57 := by
  simp only [isDigit, Bool.and_eq_true, decide_eq_true_eq, Char.le_def, UInt32.le_iff_toNat_le] at h
  exact h

/-- What begins neither with a sign nor with a digit is no number. -/
theorem scanNumber_other {c : Char} (hsign : c ≠ '-') (hdigit : isDigit c = false) (cs : List Char) :
    scanNumber d (c :: cs) = .error .decode := by
  have hzero : c ≠ '0' := by
    rintro rfl
    cases hdigit
  unfold scanNumber
  split
  · rename_i heq
    exact absurd (List.cons.inj heq).1 hsign
  · simp [scanUnsigned, integerPart, hzero, hdigit]

/-- The text begins with a sign or a digit. -/
def BeginsNumber (s : List Char) : Prop := ∃ c cs, s = c :: cs ∧ (c = '-' ∨ isDigit c = true)

/-- Besides a decode error, only a number and the rests of arrays and of mappings raise anything. -/
theorem scanWith_error (he : e ≠ .decode) (hd : d.Quiet e) (array object : Scanner F) (s : List Char) :
    scanWith d array object s = .error e ↔ (BeginsNumber s ∧ scanNumber d s = .error e) ∨
      (∃ cs, s = '[' :: cs ∧ array cs = .error e) ∨ ∃ c cs, s = c :: cs ∧ c.toNat = 123 ∧ object cs = .error e := by
  have hdecode : Raises (· ≠ e) (.error .decode : Except Error (Value F × List Char)) := raises_error.2 he.symm
  constructor
  · intro h
    cases s with
    | nil => exact absurd (Except.error.inj h).symm he
    | cons c cs =>
      simp only [scanWith] at h
      split at h
      · rcases except_bind_error.1 h with h | ⟨_, _, h⟩
        · exact absurd (raises_scanString none cs _ h) he
        · cases h
      split at h
      · rename_i hbrace
        exact .inr (.inr ⟨c, cs, rfl, hbrace, h⟩)
      split at h
      · rename_i hbracket
        exact .inr (.inl ⟨cs, by rw [hbracket], h⟩)
      left
      repeat' split at h
      · exact absurd rfl (raises_scanLiteral he _ _ _ _ h)
      · exact absurd rfl (raises_scanLiteral he _ _ _ _ h)
      · exact absurd rfl (raises_scanLiteral he _ _ _ _ h)
      · exact absurd rfl (raises_scanConstant hd _ _ hdecode _ h)
      · exact absurd rfl (raises_scanConstant hd _ _ hdecode _ h)
      · refine ⟨⟨c, cs, rfl, ?_⟩, h⟩
        by_contra hother
        rw [not_or, Bool.not_eq_true] at hother
        rw [scanNumber_other hother.1 hother.2] at h
        exact he (Except.error.inj h).symm
  · rintro (⟨⟨c, cs, rfl, hbegins⟩, h⟩ | ⟨cs, rfl, h⟩ | ⟨c, cs, rfl, hbrace, h⟩)
    · rcases hbegins with rfl | hdigit
      · simpa [scanWith] using h
      · obtain ⟨hlow, hhigh⟩ := isDigit_range hdigit
        have hword : ∀ d : Char, isDigit d = false → c ≠ d := by
          rintro d hd rfl
          exact absurd hdigit (by simp [hd])
        have hquote : c.toNat ≠ 34 := by omega
        have hbrace : c.toNat ≠ 123 := by omega
        simpa [scanWith, hquote, hbrace, hword '[' (by decide), hword 'n' (by decide), hword 't' (by decide),
          hword 'f' (by decide), hword 'N' (by decide), hword 'I' (by decide)] using h
    · simpa [scanWith] using h
    · simpa [scanWith, hbrace] using h

end reaching

/-! ### Too deep -/

theorem raises_scanUnsigned (negative : Bool) (s : List Char) : Raises (· ≠ .recursion) (scanUnsigned d negative s) := by
  unfold scanUnsigned
  split
  · exact raises_error.2 (by simp)
  · dsimp only
    split
    · split
      · exact raises_error.2 (by simp)
      · exact raises_ok
    · exact raises_ok

theorem raises_scanNumber (hd : d.Shallow) (s : List Char) : Raises (· ≠ .recursion) (scanNumber d s) := by
  unfold scanNumber
  split
  · exact raises_scanConstant hd.quiet _ _ (raises_scanUnsigned true _)
  · exact raises_scanUnsigned false _

/-- Only the rest of an array or of a mapping raises a `RecursionError`. -/
theorem scanWith_recursion (hd : d.Shallow) (array object : Scanner F) (s : List Char) :
    scanWith d array object s = .error .recursion ↔ (∃ cs, s = '[' :: cs ∧ array cs = .error .recursion) ∨
      ∃ c cs, s = c :: cs ∧ c.toNat = 123 ∧ object cs = .error .recursion := by
  rw [scanWith_error (by simp) hd.quiet]
  refine or_iff_right ?_
  rintro ⟨-, h⟩
  exact raises_scanNumber hd s _ h rfl

theorem not_nests_nil (limit : ℕ) : ¬ Nests d limit [] := by
  cases limit <;> simp [Nests]

theorem not_nests_bracket (limit : ℕ) (cs : List Char) : ¬ Nests d limit (']' :: cs) := by
  cases limit <;> simp [Nests]

/-- No value begins with a closing bracket. -/
theorem scanValue_bracket (limit : ℕ) (cs : List Char) (r : Value F × List Char) :
    scanValue d limit (']' :: cs) ≠ .ok r := by
  cases limit <;> simp [scanValue, scanWith, scanNumber, scanUnsigned, integerPart, isDigit]

/-- **The scanner gives up exactly on the texts that nest too deep.** -/
theorem scanValue_recursion (hd : d.Shallow) (limit : ℕ) (s : List Char) :
    scanValue d limit s = .error .recursion ↔ Nests d limit s := by
  induction limit generalizing s with
  | zero =>
    simp only [scanValue, scanWith_recursion hd, Nests]
    constructor
    · rintro (⟨cs, rfl, -⟩ | ⟨c, cs, rfl, hbrace, -⟩)
      · exact ⟨_, cs, rfl, .inl rfl⟩
      · exact ⟨c, cs, rfl, .inr hbrace⟩
    · rintro ⟨c, cs, rfl, rfl | hbrace⟩
      · exact .inl ⟨cs, rfl, trivial⟩
      · exact .inr ⟨c, cs, rfl, hbrace, trivial⟩
  | succ limit ih =>
    have harray := scanArray_error (by simp) (takes_scanValue d limit) ih (not_nests_nil limit)
      (not_nests_bracket limit) (scanValue_bracket limit)
    have hobject := scanObject_error (by simp) hd.quiet (takes_scanValue d limit) ih
    simp only [scanValue, scanWith_recursion hd, Nests, harray, hobject]

/-- What `loads` does besides scanning raises a decode error at most. -/
theorem loads_error {e : Error} (he : e ≠ .decode) (s : List Char) : loads d s = .error e ↔
    s.head? ≠ some (Char.ofNat 0xFEFF) ∧ scanValue d d.recursionLimit (skipWhitespace s) = .error e := by
  unfold loads
  split
  · rename_i hbom
    simp [hbom, he.symm]
  · rename_i hbom
    rw [except_bind_error, and_iff_right hbom]
    refine or_iff_left ?_
    rintro ⟨⟨v, rest⟩, -, h⟩
    dsimp only at h
    split at h
    · cases h
    · exact he (Except.error.inj h).symm

/-- **`json.loads` raises a `RecursionError` exactly on the texts that nest too deep.** -/
theorem loads_recursion (hd : d.Shallow) (s : List Char) : loads d s = .error .recursion ↔
    s.head? ≠ some (Char.ofNat 0xFEFF) ∧ Nests d d.recursionLimit (skipWhitespace s) := by
  rw [loads_error (by simp), scanValue_recursion hd]

/-! ### Too long -/

theorem scanUnsigned_value (negative : Bool) (s : List Char) : scanUnsigned d negative s = .error .value ↔
    ∃ digits rest, integerPart s = some (digits, rest) ∧ (fraction rest).1 = [] ∧
      (exponent (fraction rest).2).1 = [] ∧ d.maximumDigits < digits.length := by
  unfold scanUnsigned
  cases hpart : integerPart s with
  | none => simp
  | some part =>
    obtain ⟨digits, rest⟩ := part
    dsimp only
    by_cases hplain : (fraction rest).1 = [] ∧ (exponent (fraction rest).2).1 = []
    · rw [if_pos hplain]
      by_cases hlong : d.maximumDigits < digits.length
      · rw [if_pos hlong]
        exact iff_of_true rfl ⟨digits, rest, rfl, hplain.1, hplain.2, hlong⟩
      · rw [if_neg hlong]
        refine iff_of_false (by simp) ?_
        rintro ⟨digits', rest', heq, -, -, h⟩
        cases heq
        exact hlong h
    · rw [if_neg hplain]
      refine iff_of_false (by simp) ?_
      rintro ⟨digits', rest', heq, hfraction, hexponent, -⟩
      cases heq
      exact hplain ⟨hfraction, hexponent⟩

theorem scanNumber_value (hd : d.Quiet .value) (s : List Char) :
    scanNumber d s = .error .value ↔ LongInteger d s := by
  unfold scanNumber LongInteger
  split
  · rename_i cs
    unfold scanConstant
    split
    · exact scanUnsigned_value true cs
    · rename_i rest hafter
      refine iff_of_false (fun h => ?_) ?_
      · exact raises_bind (hd.constant _) (fun _ _ => raises_pure) _ h rfl
      · -- what follows the sign is no digit
        rintro ⟨digits, rest', hpart, -⟩
        obtain ⟨more, rfl⟩ : ∃ more, cs = 'I' :: more := by
          unfold after at hafter
          split at hafter
          · rename_i hword
            obtain ⟨more, hmore⟩ := hword
            exact ⟨"nfinity".toList ++ more, (congrArg List.tail hmore).symm⟩
          · cases hafter
        simp [withoutSign, integerPart, isDigit] at hpart
  · rename_i hsign
    have hsame : withoutSign s = s := by
      unfold withoutSign
      split
      · rename_i cs
        exact absurd rfl (hsign cs)
      · rfl
    rw [hsame]
    exact scanUnsigned_value false s

theorem not_longInteger_nil : ¬ LongInteger d [] := by
  rintro ⟨_, _, h, -⟩
  cases h

theorem not_longInteger_bracket (cs : List Char) : ¬ LongInteger d (']' :: cs) := by
  rintro ⟨_, _, h, -⟩
  simp [withoutSign, integerPart, isDigit] at h

theorem LongInteger.begins {s : List Char} (h : LongInteger d s) : BeginsNumber s := by
  obtain ⟨digits, rest, hpart, -⟩ := h
  cases s with
  | nil => cases hpart
  | cons c cs =>
    refine ⟨c, cs, rfl, ?_⟩
    by_cases hsign : c = '-'
    · exact .inl hsign
    · right
      have hsame : withoutSign (c :: cs) = c :: cs := by
        unfold withoutSign
        split
        · rename_i heq
          exact absurd (List.cons.inj heq).1 hsign
        · rfl
      rw [hsame] at hpart
      by_contra hdigit
      have hzero : c ≠ '0' := by
        rintro rfl
        exact hdigit (by decide)
      simp [integerPart, hzero, hdigit] at hpart

theorem not_readsLong_nil (limit : ℕ) : ¬ ReadsLong d limit [] := by
  cases limit <;> simp [ReadsLong, not_longInteger_nil]

theorem not_readsLong_bracket (limit : ℕ) (cs : List Char) : ¬ ReadsLong d limit (']' :: cs) := by
  cases limit <;> simp [ReadsLong, not_longInteger_bracket]

/-- Only a long integer and the rests of arrays and of mappings raise a plain `ValueError`. -/
theorem scanWith_value (hd : d.Quiet .value) (array object : Scanner F) (s : List Char) :
    scanWith d array object s = .error .value ↔ LongInteger d s ∨ (∃ cs, s = '[' :: cs ∧ array cs = .error .value) ∨
      ∃ c cs, s = c :: cs ∧ c.toNat = 123 ∧ object cs = .error .value := by
  rw [scanWith_error (by simp) hd, scanNumber_value hd, and_iff_right_of_imp LongInteger.begins]

/-- **The scanner finds a long integer exactly in the texts that hold one before any error.** -/
theorem scanValue_value (hd : d.Quiet .value) (limit : ℕ) (s : List Char) :
    scanValue d limit s = .error .value ↔ ReadsLong d limit s := by
  induction limit generalizing s with
  | zero => simp [scanValue, scanWith_value hd, ReadsLong]
  | succ limit ih =>
    have harray := scanArray_error (by simp) (takes_scanValue d limit) ih (not_readsLong_nil limit)
      (not_readsLong_bracket limit) (scanValue_bracket limit)
    have hobject := scanObject_error (by simp) hd (takes_scanValue d limit) ih
    simp only [scanValue, scanWith_value hd, ReadsLong, harray, hobject]

/-- **`json.loads` raises a plain `ValueError` exactly on the texts with an integer that is too long.** -/
theorem loads_value (hd : d.Quiet .value) (s : List Char) : loads d s = .error .value ↔
    s.head? ≠ some (Char.ofNat 0xFEFF) ∧ ReadsLong d d.recursionLimit (skipWhitespace s) := by
  rw [loads_error (by simp), scanValue_value hd]

end JsonText
