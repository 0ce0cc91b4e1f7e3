import Switchboard.Lib.JsonText
import Mathlib.Data.Int.Log
import Mathlib.Data.Rat.Floor
import Mathlib.Tactic.NormNum
import Mathlib.Tactic.Linarith

/-!
# Binary64 numbers

The numbers of the IEEE 754 format binary64 as the rationals they are, with the rounding to
nearest, ties to even.

* `ofRat`: a rational as it is rounded.
* `ofInt`: an integer, unless it is too large.
* `ofLiteral`: a literal of JSON or Python.
* `ofInt_exact`, `ofInt_between`: small integers are not rounded, and large ones do not become small.
-/

/-- A number of the format. The two zeros are one. -/
inductive Binary64
  | finite (q : ℚ)
  | infinity (negative : Bool)
  | nan
  deriving DecidableEq

namespace Binary64

/-- The nearest integer, and the even one of two. -/
def roundHalfEven (x : ℚ) : ℤ :=
  let k := ⌊x⌋
  if x - k < 1 / 2 then k else if 1 / 2 < x - k then k + 1 else k + k % 2

/-- The exponent of the last place of the significand. -/
def quantum (x : ℚ) : ℤ := max (Int.log 2 |x| - 52) (-1074)

/-- The rounded value, before its size is looked at. -/
def rounded (x : ℚ) : ℚ := roundHalfEven (x / 2 ^ quantum x) * 2 ^ quantum x

/-- The number nearest to a rational. -/
def ofRat (x : ℚ) : Binary64 :=
  if 2 ^ 1024 ≤ |rounded x| then .infinity (decide (x < 0)) else .finite (rounded x)

/-- The number nearest to an integer; there is none for an integer that rounds to 2 ^ 1024 or more. -/
def ofInt (n : ℤ) : Option Binary64 :=
  if 2 ^ 1024 ≤ |rounded n| then none else some (.finite (rounded n))

/-- The rational that a literal of digits, fraction and exponent writes. -/
def literalValue (s : List Char) : ℚ :=
  let negative := s.head? == some '-'
  let s := if negative then s.drop 1 else s
  let whole := s.takeWhile JsonText.isDigit
  let rest := s.dropWhile JsonText.isDigit
  let fractional := if rest.head? = some '.' then (rest.drop 1).takeWhile JsonText.isDigit else []
  let rest := if rest.head? = some '.' then (rest.drop 1).dropWhile JsonText.isDigit else rest
  let exponent : ℤ :=
    match rest with
    | _ :: '-' :: digits => -(JsonText.natOfDigits digits : ℤ)
    | _ :: '+' :: digits => JsonText.natOfDigits digits
    | _ :: digits => JsonText.natOfDigits digits
    | [] => 0
  (if negative then -1 else 1) * JsonText.natOfDigits (whole ++ fractional) * 10 ^ (exponent - fractional.length)

/-- `float` of such a literal. -/
def ofLiteral (s : List Char) : Binary64 := ofRat (literalValue s)

/-- `float` of `NaN`, `Infinity` or `-Infinity`. -/
def ofConstant (s : List Char) : Binary64 :=
  if s.head? = some 'N' then .nan else .infinity (s.head? == some '-')

/-- The comparison of numbers: nothing is below or above `nan`. -/
def le : Binary64 → Binary64 → Bool
  | .finite a, .finite b => decide (a ≤ b)
  | .infinity a, .infinity b => a || !b
  | .infinity a, .finite _ => a
  | .finite _, .infinity b => !b
  | _, _ => false

theorem roundHalfEven_int (n : ℤ) : roundHalfEven (n : ℚ) = n := by
  simp [roundHalfEven]

/-- An integer of at most 53 bits is a multiple of the quantum. -/
theorem rounded_int {n : ℤ} (h : |n| < 2 ^ 53) : rounded (n : ℚ) = n := by
  have hquantum : quantum (n : ℚ) ≤ 0 := by
    have hlog : Int.log 2 |(n : ℚ)| ≤ 52 := by
      by_cases hn : n = 0
      · simp [hn]
      · have hpos : (0 : ℚ) < |(n : ℚ)| := abs_pos.2 (by exact_mod_cast hn)
        have hlt : |(n : ℚ)| < ((2 : ℕ) : ℚ) ^ (53 : ℤ) := by exact_mod_cast h
        have := (Int.lt_zpow_iff_log_lt (b := 2) (by norm_num) hpos).1 hlt
        omega
    unfold quantum
    omega
  have hpow : ((2 : ℚ) ^ quantum (n : ℚ)) ≠ 0 := zpow_ne_zero _ (by norm_num)
  obtain ⟨k, hk⟩ : ∃ k : ℕ, quantum (n : ℚ) = -(k : ℤ) := ⟨(quantum (n : ℚ)).natAbs, by omega⟩
  have hint : (n : ℚ) / 2 ^ quantum (n : ℚ) = ((n * 2 ^ k : ℤ) : ℚ) := by
    rw [hk, zpow_neg, zpow_natCast, div_inv_eq_mul]
    push_cast
    rfl
  unfold rounded
  rw [hint, roundHalfEven_int, ← hint, div_mul_cancel₀ _ hpow]

/-- **Small integers are exact.** -/
theorem ofInt_exact {n : ℤ} (h : |n| < 2 ^ 53) : ofInt n = some (.finite n) := by
  have hsmall : ¬ (2 : ℚ) ^ 1024 ≤ |(n : ℚ)| := by
    have h53 : |(n : ℚ)| < 2 ^ 53 := by exact_mod_cast h
    have hpow : (2 : ℚ) ^ 53 ≤ 2 ^ 1024 := pow_le_pow_right₀ (by norm_num) (by norm_num)
    exact not_le.2 (lt_of_lt_of_le h53 hpow)
  unfold ofInt
  rw [rounded_int h, if_neg hsmall]

theorem floor_le_roundHalfEven (x : ℚ) : ⌊x⌋ ≤ roundHalfEven x := by
  unfold roundHalfEven
  dsimp only
  have := Int.emod_nonneg ⌊x⌋ (show (2 : ℤ) ≠ 0 by omega)
  split
  · omega
  · split <;> omega

theorem roundHalfEven_nonpos {x : ℚ} (h : x ≤ 0) : roundHalfEven x ≤ 0 := by
  have hfloor : (⌊x⌋ : ℚ) ≤ x := Int.floor_le x
  have hk : ⌊x⌋ ≤ 0 := by exact_mod_cast hfloor.trans h
  unfold roundHalfEven
  dsimp only
  split
  · exact hk
  · rename_i hhalf
    -- the fraction is not zero, so that the floor is below the number
    have hneg : ⌊x⌋ < 0 := by
      have hlt : (⌊x⌋ : ℚ) < 0 := by linarith [not_lt.1 hhalf]
      exact_mod_cast hlt
    split <;> omega

theorem rounded_nonpos {x : ℚ} (h : x ≤ 0) : rounded x ≤ 0 := by
  have hpow : (0 : ℚ) < 2 ^ quantum x := zpow_pos (by norm_num) _
  have hround : (roundHalfEven (x / 2 ^ quantum x) : ℚ) ≤ 0 := by
    exact_mod_cast roundHalfEven_nonpos (div_nonpos_of_nonpos_of_nonneg h hpow.le)
  exact mul_nonpos_of_nonpos_of_nonneg hround hpow.le

/-- An integer of more than 53 bits stays one. -/
theorem rounded_large {n : ℤ} (h : 2 ^ 53 ≤ n) : 2 ^ 53 ≤ rounded (n : ℚ) := by
  have hn : (0 : ℚ) < n := by exact_mod_cast lt_of_lt_of_le (by norm_num) h
  have habs : |(n : ℚ)| = n := abs_of_pos hn
  obtain ⟨e, he⟩ : ∃ e, e = Int.log 2 |(n : ℚ)| := ⟨_, rfl⟩
  have h53 : 53 ≤ e := by
    rw [he, habs, ← Int.zpow_le_iff_le_log (b := 2) (by norm_num) hn]
    exact_mod_cast h
  have hle : (2 : ℚ) ^ e ≤ n := by
    rw [he, habs]
    exact_mod_cast Int.zpow_log_le_self (b := 2) (by norm_num) hn
  have hquantum : quantum (n : ℚ) = e - 52 := by
    unfold quantum
    omega
  have hpow : (0 : ℚ) < 2 ^ (e - 52) := zpow_pos (by norm_num) _
  have hsplit : (2 : ℚ) ^ e = 2 ^ 52 * 2 ^ (e - 52) := by
    rw [← zpow_natCast, ← zpow_add₀ (by norm_num)]
    congr 1
    omega
  have hfloor : (2 ^ 52 : ℤ) ≤ roundHalfEven (n / 2 ^ (e - 52)) := by
    refine le_trans (Int.le_floor.2 ?_) (floor_le_roundHalfEven _)
    rw [le_div_iff₀ hpow]
    exact_mod_cast hsplit ▸ hle
  calc (2 : ℚ) ^ 53 ≤ 2 ^ e := by exact_mod_cast zpow_le_zpow_right₀ (by norm_num : (1 : ℚ) ≤ 2) h53
    _ = 2 ^ 52 * 2 ^ (e - 52) := hsplit
    _ ≤ roundHalfEven (n / 2 ^ (e - 52)) * 2 ^ (e - 52) := mul_le_mul_of_nonneg_right (by exact_mod_cast hfloor) hpow.le
    _ = rounded n := by rw [rounded, hquantum]

/-- A number between one and 2 ^ 53 is no rounded integer but that integer. -/
theorem ofInt_between {n : ℤ} {q : ℚ} (h : ofInt n = some (.finite q)) (hpos : 0 < q) (hsmall : q < 2 ^ 53) :
    q = n := by
  have hrounded : rounded n = q := by
    unfold ofInt at h
    split at h
    · cases h
    · simpa using h
  have hn : 0 < n := by
    by_contra hn
    have := rounded_nonpos (x := n) (by exact_mod_cast not_lt.1 hn)
    linarith
  have hbound : n < 2 ^ 53 := by
    by_contra hbound
    have := rounded_large (not_lt.1 hbound)
    linarith
  rw [← hrounded, rounded_int (by rw [abs_of_pos hn]; exact hbound)]

end Binary64
