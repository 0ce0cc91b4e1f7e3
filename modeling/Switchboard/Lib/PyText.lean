import Mathlib.Data.List.Basic
import Mathlib.Data.List.DropRight

/-!
# Python text

Character classes of Python's `str` methods and `re` patterns, and the patterns that are a
negative lookbehind on one character followed by a deterministic body.

* `Matcher`: a body, as the text after its match.
* `Pattern.search`, `Pattern.sub`: `re.search` and `re.sub`.
* `search_split`, `subFrom_split`: a character that no match contains splits the text.
* `finditer_splitlines`: the matches of a text are those of its lines.
-/

namespace PyText

/-- The characters of a text are checked one by one, not all characters there are. -/
instance (priority := 2000) decidableForallMem {P : Char → Prop} [DecidablePred P] (w : List Char) :
    Decidable (∀ c, c ∈ w → P c) := List.decidableBAll P w

/-- `str.isspace` of one character, and `\s` of a `str` pattern. -/
def isSpace (c : Char) : Bool :=
  let n := c.toNat
  (9 ≤ n && n ≤ 13) || (28 ≤ n && n ≤ 32) || n == 133 || n == 160 || n == 5760 ||
    (8192 ≤ n && n ≤ 8202) || n == 8232 || n == 8233 || n == 8239 || n == 8287 || n == 12288

/-- `str.strip()`. -/
def strip (s : List Char) : List Char :=
  ((s.dropWhile isSpace).reverse.dropWhile isSpace).reverse

theorem strip_eq_self {s : List Char} (h : ∀ c ∈ s, isSpace c = false) : strip s = s := by
  have hdrop : ∀ t : List Char, (∀ c ∈ t, isSpace c = false) → t.dropWhile isSpace = t := by
    intro t ht
    cases t with
    | nil => rfl
    | cons c t => rw [List.dropWhile_cons_of_neg (by simp [ht c List.mem_cons_self])]
  unfold strip
  rw [hdrop s h, hdrop s.reverse fun c hc => h c (List.mem_reverse.1 hc), List.reverse_reverse]

theorem strip_strip (s : List Char) : strip (strip s) = strip s := by
  -- what is left after the right end has been stripped still starts where the text did
  have hbefore : strip s <+: s.dropWhile isSpace := by
    unfold strip
    exact List.reverse_suffix.1 (by simpa using List.dropWhile_suffix (l := (s.dropWhile isSpace).reverse) isSpace)
  have hleft : (strip s).dropWhile isSpace = strip s := by
    obtain ⟨rest, hrest⟩ := hbefore
    cases hs : strip s with
    | nil => rfl
    | cons c t =>
      rw [hs, List.cons_append] at hrest
      have hc : ¬ isSpace c = true := by
        have := List.head_dropWhile_not isSpace (l := s) (by rw [← hrest]; simp)
        simpa [← hrest] using this
      rw [List.dropWhile_cons_of_neg hc]
  calc strip (strip s) = (((strip s).dropWhile isSpace).reverse.dropWhile isSpace).reverse := rfl
    _ = ((strip s).reverse.dropWhile isSpace).reverse := by rw [hleft]
    _ = strip s := by unfold strip; rw [List.reverse_reverse, List.dropWhile_idempotent]

/-- What is left to replace after `skip` characters that a replaced part has taken. -/
def replaceFrom (old new : List Char) : ℕ → List Char → List Char
  | _, [] => []
  | skip + 1, _ :: s => replaceFrom old new skip s
  | 0, c :: s =>
    if old.isPrefixOf (c :: s) then new ++ replaceFrom old new (old.length - 1) s else c :: replaceFrom old new 0 s

/-- `str.replace(old, new)` of a text that is not empty. -/
def replace (old new s : List Char) : List Char := replaceFrom old new 0 s

/-- What cannot begin the replaced text stays. -/
theorem replace_append {c : Char} {old new s : List Char} (h : c ∉ s) (t : List Char) :
    replace (c :: old) new (s ++ t) = s ++ replace (c :: old) new t := by
  unfold replace
  induction s with
  | nil => rfl
  | cons d s ih =>
    have hne : (c == d) = false := beq_eq_false_iff_ne.2 fun heq => h (heq ▸ List.mem_cons_self)
    rw [List.cons_append, replaceFrom, List.isPrefixOf, hne, Bool.false_and, if_neg Bool.false_ne_true,
      ih fun hc => h (List.mem_cons_of_mem d hc)]
    rfl

/-! ## Classes -/

def isAsciiLetter (c : Char) : Bool := ('a' ≤ c && c ≤ 'z') || ('A' ≤ c && c ≤ 'Z')

def isAsciiDigit (c : Char) : Bool := '0' ≤ c && c ≤ '9'

/-- `[A-Za-z0-9]`. -/
def isAsciiAlnum (c : Char) : Bool := isAsciiLetter c || isAsciiDigit c

theorem isAsciiDigit_of_toDigits {n : ℕ} {c : Char} (h : c ∈ Nat.toDigits 10 n) : isAsciiDigit c = true := by
  have hdigit := Nat.isDigit_of_mem_toDigits (by decide) (by decide) h
  simpa [isAsciiDigit, Char.isDigit, Char.le_def] using hdigit

theorem between_iff {a b c : Char} : (a ≤ c && c ≤ b) = true ↔ a.toNat ≤ c.toNat ∧ c.toNat ≤ b.toNat := by
  simp only [Bool.and_eq_true, decide_eq_true_eq, Char.le_def, UInt32.le_iff_toNat_le, Char.toNat]

theorem mem_intercalate {sep : List Char} {groups : List (List Char)} {c : Char} (h : c ∈ sep.intercalate groups) :
    c ∈ sep ∨ ∃ g ∈ groups, c ∈ g := by
  induction groups with
  | nil => cases h
  | cons g groups ih =>
    cases groups with
    | nil => exact .inr ⟨g, List.mem_cons_self, by simpa using h⟩
    | cons g' groups =>
      rw [List.intercalate_cons_cons, List.mem_append, List.mem_append] at h
      rcases h with (h | h) | h
      · exact .inr ⟨g, List.mem_cons_self, h⟩
      · exact .inl h
      · refine (ih h).imp_right ?_
        rintro ⟨g'', hg, hc⟩
        exact ⟨g'', List.mem_cons_of_mem _ hg, hc⟩

/-- No space is a letter or a digit. -/
theorem isAsciiAlnum_of_isSpace {c : Char} (h : isSpace c = true) : isAsciiAlnum c = false := by
  simp only [isSpace, Bool.or_eq_true, Bool.and_eq_true, decide_eq_true_eq, beq_iff_eq] at h
  rw [Bool.eq_false_iff]
  simp only [isAsciiAlnum, isAsciiLetter, isAsciiDigit, ne_eq, Bool.or_eq_true, between_iff, Char.reduceToNat]
  omega

/-- `[A-Za-z]` under `re.IGNORECASE`: with the four other letters that fold into it. -/
def isLetterIgnoreCase (c : Char) : Bool := isAsciiLetter c || c.toNat ∈ [0x130, 0x131, 0x17f, 0x212a]

/-- A lower-case letter or another character of a pattern, under `re.IGNORECASE`. -/
def sameIgnoreCase (p c : Char) : Bool :=
  c == p || ('a' ≤ p && p ≤ 'z' && c.toNat + 32 == p.toNat) || (p == 'i' && c.toNat ∈ [0x130, 0x131]) ||
    (p == 's' && c.toNat == 0x17f)

/-! ## Bodies of patterns -/

/-- The text after the match, if the body matches at the start of the text. -/
abbrev Matcher := List Char → Option (List Char)

namespace Matcher

/-- One character of the class. -/
def one (cls : Char → Bool) : Matcher
  | c :: cs => if cls c then some cs else none
  | [] => none

/-- As many characters of the class as there are. -/
def many (cls : Char → Bool) : Matcher := fun s => some (s.dropWhile cls)

def andThen (f g : Matcher) : Matcher := fun s => (f s).bind g

/-- The first of the two that matches. -/
def orElse (f g : Matcher) : Matcher := fun s => (f s).or (g s)

/-- The given text, under `re.IGNORECASE`. -/
def word : List Char → Matcher
  | [] => some
  | p :: ps => andThen (one (sameIgnoreCase p)) (word ps)

/-- The given text. -/
def text : List Char → Matcher
  | [] => some
  | p :: ps => andThen (one (· == p)) (text ps)

/-- A negative lookahead on one character. -/
def notNext (cls : Char → Bool) : Matcher := fun s => if s.head?.any cls then none else some s

end Matcher

/-! ## Patterns -/

structure Pattern where
  /-- No match directly after such a character. -/
  behind : Char → Bool
  body : Matcher

namespace Pattern

/-- The match at a position, given the character before it. -/
def matchAt (p : Pattern) (prev : Option Char) : Matcher := fun s => if prev.any p.behind then none else p.body s

/-- Whether the pattern matches somewhere. -/
def search (p : Pattern) : Option Char → List Char → Bool
  | prev, [] => (p.matchAt prev []).isSome
  | prev, c :: cs => (p.matchAt prev (c :: cs)).isSome || p.search (some c) cs

/-- `re.sub` after `skip` more characters of the last match. -/
def subFrom (p : Pattern) (replacement : List Char) : ℕ → Option Char → List Char → List Char
  | _, _, [] => []
  | skip + 1, _, c :: cs => p.subFrom replacement skip (some c) cs
  | 0, prev, c :: cs =>
    match p.matchAt prev (c :: cs) with
    | none => c :: p.subFrom replacement 0 (some c) cs
    | some rest => replacement ++ p.subFrom replacement (cs.length - rest.length) (some c) cs

/-- `re.sub`: every match from left to right is replaced. -/
def sub (p : Pattern) (replacement : List Char) (s : List Char) : List Char := p.subFrom replacement 0 none s

/-- The matches of `re.finditer`, none of them empty, after `skip` more characters of the last one. -/
def finditerFrom (p : Pattern) : ℕ → Option Char → List Char → List (List Char)
  | _, _, [] => []
  | skip + 1, _, c :: cs => p.finditerFrom skip (some c) cs
  | 0, prev, c :: cs =>
    match p.matchAt prev (c :: cs) with
    | none => p.finditerFrom 0 (some c) cs
    | some rest =>
      (c :: cs).take ((c :: cs).length - rest.length) :: p.finditerFrom (cs.length - rest.length) (some c) cs

/-- `re.finditer`: the texts of the matches, from left to right. -/
def finditer (p : Pattern) (s : List Char) : List (List Char) := p.finditerFrom 0 none s

end Pattern

/-! ## Lines -/

/-- The line boundaries of `str.splitlines`. -/
def isLineBreak (c : Char) : Bool :=
  let n := c.toNat
  (10 ≤ n && n ≤ 13) || (28 ≤ n && n ≤ 30) || n == 133 || n == 8232 || n == 8233

/-- The lines of a text, when `line` has been read of the first one, backwards. -/
def splitlinesFrom (line : List Char) : List Char → List (List Char)
  | [] => if line = [] then [] else [line.reverse]
  | '\r' :: '\n' :: cs => line.reverse :: splitlinesFrom [] cs
  | c :: cs => if isLineBreak c then line.reverse :: splitlinesFrom [] cs else splitlinesFrom (c :: line) cs

/-- `str.splitlines()`. -/
def splitlines (s : List Char) : List (List Char) := splitlinesFrom [] s

/-- The interpreter's tables of decimal digits (`\d`) and of word characters (`\w`). -/
structure CharTable where
  decimal : Char → Option ℕ
  isWord : Char → Bool
  ascii : ∀ c : Char, c.toNat < 128 →
    decimal c = (if isAsciiDigit c then some (c.toNat - 48) else none) ∧ isWord c = (isAsciiAlnum c || c == '_')
  space : ∀ c, isSpace c = true → decimal c = none ∧ isWord c = false

def CharTable.isDigit (U : CharTable) (c : Char) : Bool := (U.decimal c).isSome

/-- Tables of an interpreter that knows the ASCII digits and letters only. -/
def asciiTable : CharTable where
  decimal c := if isAsciiDigit c then some (c.toNat - 48) else none
  isWord c := isAsciiAlnum c || c == '_'
  ascii _ _ := ⟨rfl, rfl⟩
  space c h := by
    have halnum := isAsciiAlnum_of_isSpace h
    have hdigit : isAsciiDigit c = false := (Bool.or_eq_false_iff.1 halnum).2
    have hunderscore : (c == '_') = false := by
      rw [beq_eq_false_iff_ne]
      rintro rfl
      exact absurd h (by decide)
    exact ⟨by rw [hdigit]; rfl, by rw [halnum, hunderscore]; rfl⟩

/-! ## Characters that no match contains -/

/-- A match ends at `q` at the latest, and what comes after `q` does not matter to it. -/
def Stops (q : Char) (f : Matcher) : Prop :=
  ∀ x, (f (x ++ [q]) = none ∧ ∀ y, f (x ++ q :: y) = none) ∨
    ∃ r, f (x ++ [q]) = some (r ++ [q]) ∧ r.length ≤ x.length ∧ ∀ y, f (x ++ q :: y) = some (r ++ q :: y)

section stops

open Matcher

variable {q : Char} {f g : Matcher} {cls : Char → Bool}

theorem stops_one (h : cls q = false) : Stops q (one cls) := by
  intro x
  cases x with
  | nil => exact .inl ⟨by simp [one, h], fun y => by simp [one, h]⟩
  | cons c x =>
    cases hc : cls c with
    | true => exact .inr ⟨x, by simp [one, hc], by simp, fun y => by simp [one, hc]⟩
    | false => exact .inl ⟨by simp [one, hc], fun y => by simp [one, hc]⟩

theorem stops_many (h : cls q = false) : Stops q (many cls) := by
  intro x
  refine .inr ⟨x.dropWhile cls, ?_, (List.dropWhile_suffix _).length_le, fun y => ?_⟩
  · induction x with
    | nil => simp [many, h]
    | cons c x ih =>
      by_cases hc : cls c = true
      · simpa [many, hc] using ih
      · simp [many, hc]
  · induction x with
    | nil => simp [many, h]
    | cons c x ih =>
      by_cases hc : cls c = true
      · simpa [many, hc] using ih
      · simp [many, hc]

theorem Stops.andThen (hf : Stops q f) (hg : Stops q g) : Stops q (f.andThen g) := by
  intro x
  unfold Matcher.andThen
  rcases hf x with ⟨hn, hn'⟩ | ⟨r, hs, hr, hs'⟩
  · exact .inl ⟨by simp [hn], fun y => by simp [hn']⟩
  · rcases hg r with ⟨hn, hn'⟩ | ⟨r', hs₂, hr', hs₂'⟩
    · exact .inl ⟨by simp [hs, hn], fun y => by simp [hs', hn']⟩
    · exact .inr ⟨r', by simp [hs, hs₂], Nat.le_trans hr' hr, fun y => by simp [hs', hs₂']⟩

theorem Stops.orElse (hf : Stops q f) (hg : Stops q g) : Stops q (f.orElse g) := by
  intro x
  unfold Matcher.orElse
  rcases hf x with ⟨hn, hn'⟩ | ⟨r, hs, hr, hs'⟩
  · rcases hg x with ⟨hn₂, hn₂'⟩ | ⟨r', hs₂, hr', hs₂'⟩
    · exact .inl ⟨by simp [hn, hn₂], fun y => by simp [hn', hn₂']⟩
    · exact .inr ⟨r', by simp [hn, hs₂], hr', fun y => by simp [hn', hs₂']⟩
  · exact .inr ⟨r, by simp [hs], hr, fun y => by simp [hs']⟩

theorem stops_word {w : List Char} (h : ∀ p ∈ w, sameIgnoreCase p q = false) : Stops q (word w) := by
  induction w with
  | nil => exact fun x => .inr ⟨x, rfl, Nat.le_refl _, fun _ => rfl⟩
  | cons p w ih =>
    have hw : Stops q (word w) := ih fun p hp => h p (List.mem_cons_of_mem _ hp)
    exact (stops_one (h p List.mem_cons_self)).andThen hw

theorem stops_notNext : Stops q (notNext cls) := by
  intro x
  cases x with
  | nil =>
    cases h : cls q with
    | true => exact .inl ⟨by simp [notNext, h], fun y => by simp [notNext, h]⟩
    | false => exact .inr ⟨[], by simp [notNext, h], Nat.le_refl _, fun y => by simp [notNext, h]⟩
  | cons c x =>
    cases hc : cls c with
    | true => exact .inl ⟨by simp [notNext, hc], fun y => by simp [notNext, hc]⟩
    | false => exact .inr ⟨c :: x, by simp [notNext, hc], Nat.le_refl _, fun y => by simp [notNext, hc]⟩

end stops

/-- `q` is in no match of the pattern, and a match may follow it. -/
structure Separates (q : Char) (p : Pattern) : Prop where
  behind : p.behind q = false
  stops : Stops q p.body
  start : ∀ y, p.body (q :: y) = none
  nil : p.body [] = none

namespace Pattern

variable {p : Pattern} {q : Char} {prev : Option Char}

theorem matchAt_separator (h : Separates q p) : p.matchAt (some q) = p.matchAt none := by
  funext s
  simp [matchAt, h.behind]

theorem search_separator (h : Separates q p) (s : List Char) : p.search (some q) s = p.search none s := by
  cases s <;> simp only [search, matchAt_separator h]

theorem matchAt_isSome (h : Separates q p) (prev : Option Char) (x y : List Char) :
    (p.matchAt prev (x ++ q :: y)).isSome = (p.matchAt prev (x ++ [q])).isSome := by
  unfold matchAt
  split
  · rfl
  · rcases h.stops x with ⟨hn, hn'⟩ | ⟨r, hs, -, hs'⟩
    · rw [hn, hn']
    · rw [hs, hs']; rfl

theorem matchAt_start (h : Separates q p) (y : List Char) : p.matchAt prev (q :: y) = none := by
  unfold matchAt
  split
  · rfl
  · exact h.start y

theorem search_split (h : Separates q p) (x y : List Char) :
    p.search prev (x ++ q :: y) = (p.search prev (x ++ [q]) || p.search none y) := by
  induction x generalizing prev with
  | nil =>
    have hend : p.matchAt none [] = none := by simp [matchAt, h.nil]
    simp only [List.nil_append, search, matchAt_start h, Option.isSome_none, Bool.false_or, matchAt_separator h, hend,
      search_separator h]
  | cons c x ih =>
    have hm := matchAt_isSome h prev (c :: x) y
    simp only [List.cons_append, search] at hm ⊢
    rw [hm, ih, Bool.or_assoc]

theorem subFrom_separator (h : Separates q p) (replacement s : List Char) :
    p.subFrom replacement 0 (some q) s = p.subFrom replacement 0 none s := by
  cases s <;> simp only [subFrom, matchAt_separator h]

/-- The skipped rest of a match does not reach `q`. -/
theorem subFrom_split (h : Separates q p) (replacement x y : List Char) (prev : Option Char) (skip : ℕ)
    (hs : skip ≤ x.length) :
    ∃ w, p.subFrom replacement skip prev (x ++ [q]) = w ++ [q] ∧
      p.subFrom replacement skip prev (x ++ q :: y) = w ++ q :: p.sub replacement y := by
  induction x generalizing prev skip with
  | nil =>
    obtain rfl : skip = 0 := by simpa using hs
    refine ⟨[], ?_, ?_⟩
    · simp [subFrom, matchAt_start h]
    · simp [subFrom, matchAt_start h, subFrom_separator h, sub]
  | cons c x ih =>
    cases skip with
    | succ skip =>
      obtain ⟨w, hw, hw'⟩ := ih (some c) skip (by simpa using hs)
      exact ⟨w, hw, hw'⟩
    | zero =>
      have hnone : ∀ y, p.matchAt prev (c :: x ++ q :: y) = none → p.subFrom replacement 0 prev (c :: x ++ q :: y) =
          c :: p.subFrom replacement 0 (some c) (x ++ q :: y) := by
        intro y hy
        simp only [List.cons_append] at hy ⊢
        simp only [subFrom, hy]
      have hsome : ∀ y rest, p.matchAt prev (c :: x ++ q :: y) = some rest →
          p.subFrom replacement 0 prev (c :: x ++ q :: y) =
            replacement ++ p.subFrom replacement ((x ++ q :: y).length - rest.length) (some c) (x ++ q :: y) := by
        intro y rest hy
        simp only [List.cons_append] at hy ⊢
        simp only [subFrom, hy]
      have hcases : (∀ y, p.matchAt prev (c :: x ++ q :: y) = none) ∨
          ∃ r, r.length ≤ x.length + 1 ∧ ∀ y, p.matchAt prev (c :: x ++ q :: y) = some (r ++ q :: y) := by
        unfold matchAt
        split
        · exact .inl fun _ => rfl
        · rcases h.stops (c :: x) with ⟨-, hn⟩ | ⟨r, -, hr, hs⟩
          · exact .inl hn
          · exact .inr ⟨r, hr, hs⟩
      rcases hcases with hn | ⟨r, hr, hm⟩
      · obtain ⟨w, hw, hw'⟩ := ih (some c) 0 (Nat.zero_le _)
        refine ⟨c :: w, ?_, ?_⟩
        · rw [hnone [] (hn []), hw]; rfl
        · rw [hnone y (hn y), hw']; rfl
      · have hlen : ∀ y, (x ++ q :: y).length - (r ++ q :: y).length = x.length - r.length := by
          intro y
          simp only [List.length_append, List.length_cons]
          omega
        obtain ⟨w, hw, hw'⟩ := ih (some c) (x.length - r.length) (Nat.sub_le _ _)
        refine ⟨replacement ++ w, ?_, ?_⟩
        · rw [hsome [] _ (hm []), hlen, hw, List.append_assoc]
        · rw [hsome y _ (hm y), hlen, hw', List.append_assoc]

end Pattern

/-! ## Characters that end a text for a pattern -/

/-- What comes from `q` on does not matter: the body matches as if the text ended before it. -/
def EndsAt (q : Char) (f : Matcher) : Prop := ∀ x y, f (x ++ q :: y) = (f x).map (· ++ q :: y)

section endsAt

open Matcher

variable {q : Char} {f g : Matcher} {cls : Char → Bool}

theorem endsAt_one (h : cls q = false) : EndsAt q (one cls) := by
  intro x y
  cases x with
  | nil => simp [one, h]
  | cons c x => by_cases hc : cls c = true <;> simp [one, hc]

theorem endsAt_many (h : cls q = false) : EndsAt q (many cls) := by
  intro x y
  induction x with
  | nil => simp [many, h]
  | cons c x ih =>
    by_cases hc : cls c = true
    · simpa [many, hc] using ih
    · simp [many, hc]

theorem EndsAt.andThen (hf : EndsAt q f) (hg : EndsAt q g) : EndsAt q (f.andThen g) := by
  intro x y
  unfold Matcher.andThen
  rw [hf x y]
  cases f x with
  | none => rfl
  | some r => exact hg r y

theorem EndsAt.orElse (hf : EndsAt q f) (hg : EndsAt q g) : EndsAt q (f.orElse g) := by
  intro x y
  unfold Matcher.orElse
  rw [hf x y, hg x y]
  cases f x <;> rfl

theorem endsAt_text {w : List Char} (h : q ∉ w) : EndsAt q (text w) := by
  induction w with
  | nil => exact fun x y => rfl
  | cons p w ih =>
    have hp : ((· == p) q : Bool) = false := by
      have hne : q ≠ p := fun heq => h (by simp [heq])
      simpa using hne
    exact (@endsAt_one q (· == p) hp).andThen (ih fun hm => h (List.mem_cons_of_mem _ hm))

theorem endsAt_notNext (h : cls q = false) : EndsAt q (notNext cls) := by
  intro x y
  cases x with
  | nil => simp [notNext, h]
  | cons c x => by_cases hc : cls c = true <;> simp [notNext, hc]

end endsAt

namespace Pattern

variable {p : Pattern} {q : Char}

theorem finditerFrom_guard (h : p.behind q = false) (s : List Char) :
    p.finditerFrom 0 (some q) s = p.finditerFrom 0 none s := by
  cases s with
  | nil => rfl
  | cons c s => simp [finditerFrom, matchAt, h]

/-- The matches before such a character, and the matches after it. -/
theorem finditerFrom_split (hbehind : p.behind q = false) (hends : EndsAt q p.body) (hnil : p.body [] = none)
    (hshrink : ∀ s r, p.body s = some r → r.length ≤ s.length) (x y : List Char) (prev : Option Char) (skip : ℕ)
    (hskip : skip ≤ x.length) :
    p.finditerFrom skip prev (x ++ q :: y) = p.finditerFrom skip prev x ++ p.finditer y := by
  induction x generalizing prev skip with
  | nil =>
    obtain rfl : skip = 0 := by simpa using hskip
    have hnone : p.matchAt prev (q :: y) = none := by
      have hbody : p.body (q :: y) = none := by simpa [hnil] using hends [] y
      simp [matchAt, hbody]
    simp [finditerFrom, hnone, finditerFrom_guard hbehind, finditer]
  | cons c x ih =>
    cases skip with
    | succ skip => exact ih (some c) skip (by simpa using hskip)
    | zero =>
      have hmatch : p.matchAt prev (c :: x ++ q :: y) = (p.matchAt prev (c :: x)).map (· ++ q :: y) := by
        unfold matchAt
        split
        · rfl
        · exact hends (c :: x) y
      rw [List.cons_append] at hmatch ⊢
      simp only [finditerFrom, hmatch]
      cases hm : p.matchAt prev (c :: x) with
      | none => exact ih (some c) 0 (Nat.zero_le _)
      | some rest =>
        have hlen : rest.length ≤ (c :: x).length := by
          unfold matchAt at hm
          split at hm
          · cases hm
          · exact hshrink _ _ hm
        have htake : (c :: (x ++ q :: y)).take ((c :: (x ++ q :: y)).length - (rest ++ q :: y).length) =
            (c :: x).take ((c :: x).length - rest.length) := by
          have hsub : (c :: (x ++ q :: y)).length - (rest ++ q :: y).length = (c :: x).length - rest.length := by
            simp only [List.length_cons, List.length_append]
            omega
          rw [hsub, ← List.cons_append, List.take_append_of_le_length (by omega)]
        have hskip' : (x ++ q :: y).length - (rest ++ q :: y).length = x.length - rest.length := by
          simp only [List.length_cons, List.length_append]
          omega
        simp only [Option.map_some, htake, hskip', List.cons_append]
        rw [ih (some c) _ (Nat.sub_le _ _)]

/-- A pattern whose matches stay within a line. -/
structure OneLine (p : Pattern) : Prop where
  behind : ∀ q, isLineBreak q = true → p.behind q = false
  ends : ∀ q, isLineBreak q = true → EndsAt q p.body
  nil : p.body [] = none
  shrinks : ∀ s r, p.body s = some r → r.length ≤ s.length

theorem OneLine.split (h : OneLine p) (hq : isLineBreak q = true) (x y : List Char) :
    p.finditer (x ++ q :: y) = p.finditer x ++ p.finditer y :=
  finditerFrom_split (h.behind q hq) (h.ends q hq) h.nil h.shrinks x y none 0 (Nat.zero_le _)

theorem OneLine.finditer_from (h : OneLine p) (line s : List Char) :
    p.finditer (line.reverse ++ s) = (splitlinesFrom line s).flatMap p.finditer := by
  fun_induction splitlinesFrom line s with
  | case1 => rfl
  | case2 line hne => simp
  | case3 line cs ih =>
    have hlast : p.finditer ('\n' :: cs) = p.finditer [] ++ p.finditer cs := h.split (x := []) (by decide) cs
    rw [h.split (by decide), hlast, List.flatMap_cons]
    exact congrArg _ ih
  | case4 line c cs hcr hc ih =>
    rw [h.split hc, List.flatMap_cons]
    exact congrArg _ ih
  | case5 line c cs hcr hc ih =>
    rw [← ih, List.reverse_cons, List.append_assoc]
    rfl

/-- **The matches of a text are those of its lines.** -/
theorem OneLine.finditer_splitlines (h : OneLine p) (s : List Char) :
    p.finditer s = (splitlines s).flatMap p.finditer := h.finditer_from [] s

end Pattern

/-! ## What a match leaves -/

/-- What a match leaves is the end of the text. -/
def Leaves (f : Matcher) : Prop := ∀ s r, f s = some r → r <:+ s

section leaves

open Matcher

variable {f g : Matcher} {cls : Char → Bool}

theorem leaves_one : Leaves (one cls) := by
  intro s r h
  cases s with
  | nil => cases h
  | cons c s =>
    simp only [one] at h
    split at h
    · obtain rfl : s = r := Option.some.inj h
      exact List.suffix_cons c s
    · cases h

theorem leaves_many : Leaves (many cls) := by
  intro s r h
  obtain rfl : s.dropWhile cls = r := Option.some.inj h
  exact List.dropWhile_suffix cls

theorem Leaves.andThen (hf : Leaves f) (hg : Leaves g) : Leaves (f.andThen g) := by
  intro s r h
  obtain ⟨t, ht, hr⟩ := Option.bind_eq_some_iff.1 h
  exact (hg t r hr).trans (hf s t ht)

theorem Leaves.orElse (hf : Leaves f) (hg : Leaves g) : Leaves (f.orElse g) := by
  intro s r h
  rcases Option.or_eq_some_iff.1 h with h | ⟨-, h⟩
  · exact hf s r h
  · exact hg s r h

theorem leaves_text (w : List Char) : Leaves (text w) := by
  induction w with
  | nil => intro s r h; cases h; exact List.suffix_refl _
  | cons p w ih => exact leaves_one.andThen ih

theorem leaves_notNext : Leaves (notNext cls) := by
  intro s r h
  unfold notNext at h
  split at h
  · cases h
  · cases h; exact List.suffix_refl _

end leaves

/-! ## Characters that every match contains -/

/-- Every match contains a character of the class. -/
def Needs (cls : Char → Bool) (f : Matcher) : Prop := ∀ s, (∀ c ∈ s, cls c = false) → f s = none

/-- What a match leaves is part of the text. -/
def Shrinks (f : Matcher) : Prop := ∀ s r, f s = some r → ∀ c ∈ r, c ∈ s

section needs

open Matcher

variable {cls cls' : Char → Bool} {f g : Matcher}

theorem Leaves.shrinks (hf : Leaves f) : Shrinks f := fun s r h _ hc => (hf s r h).mem hc

theorem shrinks_one : Shrinks (one cls) := leaves_one.shrinks

theorem shrinks_many : Shrinks (many cls) := leaves_many.shrinks

theorem Shrinks.andThen (hf : Shrinks f) (hg : Shrinks g) : Shrinks (f.andThen g) := by
  intro s r h c hc
  obtain ⟨t, ht, hr⟩ := Option.bind_eq_some_iff.1 h
  exact hf s t ht c (hg t r hr c hc)

theorem shrinks_word (w : List Char) : Shrinks (word w) := by
  induction w with
  | nil => intro s r h c hc; cases h; exact hc
  | cons p w ih => exact shrinks_one.andThen ih

theorem needs_one (h : ∀ c, cls' c = true → cls c = true) : Needs cls (one cls') := by
  intro s hs
  cases s with
  | nil => rfl
  | cons c s =>
    have hc := hs c List.mem_cons_self
    cases hc' : cls' c with
    | true => rw [h c hc'] at hc; cases hc
    | false => simp [one, hc']

theorem Needs.before (hf : Needs cls f) : Needs cls (f.andThen g) := by
  intro s hs
  simp [andThen, hf s hs]

theorem Needs.after (hf : Shrinks f) (hg : Needs cls g) : Needs cls (f.andThen g) := by
  intro s hs
  unfold Matcher.andThen
  cases hr : f s with
  | none => rfl
  | some r => exact hg r fun c hc => hs c (hf s r hr c hc)

theorem Needs.orElse (hf : Needs cls f) (hg : Needs cls g) : Needs cls (f.orElse g) := by
  intro s hs
  simp [Matcher.orElse, hf s hs, hg s hs]

theorem needs_word {w : List Char} {p : Char} (hp : p ∈ w) (h : ∀ c, sameIgnoreCase p c = true → cls c = true) :
    Needs cls (word w) := by
  induction w with
  | nil => cases hp
  | cons p' w ih =>
    rcases List.mem_cons.1 hp with rfl | hp
    · exact (needs_one h).before
    · exact Needs.after shrinks_one (ih hp)

end needs

namespace Pattern

variable {p : Pattern} {cls : Char → Bool}

theorem search_of_needs (h : Needs cls p.body) (prev : Option Char) {s : List Char} (hs : ∀ c ∈ s, cls c = false) :
    p.search prev s = false := by
  induction s generalizing prev with
  | nil =>
    simp only [search, matchAt]
    split
    · rfl
    · rw [h [] hs]; rfl
  | cons c s ih =>
    have hm : p.matchAt prev (c :: s) = none := by
      unfold matchAt
      split
      · rfl
      · exact h _ hs
    simp only [search, hm, Option.isSome_none, Bool.false_or]
    exact ih _ fun d hd => hs d (List.mem_cons_of_mem _ hd)

/-- Without such a character nothing is replaced. -/
theorem subFrom_of_needs (h : Needs cls p.body) (replacement : List Char) (prev : Option Char) {s : List Char}
    (hs : ∀ c ∈ s, cls c = false) : p.subFrom replacement 0 prev s = s := by
  induction s generalizing prev with
  | nil => rfl
  | cons c s ih =>
    have hm : p.matchAt prev (c :: s) = none := by
      unfold matchAt
      split
      · rfl
      · exact h _ hs
    simp only [subFrom, hm]
    rw [ih _ fun d hd => hs d (List.mem_cons_of_mem _ hd)]

/-- Removing the matches leaves characters of the text. -/
theorem mem_of_mem_subFrom (skip : ℕ) (prev : Option Char) {s : List Char} {c : Char}
    (h : c ∈ p.subFrom [] skip prev s) : c ∈ s := by
  induction s generalizing skip prev with
  | nil => simp [subFrom] at h
  | cons d s ih =>
    cases skip with
    | succ skip => exact List.mem_cons_of_mem _ (ih _ _ h)
    | zero =>
      simp only [subFrom] at h
      split at h
      · rcases List.mem_cons.1 h with rfl | h
        · exact List.mem_cons_self
        · exact List.mem_cons_of_mem _ (ih _ _ h)
      · exact List.mem_cons_of_mem _ (ih _ _ h)

end Pattern

/-! ## Longer texts -/

/-- A match stays the match when the text goes on. -/
def Extends (f : Matcher) : Prop := ∀ x r, f x = some r → ∀ y, f (x ++ y) = some (r ++ y)

/-- Where there is a match, there is one when the text goes on. -/
def Grows (f : Matcher) : Prop := ∀ x, (f x).isSome = true → ∀ y, (f (x ++ y)).isSome = true

section grows

open Matcher

variable {f g : Matcher} {cls : Char → Bool}

theorem extends_one : Extends (one cls) := by
  intro x r h y
  cases x with
  | nil => cases h
  | cons c x =>
    simp only [one] at h
    split at h
    · rename_i hc
      obtain rfl : x = r := Option.some.inj h
      simp [one, hc]
    · cases h

theorem Extends.andThen (hf : Extends f) (hg : Extends g) : Extends (f.andThen g) := by
  intro x r h y
  obtain ⟨t, ht, hr⟩ := Option.bind_eq_some_iff.1 h
  exact Option.bind_eq_some_iff.2 ⟨t ++ y, hf x t ht y, hg t r hr y⟩

theorem extends_word (w : List Char) : Extends (word w) := by
  induction w with
  | nil => intro x r h y; cases h; rfl
  | cons p w ih => exact extends_one.andThen ih

theorem Extends.grows (h : Extends f) : Grows f := by
  intro x hx y
  obtain ⟨r, hr⟩ := Option.isSome_iff_exists.1 hx
  rw [h x r hr y]
  rfl

theorem Extends.andThen_grows (hf : Extends f) (hg : Grows g) : Grows (f.andThen g) := by
  intro x hx y
  obtain ⟨r, hr⟩ := Option.isSome_iff_exists.1 hx
  obtain ⟨t, ht, hr⟩ := Option.bind_eq_some_iff.1 hr
  have hfy : (f.andThen g) (x ++ y) = g (t ++ y) := by simp [Matcher.andThen, hf x t ht y]
  rw [hfy]
  exact hg t (by rw [hr]; rfl) y

theorem Grows.orElse (hf : Grows f) (hg : Grows g) : Grows (f.orElse g) := by
  intro x hx y
  unfold Matcher.orElse at hx ⊢
  rw [Option.isSome_or, Bool.or_eq_true] at hx ⊢
  exact hx.imp (hf x · y) (hg x · y)

/-- A repetition that something must follow ends before the text does. -/
theorem grows_many_andThen (hnil : g [] = none) (hg : Grows g) : Grows ((many cls).andThen g) := by
  intro x hx y
  change (g (x.dropWhile cls)).isSome = true at hx
  change (g ((x ++ y).dropWhile cls)).isSome = true
  have hne : x.dropWhile cls ≠ [] := by
    intro h
    rw [h, hnil] at hx
    cases hx
  have hdrop : (x ++ y).dropWhile cls = x.dropWhile cls ++ y := by
    rw [List.dropWhile_append, if_neg (by simpa using hne)]
  rw [hdrop]
  exact hg _ hx y

theorem word_some {w s r : List Char} (h : word w s = some r) :
    ∃ u, s = u ++ r ∧ List.Forall₂ (fun p c => sameIgnoreCase p c = true) w u := by
  induction w generalizing s with
  | nil => exact ⟨[], Option.some.inj h, .nil⟩
  | cons p w ih =>
    obtain ⟨t, ht, hr⟩ := Option.bind_eq_some_iff.1 h
    cases s with
    | nil => cases ht
    | cons c s =>
      simp only [one] at ht
      split at ht
      · rename_i hc
        obtain rfl : s = t := Option.some.inj ht
        obtain ⟨u, rfl, hall⟩ := ih hr
        exact ⟨c :: u, rfl, .cons hc hall⟩
      · cases ht

/-- A word at the start of a longer text is there already, or the text ends within the word. -/
theorem word_append {w x y r : List Char} (h : word w (x ++ y) = some r) :
    (∃ t, word w x = some t ∧ r = t ++ y) ∨
      ∃ v, v <+: w ∧ List.Forall₂ (fun p c => sameIgnoreCase p c = true) v x := by
  induction w generalizing x with
  | nil => exact .inl ⟨x, rfl, (Option.some.inj h).symm⟩
  | cons p w ih =>
    cases x with
    | nil => exact .inr ⟨[], List.nil_prefix, .nil⟩
    | cons c x =>
      obtain ⟨t, ht, hr⟩ := Option.bind_eq_some_iff.1 h
      simp only [one, List.cons_append] at ht
      split at ht
      · rename_i hc
        obtain rfl : x ++ y = t := Option.some.inj ht
        rcases ih hr with ⟨t, ht, rfl⟩ | ⟨v, hv, hall⟩
        · exact .inl ⟨t, by simp [word, andThen, one, hc, ht], rfl⟩
        · exact .inr ⟨p :: v, List.cons_prefix_cons.2 ⟨rfl, hv⟩, .cons hc hall⟩
      · cases ht

end grows

namespace Pattern

variable {p : Pattern}

theorem search_grows (h : Grows p.body) {prev : Option Char} {x : List Char} (hx : p.search prev x = true)
    (y : List Char) : p.search prev (x ++ y) = true := by
  have hmatch : ∀ (prev : Option Char) (s : List Char), (p.matchAt prev s).isSome = true →
      (p.matchAt prev (s ++ y)).isSome = true := by
    intro prev s hs
    unfold matchAt at hs ⊢
    split at hs
    · cases hs
    · rename_i hguard
      rw [if_neg hguard]
      exact h s hs y
  induction x generalizing prev with
  | nil =>
    have hy := hmatch prev [] hx
    cases y with
    | nil => exact hx
    | cons c y =>
      rw [List.nil_append] at hy
      simp [search, hy]
  | cons c x ih =>
    simp only [List.cons_append, search, Bool.or_eq_true] at hx ⊢
    exact hx.imp (hmatch prev (c :: x)) ih

end Pattern

end PyText
