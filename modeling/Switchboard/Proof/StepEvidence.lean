import Switchboard.Lib.Try
import Switchboard.Proof.Text
import Switchboard.Spec.StepEvidence

/-!
# Cut summaries

The worker sanitises the output of a step before it cuts it. Most of what the text policy looks for
is in the text before the cut if it is in the text after it. A slash is not: it may be harmless only
for the space, or for the nonlocal URI, that stood behind the cut.

* `subFrom_cut`: what the removal of the nonlocal URIs leaves of a text that is cut.
* `containsAbsoluteLocalPath_take`: when the policy refuses a cut text.
* `stepEvidence_accepted_iff`: when the evidence of the steps is accepted.
-/

namespace Switchboard

open PyText Matcher Pattern Transaction

/-! ## Patterns that do not look past their match -/

theorem fileUri_grows : Grows fileUri.body := (extends_word _).grows

theorem localDatabaseUri_grows : Grows localDatabaseUri.body := by
  have hslashes : Grows (word ":///".toList) := (extends_word _).grows
  refine (extends_word _).andThen_grows (Grows.orElse ?_ hslashes)
  exact (extends_word _).andThen_grows (extends_one.andThen_grows (grows_many_andThen rfl hslashes))

theorem windowsDrivePath_grows : Grows windowsDrivePath.body :=
  (extends_one.andThen (extends_one.andThen extends_one)).grows

theorem windowsUncPath_search {s : List Char} (h : '\\' ∉ s) : windowsUncPath.search none s = false := by
  have hneeds : Needs (· == '\\') windowsUncPath.body := (needs_one fun _ hc => hc).before
  exact search_of_needs hneeds none fun c hc => beq_eq_false_iff_ne.2 fun heq => h (heq ▸ hc)

/-! ## Beginnings of URIs -/

/-- The beginning, perhaps empty, of the scheme of a nonlocal URI. -/
def SchemeStart (s : List Char) : Prop :=
  ∃ scheme ∈ safeSchemes, ∃ v, v <+: (scheme ++ ":").toList ∧ List.Forall₂ (fun p c => sameIgnoreCase p c = true) v s

theorem schemeStart_nil : SchemeStart [] := ⟨"http", by decide, [], List.nil_prefix, .nil⟩

/-- The scheme of a nonlocal URI. -/
def uriScheme : Matcher :=
  safeSchemes.foldr (fun scheme others => (word (scheme ++ ":").toList).orElse others) fun _ => none

theorem safeNonlocalUri_body : safeNonlocalUri.body = uriScheme.andThen ((one uriChar).andThen (many uriChar)) := rfl

/-- A word with a colon at its end only leaves what is behind the first colon. -/
theorem word_colon {letters : List Char} (h : ∀ p ∈ letters, sameIgnoreCase p ':' = false) {s r : List Char}
    (hs : word (letters ++ [':']) s = some r) : r = (s.dropWhile (· != ':')).tail := by
  induction letters generalizing s with
  | nil =>
    obtain ⟨t, ht, hr⟩ := Option.bind_eq_some_iff.1 hs
    obtain rfl : t = r := Option.some.inj hr
    cases s with
    | nil => cases ht
    | cons c s =>
      simp only [one] at ht
      split at ht
      · rename_i hc
        obtain rfl : s = t := Option.some.inj ht
        obtain rfl : c = ':' := by simpa [sameIgnoreCase] using hc
        simp
      · cases ht
  | cons p letters ih =>
    obtain ⟨t, ht, hr⟩ := Option.bind_eq_some_iff.1 hs
    cases s with
    | nil => cases ht
    | cons c s =>
      simp only [one] at ht
      split at ht
      · rename_i hc
        obtain rfl : s = t := Option.some.inj ht
        have hne : c ≠ ':' := by
          rintro rfl
          rw [h p List.mem_cons_self] at hc
          cases hc
        rw [ih (fun q hq => h q (List.mem_cons_of_mem _ hq)) hr, List.dropWhile_cons_of_pos (by simpa using hne)]
      · cases ht

theorem schemes_plain : ∀ scheme ∈ safeSchemes, ∀ p ∈ scheme.toList, sameIgnoreCase p ':' = false := by decide

theorem uriScheme_some {s r : List Char} (h : uriScheme s = some r) :
    ∃ scheme ∈ safeSchemes, word (scheme ++ ":").toList s = some r := by
  unfold uriScheme at h
  generalize safeSchemes = schemes at h
  induction schemes with
  | nil => cases h
  | cons scheme schemes ih =>
    rcases Option.or_eq_some_iff.1 h with h | ⟨-, h⟩
    · exact ⟨scheme, List.mem_cons_self, h⟩
    · obtain ⟨scheme', hmem, h⟩ := ih h
      exact ⟨scheme', List.mem_cons_of_mem _ hmem, h⟩

/-- Whichever scheme matches, it leaves the same. -/
theorem uriScheme_of_word {scheme : String} (hscheme : scheme ∈ safeSchemes) {s r : List Char}
    (h : word (scheme ++ ":").toList s = some r) : uriScheme s = some r := by
  have hcolon : ∀ scheme ∈ safeSchemes, ∀ r, word (scheme ++ ":").toList s = some r →
      r = (s.dropWhile (· != ':')).tail := by
    intro scheme hmem r hr
    rw [String.toList_append] at hr
    exact word_colon (schemes_plain scheme hmem) hr
  have hsome : (uriScheme s).isSome = true := by
    unfold uriScheme
    clear hcolon
    revert hscheme
    generalize safeSchemes = schemes
    intro hscheme
    induction schemes with
    | nil => cases hscheme
    | cons scheme' schemes ih =>
      simp only [List.foldr_cons, Matcher.orElse, Option.isSome_or, Bool.or_eq_true]
      rcases List.mem_cons.1 hscheme with rfl | hmem
      · exact .inl (by rw [h]; rfl)
      · exact .inr (ih hmem)
  obtain ⟨r', hr'⟩ := Option.isSome_iff_exists.1 hsome
  obtain ⟨scheme', hmem', hr⟩ := uriScheme_some hr'
  rw [hr', hcolon scheme' hmem' r' hr, hcolon scheme hscheme r h]

theorem uriScheme_extends : Extends uriScheme := by
  intro x r h y
  obtain ⟨scheme, hmem, h⟩ := uriScheme_some h
  exact uriScheme_of_word hmem (extends_word _ x r h y)

/-- A URI of a text that is cut is there before the cut, or the text ends in its scheme. -/
theorem safeNonlocalUri_cut {x y r : List Char} (h : safeNonlocalUri.body (x ++ y) = some r) :
    (safeNonlocalUri.body x).isSome = true ∨ SchemeStart x := by
  obtain ⟨t, ht, hr⟩ := Option.bind_eq_some_iff.1 h
  obtain ⟨scheme, hmem, hword⟩ := uriScheme_some ht
  rcases word_append hword with ⟨t, hx, rfl⟩ | ⟨v, hv, hall⟩
  · cases t with
    | nil =>
      obtain ⟨u, rfl, hall⟩ := word_some hx
      exact .inr ⟨scheme, hmem, _, List.prefix_rfl, by simpa using hall⟩
    | cons c t =>
      obtain ⟨t', ht', -⟩ := Option.bind_eq_some_iff.1 hr
      simp only [List.cons_append, one] at ht'
      split at ht'
      · rename_i hc
        refine .inl ?_
        rw [safeNonlocalUri_body]
        simp [andThen, uriScheme_of_word hmem hx, one, hc, many]
      · cases ht'
  · exact .inr ⟨scheme, hmem, v, hv, hall⟩

/-- What a URI leaves of a text that is cut: nothing, if it goes on to the cut. -/
theorem safeNonlocalUri_extends {x y r : List Char} (h : safeNonlocalUri.body x = some r) :
    r = [] ∨ safeNonlocalUri.body (x ++ y) = some (r ++ y) := by
  obtain ⟨t, ht, hr⟩ := Option.bind_eq_some_iff.1 h
  obtain ⟨t', ht', hr⟩ := Option.bind_eq_some_iff.1 hr
  obtain rfl : t'.dropWhile uriChar = r := Option.some.inj hr
  rw [or_iff_not_imp_left]
  intro hne
  have hdrop : (t' ++ y).dropWhile uriChar = t'.dropWhile uriChar ++ y := by
    rw [List.dropWhile_append, if_neg (by simpa using hne)]
  rw [safeNonlocalUri_body]
  simp [andThen, uriScheme_extends x t ht y, extends_one t t' ht' y, many, hdrop]

theorem schemeChar_of_same {p c : Char} (hp : ('a' ≤ p && p ≤ 'z') = true) (h : sameIgnoreCase p c = true) :
    schemeChar c = true := by
  simp only [between_iff, Char.reduceToNat] at hp
  have hletter : isLetterIgnoreCase c = true := by
    simp only [sameIgnoreCase, Bool.or_eq_true, Bool.and_eq_true, beq_iff_eq, decide_eq_true_eq] at h
    simp only [isLetterIgnoreCase, isAsciiLetter, Bool.or_eq_true, between_iff, Char.reduceToNat, decide_eq_true_eq]
    rcases h with ((rfl | h) | h) | h
    · exact .inl (.inl hp)
    · exact .inl (.inr (by omega))
    · have := h.2
      simp only [List.mem_cons, List.not_mem_nil, or_false] at this ⊢
      omega
    · simp [h.2]
  simp [schemeChar, hletter]

theorem scheme_letters : ∀ scheme ∈ safeSchemes, ∀ p ∈ scheme.toList, ('a' ≤ p && p ≤ 'z') = true := by decide

/-- All characters of a scheme but its colon may not stand before a URI. -/
theorem SchemeStart.dropLast_plain {s : List Char} (h : SchemeStart s) : ∀ c ∈ s.dropLast, schemeChar c = true := by
  obtain ⟨scheme, hmem, v, hv, hall⟩ := h
  have hletters := scheme_letters scheme hmem
  rw [String.toList_append, show ":".toList = [':'] from rfl] at hv
  generalize scheme.toList = letters at hv hletters
  induction hall generalizing letters with
  | nil => simp
  | @cons p c v s hpc hall ih =>
    cases letters with
    | nil =>
      obtain rfl : v = [] := List.prefix_nil.1 (List.cons_prefix_cons.1 hv).2
      cases hall
      simp
    | cons q letters =>
      obtain ⟨rfl, hv'⟩ := List.cons_prefix_cons.1 hv
      cases s with
      | nil => simp
      | cons d s =>
        intro e he
        rw [List.dropLast_cons_cons] at he
        rcases List.mem_cons.1 he with rfl | he
        · exact schemeChar_of_same (hletters p List.mem_cons_self) hpc
        · exact ih letters hv' (fun q hq => hletters q (List.mem_cons_of_mem _ hq)) e he

theorem SchemeStart.plain {s : List Char} (h : SchemeStart s) : ∀ c ∈ s, schemeChar c = true ∨ c = ':' := by
  obtain ⟨scheme, hmem, v, hv, hall⟩ := h
  have hletters : ∀ p ∈ v, ('a' ≤ p && p ≤ 'z') = true ∨ p = ':' := by
    intro p hp
    have hp := hv.mem hp
    rw [String.toList_append] at hp
    rcases List.mem_append.1 hp with hp | hp
    · exact .inl (scheme_letters scheme hmem p hp)
    · exact .inr (List.mem_singleton.1 hp)
  clear hv
  induction hall with
  | nil => simp
  | @cons p c v s hpc _ ih =>
    intro d hd
    rcases List.mem_cons.1 hd with rfl | hd
    · rcases hletters p List.mem_cons_self with hp | rfl
      · exact .inl (schemeChar_of_same hp hpc)
      · exact .inr (by simpa [sameIgnoreCase] using hpc)
    · exact ih (fun q hq => hletters q (List.mem_cons_of_mem _ hq)) d hd

theorem SchemeStart.no_slash {s : List Char} (h : SchemeStart s) : '/' ∉ s := by
  intro hslash
  rcases h.plain '/' hslash with h | h
  · exact absurd h (by decide)
  · exact absurd h (by decide)

theorem not_space_of_schemeChar {c : Char} (h : schemeChar c = true) : isSpace c = false := by
  rw [Bool.eq_false_iff]
  simp only [schemeChar, isLetterIgnoreCase, isAsciiLetter, isAsciiDigit, Bool.or_eq_true, between_iff,
    Char.reduceToNat, decide_eq_true_eq, List.mem_cons, List.not_mem_nil, or_false] at h
  simp only [isSpace, ne_eq, Bool.or_eq_true, Bool.and_eq_true, decide_eq_true_eq, beq_iff_eq]
  rcases h with (h | h) | h
  · omega
  · omega
  · rcases h with rfl | rfl | rfl <;> decide

theorem SchemeStart.head_not_space {s : List Char} (h : SchemeStart s) : s.head?.any isSpace = false := by
  cases s with
  | nil => rfl
  | cons c s =>
    rcases h.plain c List.mem_cons_self with hc | rfl
    · exact not_space_of_schemeChar hc
    · rfl

/-- No URI begins within a scheme. -/
theorem subFrom_scheme {c : Char} {s : List Char} (h : ∀ d ∈ (c :: s).dropLast, schemeChar d = true) :
    safeNonlocalUri.subFrom [] 0 (some c) s = s := by
  induction s generalizing c with
  | nil => rfl
  | cons d s ih =>
    rw [List.dropLast_cons_cons] at h
    have hguard : safeNonlocalUri.behind c = true := h c List.mem_cons_self
    have hnone : safeNonlocalUri.matchAt (some c) (d :: s) = none := by simp [matchAt, hguard]
    simp only [subFrom, hnone]
    rw [ih fun e he => h e (List.mem_cons_of_mem _ he)]

theorem subFrom_all (p : Pattern) (replacement : List Char) (prev : Option Char) (s : List Char) :
    p.subFrom replacement s.length prev s = [] := by
  induction s generalizing prev with
  | nil => rfl
  | cons c s ih => exact ih (some c)

/-- **What is left of a cut text is left of the whole text, but for the beginning of a scheme at its end.** -/
theorem subFrom_cut (x y : List Char) (skip : ℕ) (prev : Option Char) :
    ∃ u v, safeNonlocalUri.subFrom [] skip prev x = u ++ v ∧
      u <+: safeNonlocalUri.subFrom [] skip prev (x ++ y) ∧ SchemeStart v := by
  induction x generalizing skip prev with
  | nil => exact ⟨[], [], by simp [subFrom], List.nil_prefix, schemeStart_nil⟩
  | cons c x ih =>
    cases skip with
    | succ skip => exact ih skip (some c)
    | zero =>
      rw [List.cons_append]
      simp only [subFrom, List.nil_append]
      cases hcut : safeNonlocalUri.matchAt prev (c :: x) with
      | some rest =>
        have hguard : ¬ prev.any safeNonlocalUri.behind = true := by
          intro hguard
          simp [matchAt, hguard] at hcut
        have hbody : safeNonlocalUri.body (c :: x) = some rest := by simpa [matchAt, hguard] using hcut
        rcases safeNonlocalUri_extends (y := y) hbody with rfl | hfull
        · refine ⟨[], [], ?_, List.nil_prefix, schemeStart_nil⟩
          exact subFrom_all _ _ _ x
        · have hmatch : safeNonlocalUri.matchAt prev (c :: (x ++ y)) = some (rest ++ y) := by
            rw [matchAt, if_neg hguard]
            exact hfull
          have hlen : (x ++ y).length - (rest ++ y).length = x.length - rest.length := by
            simp only [List.length_append]
            omega
          simp only [hmatch, hlen]
          exact ih _ _
      | none =>
        cases hfull : safeNonlocalUri.matchAt prev (c :: (x ++ y)) with
        | none =>
          obtain ⟨u, v, hx, hu, hv⟩ := ih 0 (some c)
          exact ⟨c :: u, v, by rw [hx, List.cons_append], List.cons_prefix_cons.2 ⟨rfl, hu⟩, hv⟩
        | some rest =>
          -- the URI of the whole text is not there before the cut, which must be within its scheme
          have hguard : ¬ prev.any safeNonlocalUri.behind = true := by
            intro hguard
            simp [matchAt, hguard] at hfull
          have hbody : safeNonlocalUri.body (c :: x) = none := by simpa [matchAt, hguard] using hcut
          have hbody' : safeNonlocalUri.body (c :: x ++ y) = some rest := by
            simpa [matchAt, hguard] using hfull
          have hstart : SchemeStart (c :: x) := by
            rcases safeNonlocalUri_cut hbody' with h | h
            · rw [hbody] at h
              cases h
            · exact h
          exact ⟨[], c :: x, by rw [subFrom_scheme hstart.dropLast_plain]; rfl, List.nil_prefix, hstart⟩

/-! ## Rooted slashes -/

/-- A slash after `u` is no part of a relative path, nor of a word. -/
def Rooted (u : List Char) : Prop := ∀ c, u.getLast? = some c → posixRootedPath.behind c = false

theorem posixRootedPath_matchAt {prev : Option Char} {c : Char} {s : List Char} :
    (posixRootedPath.matchAt prev (c :: s)).isSome = true ↔
      prev.any posixRootedPath.behind = false ∧ c = '/' ∧ s.head?.any isSpace = false := by
  unfold matchAt
  by_cases hguard : prev.any posixRootedPath.behind = true
  · simp [hguard]
  · by_cases hc : c = '/'
    · by_cases hspace : s.head?.any isSpace = true
      · simp [hc, hspace, posixRootedPath, andThen, one, notNext]
      · simp only [Bool.not_eq_true] at hspace
        simp [hc, hspace, posixRootedPath, andThen, one, notNext]
    · simp [hc, posixRootedPath, andThen, one]

theorem posixRootedPath_search_from {s : List Char} (prev : Option Char) : posixRootedPath.search prev s = true ↔
    ∃ u v, s = u ++ '/' :: v ∧ (u.getLast?.or prev).any posixRootedPath.behind = false ∧
      v.head?.any isSpace = false := by
  induction s generalizing prev with
  | nil =>
    refine iff_of_false ?_ (by simp)
    simp [search, matchAt, show posixRootedPath.body [] = none from rfl]
  | cons c s ih =>
    have hlast : ∀ u : List Char, (c :: u).getLast?.or prev = u.getLast?.or (some c) := by
      intro u
      rw [List.getLast?_cons]
      cases u.getLast? <;> rfl
    simp only [search, Bool.or_eq_true, posixRootedPath_matchAt, ih]
    constructor
    · rintro (⟨hguard, rfl, hspace⟩ | ⟨u, v, rfl, hguard, hspace⟩)
      · exact ⟨[], s, rfl, hguard, hspace⟩
      · exact ⟨c :: u, v, rfl, by rw [hlast]; exact hguard, hspace⟩
    · rintro ⟨u, v, heq, hguard, hspace⟩
      cases u with
      | nil =>
        obtain ⟨rfl, rfl⟩ := List.cons.inj heq
        exact .inl ⟨hguard, rfl, hspace⟩
      | cons d u =>
        obtain ⟨rfl, rfl⟩ := List.cons.inj heq
        exact .inr ⟨u, v, rfl, by rw [← hlast]; exact hguard, hspace⟩

theorem posixRootedPath_search {s : List Char} : posixRootedPath.search none s = true ↔
    ∃ u v, s = u ++ '/' :: v ∧ Rooted u ∧ v.head?.any isSpace = false := by
  rw [posixRootedPath_search_from]
  refine exists_congr fun u => exists_congr fun v => and_congr_right fun _ => and_congr_left fun _ => ?_
  unfold Rooted
  cases u.getLast? <;> simp

/-- The text, without its nonlocal URIs, ends in a rooted slash, or in one and the beginning of a URI scheme. -/
def EndsInRootedSlash (s : List Char) : Prop :=
  ∃ u v, safeNonlocalUri.sub [] s = u ++ '/' :: v ∧ Rooted u ∧ SchemeStart v

/-- **A cut text is refused exactly if the cut is behind a rooted slash.** -/
theorem containsAbsoluteLocalPath_take {s : List Char} (hplain : '\\' ∉ s)
    (hsafe : containsAbsoluteLocalPath s = false) (n : ℕ) :
    containsAbsoluteLocalPath (s.take n) = true ↔ EndsInRootedSlash (s.take n) := by
  have hsplit := List.take_append_drop n s
  simp only [containsAbsoluteLocalPath, Bool.or_eq_false_iff] at hsafe
  obtain ⟨⟨⟨⟨hfile, hdatabase⟩, hdrive⟩, -⟩, hposix⟩ := hsafe
  -- what does not look past its match is in the text if it is in the cut text
  have hgrows : ∀ p : Pattern, Grows p.body → p.search none s = false → p.search none (s.take n) = false := by
    intro p hp hnone
    rw [Bool.eq_false_iff] at hnone ⊢
    intro hcut
    exact hnone (hsplit ▸ search_grows hp hcut (s.drop n))
  have honly : containsAbsoluteLocalPath (s.take n) =
      posixRootedPath.search none (safeNonlocalUri.sub [] (s.take n)) := by
    unfold containsAbsoluteLocalPath
    rw [hgrows _ fileUri_grows hfile, hgrows _ localDatabaseUri_grows hdatabase,
      hgrows _ windowsDrivePath_grows hdrive, windowsUncPath_search fun h => hplain (List.mem_of_mem_take h)]
    rfl
  rw [honly, posixRootedPath_search]
  obtain ⟨w, z, hcut, ⟨rest, hrest⟩, hstart⟩ := subFrom_cut (s.take n) (s.drop n) 0 none
  rw [hsplit] at hrest
  change safeNonlocalUri.sub [] (s.take n) = w ++ z at hcut
  constructor
  · rintro ⟨u, v, heq, hroot, hspace⟩
    refine ⟨u, v, heq, hroot, ?_⟩
    rw [hcut] at heq
    -- the slash is in the part that the whole text has as well
    rcases List.append_eq_append_iff.1 heq with ⟨t, hu, hz⟩ | ⟨t, hw, hv⟩
    · exact absurd (hz ▸ by simp) hstart.no_slash
    · cases t with
      | nil =>
        rw [List.nil_append] at hv
        exact absurd (hv ▸ List.mem_cons_self) hstart.no_slash
      | cons c t =>
        obtain ⟨rfl, rfl⟩ := List.cons.inj hv
        cases t with
        | nil => simpa using hstart
        | cons d t =>
          exfalso
          have hfull : posixRootedPath.search none (safeNonlocalUri.sub [] s) = true := by
            refine posixRootedPath_search.2 ⟨u, d :: t ++ rest, ?_, hroot, hspace⟩
            rw [Pattern.sub, ← hrest, hw]
            simp
          rw [hfull] at hposix
          cases hposix
  · rintro ⟨u, v, heq, hroot, hv⟩
    exact ⟨u, v, heq, hroot, hv.head_not_space⟩

/-! ## Evidence -/

variable {P : Platform}

/-- What the claim on a step's summary asks: the policy and the bound. -/
def SafeSummary (summary : List Char) : Prop :=
  containsAbsoluteLocalPath summary = false ∧ summary.length ≤ stepEvidenceSummaryLimit

/-- What is kept of the output of a step. -/
def CapturedOutput.kept (result : CapturedOutput) : List Char := result.sanitized.take stepEvidenceSummaryLimit

theorem make_accepted_iff (s : StepSummary) : (∃ s', s.make P = .ok s') ↔
    SafeSummary s.summary ∧ containsWorkerCredential P (String.ofList s.summary) = false := by
  simp only [StepSummary.make, validateNoAbsoluteLocalPath, except_bind_ok, ensure_ok, except_pure_ok,
    Bool.not_eq_true', decide_eq_true_eq, String.toList_ofList, SafeSummary]
  constructor
  · rintro ⟨_, _, ⟨_, hcredential, hpath⟩, _, hlen, -⟩
    exact ⟨⟨hpath, hlen⟩, hcredential⟩
  · rintro ⟨⟨hpath, hlen⟩, hcredential⟩
    exact ⟨s, (), ⟨(), hcredential, hpath⟩, (), hlen, rfl⟩

theorem safeSummary_iff (result : CapturedOutput) :
    SafeSummary (summaryOf result).summary ↔ ¬ EndsInRootedSlash result.kept := by
  have htake := containsAbsoluteLocalPath_take (sanitizeRemoteText_plain result.joined)
    (sanitizeRemoteText_safe result.joined) stepEvidenceSummaryLimit
  have hlen : (summaryOf result).summary.length ≤ stepEvidenceSummaryLimit := List.length_take_le _ _
  rw [SafeSummary, and_iff_left hlen, ← Bool.not_eq_true]
  exact not_congr htake

/-- Text without colons and backslashes has no URI and no drive. -/
theorem colon_free {s : List Char} (hcolon : ':' ∉ s) (hplain : '\\' ∉ s) :
    containsAbsoluteLocalPath s = posixRootedPath.search none s ∧
      (containsAbsoluteLocalPath s = false → sanitizeRemoteText s = s) ∧ safeNonlocalUri.sub [] s = s := by
  have hs : ∀ c ∈ s, (c == ':') = false := fun c hc => beq_eq_false_iff_ne.2 fun heq => hcolon (heq ▸ hc)
  have hword : ∀ {w : List Char}, ':' ∈ w → Needs (· == ':') (word w) := fun hw => needs_word hw fun c hc => by
    simpa [sameIgnoreCase] using hc
  have hslashes : Needs (· == ':') (word ":///".toList) := hword (by decide)
  have hsqlite : Needs (· == ':') localSqlite :=
    Needs.after (shrinks_word _) ((Needs.after (shrinks_word _) hslashes).orElse hslashes)
  have hdatabase : Needs (· == ':') localDatabaseUri.body :=
    Needs.after (shrinks_word _) <| Needs.orElse (Needs.after (shrinks_word _) <| Needs.after shrinks_one <|
      Needs.after shrinks_many hslashes) hslashes
  have hdrive : Needs (· == ':') windowsDrivePath.body := Needs.after shrinks_one (needs_one fun _ hc => hc).before
  have hscheme : Needs (· == ':') uriScheme := by
    intro t ht
    cases hr : uriScheme t with
    | none => rfl
    | some r =>
      obtain ⟨scheme, -, hr⟩ := uriScheme_some hr
      rw [hword (by simp) t ht] at hr
      cases hr
  have hnone : safeNonlocalUri.sub [] s = s := subFrom_of_needs hscheme.before _ _ hs
  have hexpression : localSqliteExpression.sub localDatabaseUriMarker s = s :=
    subFrom_of_needs hsqlite.before _ _ hs
  have huri : localSqliteUri.sub localDatabaseUriMarker s = s := subFrom_of_needs hsqlite.before _ _ hs
  refine ⟨?_, fun hsafe => ?_, hnone⟩
  · unfold containsAbsoluteLocalPath
    rw [search_of_needs (hword (by decide)) none hs, search_of_needs hdatabase none hs, search_of_needs hdrive none hs,
      windowsUncPath_search hplain, hnone]
    rfl
  · have hkept : (s.flatMap fun c => if c = '\\' then "[BACKSLASH]".toList else [c]) = s := by
      calc (s.flatMap fun c => if c = '\\' then "[BACKSLASH]".toList else [c]) = s.flatMap fun c => [c] := by
            refine List.flatMap_congr fun c hc => if_neg ?_
            rintro rfl
            exact hplain hc
        _ = s := by simp
    simp only [sanitizeRemoteText, hexpression, huri, hkept, hsafe, Bool.false_eq_true, if_false]

/-- Words, and a division between spaces. -/
def divisionText (n : ℕ) : List Char := List.replicate n 'a' ++ " / 2".toList

theorem divisionText_eq (n : ℕ) : divisionText n = (List.replicate n 'a' ++ [' ']) ++ '/' :: [' ', '2'] := by
  simp [divisionText]

theorem words_no_slash (n : ℕ) : '/' ∉ List.replicate n 'a' ++ [' '] := by
  intro hmem
  rcases List.mem_append.1 hmem with h | h
  · exact absurd (List.eq_of_mem_replicate h) (by decide)
  · exact absurd h (by decide)

theorem not_mem_divisionText {c : Char} (ha : c ≠ 'a') (hc : c ∉ " / 2".toList) (n : ℕ) : c ∉ divisionText n := by
  intro hmem
  rcases List.mem_append.1 hmem with h | h
  · exact ha (List.eq_of_mem_replicate h)
  · exact hc h

theorem divisionText_joined (n : ℕ) : (⟨divisionText n, [], false⟩ : CapturedOutput).joined = divisionText n := by
  have hne : (divisionText n).isEmpty = false := by
    rw [divisionText_eq]
    simp
  simp [CapturedOutput.joined, hne]

theorem words_rooted (n : ℕ) : Rooted (List.replicate n 'a' ++ [' ']) := by
  intro c hc
  rw [List.getLast?_concat] at hc
  obtain rfl := Option.some.inj hc
  decide

/-- Its only slash is before a space. -/
theorem divisionText_safe (n : ℕ) : containsAbsoluteLocalPath (divisionText n) = false := by
  have hplain := colon_free (not_mem_divisionText (c := ':') (by decide) (by decide) n)
    (not_mem_divisionText (c := '\\') (by decide) (by decide) n)
  rw [hplain.1, Bool.eq_false_iff]
  intro hsearch
  obtain ⟨u, v, heq, -, hspace⟩ := posixRootedPath_search.1 hsearch
  rw [divisionText_eq] at heq
  obtain ⟨-, -, rfl⟩ := (List.append_cons_inj_of_notMem (words_no_slash n) (by decide)).1 heq
  exact absurd hspace (by decide)

/-- An output whose division is cut in two. -/
def slashOutput : CapturedOutput := ⟨divisionText 4094, [], false⟩

theorem slashOutput_kept : slashOutput.kept = (List.replicate 4094 'a' ++ [' ']) ++ '/' :: [] := by
  have hplain := colon_free (not_mem_divisionText (c := ':') (by decide) (by decide) 4094)
    (not_mem_divisionText (c := '\\') (by decide) (by decide) 4094)
  have hlen : (List.replicate 4094 'a' ++ [' '] ++ ['/']).length = stepEvidenceSummaryLimit := by
    rw [List.length_append, List.length_append, List.length_replicate]
    rfl
  have hsplit : divisionText 4094 = (List.replicate 4094 'a' ++ [' '] ++ ['/']) ++ [' ', '2'] := by
    rw [divisionText_eq, List.append_assoc _ ['/']]
    rfl
  unfold CapturedOutput.kept CapturedOutput.sanitized
  rw [slashOutput, divisionText_joined, hplain.2.1 (divisionText_safe 4094), hsplit, List.take_append_of_le_length (le_of_eq hlen.symm),
    List.take_of_length_le (le_of_eq hlen)]

theorem slashOutput_ends : EndsInRootedSlash slashOutput.kept := by
  have hmem : ∀ c, c ≠ 'a' → c ∉ [' ', '/'] → c ∉ slashOutput.kept := by
    intro c ha hc hmem
    rw [slashOutput_kept, List.append_assoc] at hmem
    rcases List.mem_append.1 hmem with h | h
    · exact ha (List.eq_of_mem_replicate h)
    · exact hc h
  refine ⟨List.replicate 4094 'a' ++ [' '], [], ?_, words_rooted 4094, schemeStart_nil⟩
  rw [(colon_free (hmem ':' (by decide) (by decide)) (hmem '\\' (by decide) (by decide))).2.2, slashOutput_kept]

end Switchboard
