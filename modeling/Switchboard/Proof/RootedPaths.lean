import Switchboard.Proof.StepEvidence

/-!
# Rooted paths

The text policy looks for rooted paths in what is left of a text without its nonlocal URIs. A slash at the
beginning of a word goes unseen if the rest of the word is such a URI and white space follows: what is left is a
slash before white space, as in a division.

* `sub_head_space`: when the removal of the URIs leaves white space at the beginning.
* `containsAbsoluteLocalPath_slash`: a slash before a word adds a rooted path, unless the word is swallowed.
* `rootedPath_refused_iff`: when a text with a rooted path is refused.
-/

namespace Switchboard

open PyText Matcher Pattern

/-! ## What a URI leaves -/

/-- The text begins with a nonlocal URI that ends before white space. -/
def Swallowed (b : List Char) : Prop := ∃ q r, safeNonlocalUri.body b = some (q :: r) ∧ isSpace q = true

/-- The removal goes on behind the match. -/
theorem subFrom_skip (p : Pattern) (replacement u r : List Char) (prev : Option Char) :
    ∃ prev', p.subFrom replacement u.length prev (u ++ r) = p.subFrom replacement 0 prev' r := by
  induction u generalizing prev with
  | nil => exact ⟨prev, rfl⟩
  | cons c u ih => exact ih (some c)

theorem uriScheme_leaves : PyText.Leaves uriScheme := by
  intro s r h
  obtain ⟨scheme, -, h⟩ := uriScheme_some h
  obtain ⟨u, rfl, -⟩ := word_some h
  exact List.suffix_append u r

/-- A URI holds at least one character, and ends at a character that no URI holds. -/
theorem safeNonlocalUri_rest {c : Char} {b rest : List Char} (h : safeNonlocalUri.body (c :: b) = some rest) :
    rest <:+ b ∧ ∀ q, rest.head? = some q → uriChar q = false := by
  rw [safeNonlocalUri_body] at h
  obtain ⟨t, ht, hrest⟩ := Option.bind_eq_some_iff.1 h
  obtain ⟨t', ht', hrest⟩ := Option.bind_eq_some_iff.1 hrest
  obtain rfl : t'.dropWhile uriChar = rest := Option.some.inj hrest
  constructor
  · have hlen : (t'.dropWhile uriChar).length ≤ b.length := by
      have hscheme := (uriScheme_leaves _ _ ht).length_le
      have hdrop := (List.dropWhile_suffix (l := t') uriChar).length_le
      cases t with
      | nil => cases ht'
      | cons d t =>
        simp only [one] at ht'
        split at ht'
        · obtain rfl := Option.some.inj ht'
          simp only [List.length_cons] at hscheme
          omega
        · cases ht'
    have hsuffix : t'.dropWhile uriChar <:+ c :: b :=
      (List.dropWhile_suffix _).trans ((leaves_one _ _ ht').trans (uriScheme_leaves _ _ ht))
    exact List.suffix_of_suffix_length_le hsuffix (List.suffix_cons c b) hlen
  · intro q hq
    rw [Bool.eq_false_iff]
    intro huri
    have := List.head?_dropWhile_not uriChar t'
    rw [hq] at this
    simp [huri] at this

/-- **White space comes first without the URIs exactly if the word before it is a URI.** -/
theorem sub_head_space {c : Char} {b : List Char} (hc : isSpace c = false) :
    (safeNonlocalUri.sub [] (c :: b)).head?.any isSpace = true ↔ Swallowed (c :: b) := by
  have hmatch : safeNonlocalUri.matchAt none (c :: b) = safeNonlocalUri.body (c :: b) := rfl
  unfold Pattern.sub Swallowed
  simp only [subFrom, hmatch]
  cases hbody : safeNonlocalUri.body (c :: b) with
  | none => simp [hc]
  | some rest =>
    obtain ⟨⟨u, rfl⟩, hend⟩ := safeNonlocalUri_rest hbody
    have hlen : (u ++ rest).length - rest.length = u.length := by simp
    obtain ⟨prev, hskip⟩ := subFrom_skip safeNonlocalUri [] u rest (some c)
    simp only [List.nil_append, hlen, hskip]
    cases rest with
    | nil => simp [subFrom]
    | cons q r =>
      have hq := separator_of_not_uriChar (hend q rfl)
      simp only [subFrom, matchAt_start (safeNonlocalUri_separates hq)]
      simp

/-! ## A slash before a word -/

/-- A character before the text matters only to a match at its beginning. -/
theorem search_after {p : Pattern} {c : Char} {s : List Char} (h : p.behind c = false ∨ p.body s = none) :
    p.search (some c) s = p.search none s := by
  have hmatch : p.matchAt (some c) s = p.matchAt none s := by
    rcases h with h | h
    · simp [matchAt, h]
    · simp [matchAt, h]
  cases s <;> simp only [search, hmatch]

theorem search_slash {p : Pattern} {s : List Char} (hslash : p.body ('/' :: s) = none)
    (h : p.behind '/' = false ∨ p.body s = none) : p.search none ('/' :: s) = p.search none s := by
  rw [search, ← search_after h]
  simp [matchAt, hslash]

theorem sub_slash (b : List Char) : safeNonlocalUri.sub [] ('/' :: b) = '/' :: safeNonlocalUri.sub [] b := by
  have hnone : safeNonlocalUri.matchAt none ('/' :: b) = none := rfl
  have hguard : safeNonlocalUri.matchAt (some '/') = safeNonlocalUri.matchAt none := by
    funext s
    rfl
  unfold Pattern.sub
  simp only [subFrom, hnone]
  cases b <;> simp only [subFrom, hguard]

/-- A swallowed word begins with the letters of a scheme, and with neither a drive nor a backslash. -/
theorem Swallowed.no_windows {b : List Char} (h : Swallowed b) :
    windowsDrivePath.body b = none ∧ windowsUncPath.body b = none := by
  obtain ⟨q, r, hbody, -⟩ := h
  rw [safeNonlocalUri_body] at hbody
  obtain ⟨t, ht, -⟩ := Option.bind_eq_some_iff.1 hbody
  obtain ⟨scheme, hmem, hword⟩ := uriScheme_some ht
  obtain ⟨u, rfl, hall⟩ := word_some hword
  have htwo : ∀ scheme ∈ safeSchemes, 2 ≤ scheme.toList.length := by decide
  have hplain := schemes_plain scheme hmem
  have hletters := scheme_letters scheme hmem
  have hlen := htwo scheme hmem
  rw [String.toList_append] at hall
  generalize scheme.toList = letters at hall hplain hletters hlen
  match letters, hlen with
  | p :: p' :: letters, _ =>
    rw [List.cons_append, List.cons_append] at hall
    obtain ⟨c, u, hc, hall', rfl⟩ := List.forall₂_cons_left_iff.1 hall
    obtain ⟨c', u, hc', -, rfl⟩ := List.forall₂_cons_left_iff.1 hall'
    have hcolon : (c' == ':') = false := by
      rw [beq_eq_false_iff_ne]
      rintro rfl
      rw [hplain p' (by simp)] at hc'
      cases hc'
    have hbackslash : (c == '\\') = false := by
      rw [beq_eq_false_iff_ne]
      rintro rfl
      have := schemeChar_of_same (hletters p (by simp)) hc
      exact absurd this (by decide)
    constructor
    · cases hletter : isLetterIgnoreCase c <;> simp [windowsDrivePath, andThen, one, hletter, hcolon]
    · simp [windowsUncPath, andThen, one, hbackslash]

/-- **A slash before a word is the root of a path, unless the word is swallowed**; then it adds nothing. -/
theorem containsAbsoluteLocalPath_slash {c : Char} {b : List Char} (hc : isSpace c = false) :
    containsAbsoluteLocalPath ('/' :: c :: b) = true ↔
      ¬ Swallowed (c :: b) ∨ containsAbsoluteLocalPath (c :: b) = true := by
  by_cases hswallowed : Swallowed (c :: b)
  · obtain ⟨hdrive, hunc⟩ := hswallowed.no_windows
    have hposix : posixRootedPath.search none ('/' :: safeNonlocalUri.sub [] (c :: b)) =
        posixRootedPath.search none (safeNonlocalUri.sub [] (c :: b)) := by
      have hhead := (sub_head_space hc).2 hswallowed
      obtain ⟨q, hq, hspace⟩ := (Option.any_eq_true _ _).1 hhead
      obtain ⟨s, hs⟩ : ∃ s, safeNonlocalUri.sub [] (c :: b) = q :: s := by
        cases hsub : safeNonlocalUri.sub [] (c :: b) with
        | nil => rw [hsub] at hq; cases hq
        | cons d s => rw [hsub] at hq; exact ⟨s, by rw [Option.some.inj hq]⟩
      have hnone := (posixRootedPath_separates (space_separator hspace)).start s
      rw [hs]
      refine search_slash ?_ (.inr hnone)
      simp [posixRootedPath, andThen, one, notNext, hspace]
    have hsame : containsAbsoluteLocalPath ('/' :: c :: b) = containsAbsoluteLocalPath (c :: b) := by
      unfold containsAbsoluteLocalPath
      rw [sub_slash, hposix, search_slash (p := fileUri) rfl (.inl rfl),
        search_slash (p := localDatabaseUri) rfl (.inl rfl), search_slash (p := windowsDrivePath) rfl (.inr hdrive),
        search_slash (p := windowsUncPath) rfl (.inr hunc)]
    rw [hsame]
    simp [hswallowed]
  · have hposix : posixRootedPath.search none (safeNonlocalUri.sub [] ('/' :: c :: b)) = true := by
      refine posixRootedPath_search.2 ⟨[], _, sub_slash _, by simp [Rooted], ?_⟩
      rw [Bool.eq_false_iff]
      exact fun hspace => hswallowed ((sub_head_space hc).1 hspace)
    simp [hswallowed, containsAbsoluteLocalPath, hposix]

/-! ## Rooted paths in a text -/

/-- A slash at the beginning of the text or behind white space, with something else than white space behind it. -/
structure RootedAt (t : List Char) (i : ℕ) : Prop where
  slash : t[i]? = some '/'
  before : i = 0 ∨ ∃ c, t[i - 1]? = some c ∧ isSpace c = true
  behind : ∃ c, t[i + 1]? = some c ∧ isSpace c = false

/-- **A text with a rooted path is refused**, unless the path is a slash and a nonlocal URI up to white space, and
neither what is before the slash nor what is behind it is refused on its own. -/
theorem rootedPath_refused_iff {t : List Char} {i : ℕ} (h : RootedAt t i) :
    containsAbsoluteLocalPath t = true ↔ ¬ Swallowed (t.drop (i + 1)) ∨
      containsAbsoluteLocalPath (t.take i) = true ∨ containsAbsoluteLocalPath (t.drop (i + 1)) = true := by
  obtain ⟨hi, hslash⟩ := List.getElem?_eq_some_iff.1 h.slash
  obtain ⟨c, hc, hspace⟩ := h.behind
  obtain ⟨hi', hc⟩ := List.getElem?_eq_some_iff.1 hc
  have hsplit : t = t.take i ++ '/' :: t.drop (i + 1) := by
    rw [← hslash, ← List.drop_eq_getElem_cons hi, List.take_append_drop]
  have hbehind : t.drop (i + 1) = c :: t.drop (i + 2) := by
    rw [List.drop_eq_getElem_cons hi', hc]
  have hword := containsAbsoluteLocalPath_slash (b := t.drop (i + 2)) hspace
  rw [← hbehind] at hword
  have happart : containsAbsoluteLocalPath t =
      (containsAbsoluteLocalPath (t.take i) || containsAbsoluteLocalPath ('/' :: t.drop (i + 1))) := by
    conv_lhs => rw [hsplit]
    rcases h.before with rfl | ⟨q, hq, hqspace⟩
    · have hnil : containsAbsoluteLocalPath [] = false := by decide +kernel
      simp [hnil]
    · obtain ⟨hq', hq⟩ := List.getElem?_eq_some_iff.1 hq
      cases i with
      | zero =>
        have hslash' : ('/' : Char) = q := hslash.symm.trans hq
        rw [← hslash'] at hqspace
        exact absurd hqspace (by decide)
      | succ i =>
        have htake : t.take (i + 1) = t.take i ++ [q] := by
          rw [List.take_succ_eq_append_getElem (by omega)]
          exact congrArg (fun c => t.take i ++ [c]) hq
        rw [htake, List.append_assoc, List.singleton_append]
        exact containsAbsoluteLocalPath_split (space_separator hqspace) _ _
  rw [happart, Bool.or_eq_true, hword]
  tauto

theorem rootedPath_refused : RootedAt "kept at /tmp/x".toList 8 ∧
    containsAbsoluteLocalPath "kept at /tmp/x".toList = true := by
  have hrooted : RootedAt "kept at /tmp/x".toList 8 :=
    ⟨by decide, .inr ⟨' ', by decide, by decide⟩, 't', by decide, by decide⟩
  have hnone : safeNonlocalUri.body ("kept at /tmp/x".toList.drop 9) = none := by decide +kernel
  refine ⟨hrooted, (rootedPath_refused_iff hrooted).2 (.inl ?_)⟩
  rintro ⟨q, r, hbody, -⟩
  rw [hnone] at hbody
  cases hbody

/-- The rooted path is a slash and a URI. -/
theorem rootedUri_accepted : RootedAt "kept at /git:secret now".toList 8 ∧
    containsAbsoluteLocalPath "kept at /git:secret now".toList = false :=
  ⟨⟨by decide, .inr ⟨' ', by decide, by decide⟩, 'g', by decide, by decide⟩, by decide +kernel⟩

end Switchboard
