import Switchboard.Proof.Admission
import Switchboard.Proof.StepEvidence
import Switchboard.Spec.RelativePath

/-!
# Relative paths

The two validators accept the same paths but for two kinds: the dot alone, and paths with a segment that is the
name of a device. What both accept is a strict descendant of every root. Not all of it may be published: a slash
behind another character than a letter, a digit or a dot counts as the root of an absolute path.

* `validateProfilePath_ok`, `validateRelativePath_ok`: what the validators accept.
* `validators_agree_iff`: when they agree on descendants.
* `relativePath_publishable_iff`: when an accepted path is publishable.
-/

namespace Switchboard

open PyText Pattern Transaction

variable {P : Platform} {text : List Char}

/-! ## Segments -/

def segments (text : List Char) : Location := text.splitOn '/'

/-- A segment that is not empty and no dot segment. -/
structure Named (part : List Char) : Prop where
  nonempty : part ≠ []
  noDot : part ≠ ['.']
  noParent : part ≠ ['.', '.']

theorem not_mem_of_mem_splitOn {c : Char} : ∀ part ∈ text.splitOn c, c ∉ part := by
  induction text with
  | nil => simp
  | cons d text ih =>
    rw [List.splitOn_cons_eq_if_modifyHead]
    intro part hpart
    split at hpart
    · rcases List.mem_cons.1 hpart with rfl | hpart
      · simp
      · exact ih part hpart
    · rename_i hne
      obtain ⟨first, rest, hsplit⟩ := List.exists_cons_of_ne_nil (List.splitOn_ne_nil c text)
      rw [hsplit] at hpart ih
      rcases List.mem_cons.1 hpart with rfl | hpart
      · have hfirst := ih first List.mem_cons_self
        have hd : c ≠ d := by
          rintro rfl
          simp at hne
        simp [hd, hfirst]
      · exact ih part (List.mem_cons_of_mem _ hpart)

theorem posixParts_of_named (h : ∀ part ∈ segments text, Named part) : posixParts text = segments text := by
  refine List.filter_eq_self.2 fun part hpart => ?_
  simp [(h part hpart).nonempty, (h part hpart).noDot]

/-- A text is normalised if it is the dot, or if its parts are its segments. -/
theorem asPosix_eq_self : asPosix text = text ↔ text = ['.'] ∨ posixParts text = segments text := by
  constructor
  · intro h
    cases hparts : posixParts text with
    | nil =>
      left
      rw [← h, asPosix, hparts]
    | cons part parts =>
      right
      have hplain : ∀ p ∈ part :: parts, '/' ∉ p := by
        intro p hp
        rw [← hparts] at hp
        exact not_mem_of_mem_splitOn p (List.mem_of_mem_filter hp)
      have htext : ['/'].intercalate (part :: parts) = text := by
        rw [← h, asPosix, hparts]
      rw [← List.splitOn_intercalate '/' hplain (by simp), htext]
      rfl
  · rintro (rfl | h)
    · rfl
    · have hne : posixParts text ≠ [] := h ▸ List.splitOn_ne_nil _ _
      have hjoin : ['/'].intercalate (posixParts text) = text := by
        rw [h]
        exact List.intercalate_splitOn '/'
      obtain ⟨part, parts, hparts⟩ := List.exists_cons_of_ne_nil hne
      rw [hparts] at hjoin
      rw [asPosix, hparts]
      exact hjoin

/-- A bounded relative path of named segments. -/
structure PlainPath (text : List Char) : Prop where
  bounded : text.length ≤ 512
  noNul : '\x00' ∉ text
  noBackslash : '\\' ∉ text
  noColon : ':' ∉ text
  named : ∀ part ∈ segments text, Named part

theorem PlainPath.nonempty (h : PlainPath text) : text ≠ [] := by
  rintro rfl
  exact (h.named [] (by simp [segments])).nonempty rfl

/-- No two slashes are next to each other, and none is at the beginning. -/
theorem PlainPath.before_slash (h : PlainPath text) {u v : List Char} (htext : text = u ++ '/' :: v) :
    ∃ c, u.getLast? = some c ∧ c ≠ '/' := by
  have hsplit : segments text = u.splitOn '/' ++ v.splitOn '/' := by
    rw [htext]
    exact List.splitOn_append_cons_self u v
  have hempty : ([] : List Char) ∉ u.splitOn '/' := by
    intro hmem
    exact (h.named [] (hsplit ▸ List.mem_append_left _ hmem)).nonempty rfl
  rcases List.eq_nil_or_concat u with rfl | ⟨w, c, rfl⟩
  · simp at hempty
  · refine ⟨c, by simp, ?_⟩
    rintro rfl
    refine hempty ?_
    rw [List.concat_eq_append, List.splitOn_append_cons_self]
    simp

theorem PlainPath.relative (h : PlainPath text) : text.head? ≠ some '/' := by
  intro hhead
  obtain ⟨v, rfl⟩ : ∃ v, text = '/' :: v := by
    cases text with
    | nil => cases hhead
    | cons c v => exact ⟨v, by rw [Option.some.inj hhead]⟩
  obtain ⟨c, hc, -⟩ := h.before_slash (u := []) rfl
  cases hc

/-! ## The validators -/

theorem named_iff {part : List Char} :
    (part != [] && part != ['.'] && part != ['.', '.']) = true ↔ Named part := by
  simp only [Bool.and_eq_true, bne_iff_ne]
  exact ⟨fun ⟨⟨hne, hdot⟩, hparent⟩ => ⟨hne, hdot, hparent⟩, fun h => ⟨⟨h.nonempty, h.noDot⟩, h.noParent⟩⟩

theorem validateProfilePath_ok {kind value : String} :
    validateProfilePath kind value = .ok () ↔ PlainPath value.toList := by
  simp only [validateProfilePath, except_bind_ok, ensure_ok, decide_eq_true_eq, List.all_eq_true, named_iff]
  constructor
  · rintro ⟨_, ⟨-, hlen, hbackslash, hnul, -, hcolon⟩, hnamed⟩
    exact ⟨hlen, hnul, hbackslash, hcolon, hnamed⟩
  · intro h
    exact ⟨(), ⟨h.nonempty, h.bounded, h.noBackslash, h.noNul, h.relative, h.noColon⟩, h.named⟩

/-- No segment is the name of a device. -/
def NoDevice (P : Platform) (text : List Char) : Prop := ∀ part ∈ segments text, namesDevice P part = false

theorem validateRelativePath_ok {value : String} : validateRelativePath P value = .ok () ↔
    value.toList = ['.'] ∨ PlainPath value.toList ∧ NoDevice P value.toList := by
  simp only [validateRelativePath, except_bind_ok, ensure_ok, decide_eq_true_eq, List.all_eq_true, named_iff,
    Bool.not_eq_true', asPosix_eq_self]
  constructor
  · rintro ⟨_, ⟨-, hlen, hnul, hbackslash⟩, _, ⟨hcolon, -⟩, _, hdot | hparts, _, hnamed, hdevice⟩
    · exact .inl hdot
    · rw [hparts] at hnamed hdevice
      exact .inr ⟨⟨hlen, hnul, hbackslash, hcolon, hnamed⟩, hdevice⟩
  · rintro (hdot | ⟨h, hdevice⟩)
    · have hparts : posixParts ['.'] = [] := by decide
      rw [hdot, hparts]
      exact ⟨(), by decide, (), by decide, (), .inl rfl, (), by simp, by simp⟩
    · have hparts := posixParts_of_named h.named
      refine ⟨(), ⟨h.nonempty, h.bounded, h.noNul, h.noBackslash⟩, (), ⟨h.noColon, h.relative⟩, (), .inr hparts, (), ?_⟩
      rw [hparts]
      exact ⟨h.named, hdevice⟩

/-! ## Descendants -/

theorem resolveParts_named {root parts : Location} (h : ∀ part ∈ parts, Named part) :
    resolveParts root parts = root ++ parts := by
  induction parts generalizing root with
  | nil => simp [resolveParts]
  | cons part parts ih =>
    have hpart := (h part List.mem_cons_self).noParent
    have hrest : resolveParts (root ++ [part]) parts = root ++ [part] ++ parts :=
      ih fun p hp => h p (List.mem_cons_of_mem _ hp)
    simp only [resolveParts, List.foldl_cons, if_neg hpart] at hrest ⊢
    rw [hrest, List.append_assoc, List.singleton_append]

/-- What is promised of an accepted path: named segments, and a location strictly below every root. -/
structure StrictDescendant (P : Platform) (value : String) : Prop where
  segments_ne : segments value.toList ≠ []
  named : ∀ part ∈ segments value.toList, Named part
  below : ∀ root, ∃ parts, parts ≠ [] ∧ safePath P root value = .ok (root ++ parts)

theorem strictDescendant_of_plain {value : String} (h : PlainPath value.toList) (hdevice : NoDevice P value.toList) :
    StrictDescendant P value := by
  refine ⟨List.splitOn_ne_nil _ _, h.named, fun root => ⟨segments value.toList, List.splitOn_ne_nil _ _, ?_⟩⟩
  have hpath : resolveParts root (posixParts value.toList) = root ++ segments value.toList := by
    rw [posixParts_of_named h.named, resolveParts_named h.named]
  simp only [safePath, hpath, except_bind_ok, ensure_ok, except_pure_ok]
  exact ⟨(), validateRelativePath_ok.2 (.inr ⟨h, hdevice⟩), (), by simp, trivial⟩

/-- Both validators accept the path or none does, and an accepted one is a strict descendant. -/
def ValidatorsAgree (P : Platform) (kind value : String) : Prop :=
  (validateRelativePath P value = .ok () ↔ validateProfilePath kind value = .ok ()) ∧
    (validateRelativePath P value = .ok () ∨ validateProfilePath kind value = .ok () → StrictDescendant P value)

/-- **The validators agree on strict descendants**, unless the path is the dot alone, or it is a plain path with a
segment that is the name of a device. -/
theorem validators_agree_iff (kind value : String) : ValidatorsAgree P kind value ↔
    value ≠ "." ∧ ¬ (PlainPath value.toList ∧ ∃ part ∈ segments value.toList, namesDevice P part = true) := by
  unfold ValidatorsAgree
  rw [validateRelativePath_ok, validateProfilePath_ok]
  constructor
  · rintro ⟨hagree, hbelow⟩
    refine ⟨?_, ?_⟩
    · rintro rfl
      exact ((hbelow (.inl (.inl rfl))).named ['.'] (by decide)).noDot rfl
    · rintro ⟨hplain, part, hpart, hdevice⟩
      rcases hagree.2 hplain with hdot | ⟨-, hnone⟩
      · exact (hplain.named ['.'] (by rw [hdot]; decide)).noDot rfl
      · rw [hnone part hpart] at hdevice
        cases hdevice
  · rintro ⟨hne, hdevice⟩
    have hdot : value.toList ≠ ['.'] := fun h => hne (String.toList_inj.1 h)
    have hnone : PlainPath value.toList → NoDevice P value.toList := by
      intro hplain part hpart
      rw [Bool.eq_false_iff]
      exact fun hnames => hdevice ⟨hplain, part, hpart, hnames⟩
    refine ⟨⟨?_, fun hplain => .inr ⟨hplain, hnone hplain⟩⟩, ?_⟩
    · rintro (h | ⟨hplain, -⟩)
      · exact absurd h hdot
      · exact hplain
    · rintro ((h | ⟨hplain, hdev⟩) | hplain)
      · exact absurd h hdot
      · exact strictDescendant_of_plain hplain hdev
      · exact strictDescendant_of_plain hplain (hnone hplain)

/-- The dot is evidence and no profile path; the name of a device is a profile path and no evidence. -/
theorem validators_disagree : ¬ ValidatorsAgree asciiPlatform "artifact path" "." ∧
    ¬ ValidatorsAgree asciiPlatform "artifact path" "logs/con" := by
  have hdot : validateRelativePath asciiPlatform "." = .ok () := by decide +kernel
  have hdot' : ¬ validateProfilePath "artifact path" "." = .ok () := by decide +kernel
  have hdevice : validateProfilePath "artifact path" "logs/con" = .ok () := by decide +kernel
  have hdevice' : ¬ validateRelativePath asciiPlatform "logs/con" = .ok () := by decide +kernel
  exact ⟨fun h => hdot' (h.1.1 hdot), fun h => hdevice' (h.1.2 hdevice)⟩

/-! ## Publishable paths -/

theorem payload_texts {r : ArtifactFields} {p q text : String}
    (h : text ∈ textsOf { r with relativePath := p }.payload) :
    text = p ∨ text ∈ textsOf { r with relativePath := q }.payload := by
  simp only [ArtifactFields.payload, textsOf, textsOfFields, List.mem_cons, List.mem_append] at h ⊢
  tauto

/-- Another path in an artifact record that is accepted. -/
theorem artifact_make_path {r : ArtifactFields} {p q : String} {a : ArtifactRecord}
    (hq : { r with relativePath := q }.make P = .ok a) (hpolicy : validateNoAbsoluteLocalPath P p = .ok ())
    (hp : validateRelativePath P p = .ok ()) : ∃ a, { r with relativePath := p }.make P = .ok a := by
  simp only [ArtifactFields.make, except_bind_ok, except_pure_ok, validateNoAbsoluteLocalPaths, except_forM_ok] at hq ⊢
  obtain ⟨_, htexts, _, hkind, _, hkind', _, -, hrest⟩ := hq
  obtain ⟨_, hsize, _, hsha, _, hmedia, _, hmedia', _, hexpiry, _, hstep, -⟩ := hrest
  have htexts' : ∀ text ∈ textsOf { r with relativePath := p }.payload, validateNoAbsoluteLocalPath P text = .ok () := by
    intro text htext
    rcases payload_texts htext with rfl | hmem
    · exact hpolicy
    · exact htexts text hmem
  exact ⟨_, (), htexts', (), hkind, (), hkind', (), hp, (), hsize, (), hsha, (), hmedia, (), hmedia', (), hexpiry, (),
    hstep, rfl⟩

theorem lock_make_path {p q sha256 : String} {a : DependencyLockHash} (hq : DependencyLockHash.make P q sha256 = .ok a)
    (hpolicy : validateNoAbsoluteLocalPath P p = .ok ()) (hp : validateRelativePath P p = .ok ()) :
    ∃ a, DependencyLockHash.make P p sha256 = .ok a := by
  simp only [DependencyLockHash.make, except_bind_ok, except_pure_ok, validateNoAbsoluteLocalPaths, except_forM_ok,
    textsOf, textsOfFields, List.mem_cons, List.mem_append] at hq ⊢
  obtain ⟨_, htexts, _, -, _, hsha, -⟩ := hq
  refine ⟨⟨p, sha256⟩, (), fun text htext => ?_, (), hp, (), hsha, rfl⟩
  by_cases heq : text = p
  · rw [heq]
    exact hpolicy
  · exact htexts text (by tauto)

/-- The path passes the text policy, and a record or a lock that is valid with another path is so with this one. -/
structure Publishable (P : Platform) (value : String) : Prop where
  noPath : containsAbsoluteLocalPath value.toList = false
  artifact : ∀ r : ArtifactFields, (∃ path a, { r with relativePath := path }.make P = .ok a) →
    ∃ a, { r with relativePath := value }.make P = .ok a
  lock : ∀ sha256, (∃ path a, DependencyLockHash.make P path sha256 = .ok a) →
    ∃ a, DependencyLockHash.make P value sha256 = .ok a

/-- Every slash is behind an ASCII letter, a digit or a dot, or it is before white space. -/
def SlashesBehindWords (text : List Char) : Prop :=
  ∀ u v, text = u ++ '/' :: v →
    (∃ c, u.getLast? = some c ∧ (isAsciiAlnum c = true ∨ c = '.')) ∨ ∃ c, v.head? = some c ∧ isSpace c = true

theorem PlainPath.noPath_iff (h : PlainPath text) :
    containsAbsoluteLocalPath text = false ↔ SlashesBehindWords text := by
  rw [(colon_free h.noColon h.noBackslash).1, ← Bool.not_eq_true, posixRootedPath_search]
  constructor
  · intro hnone u v htext
    obtain ⟨c, hc, hslash⟩ := h.before_slash htext
    by_contra hword
    refine hnone ⟨u, v, htext, fun d hd => ?_, ?_⟩
    · obtain rfl : c = d := Option.some.inj (hc.symm.trans hd)
      rw [Bool.eq_false_iff]
      intro hbehind
      simp only [posixRootedPath, Bool.or_eq_true, beq_iff_eq] at hbehind
      refine hword (.inl ⟨c, hc, ?_⟩)
      tauto
    · rw [Bool.eq_false_iff]
      intro hspace
      exact hword (.inr ((Option.any_eq_true _ _).1 hspace))
  · rintro hwords ⟨u, v, htext, hroot, hspace⟩
    rcases hwords u v htext with ⟨c, hc, hword⟩ | ⟨c, hc, hc'⟩
    · have := hroot c hc
      simp only [posixRootedPath, Bool.or_eq_false_iff, beq_eq_false_iff_ne] at this
      rcases hword with hword | rfl
      · rw [this.1.1] at hword
        cases hword
      · exact this.2 rfl
    · rw [hc, Option.any_some, hc'] at hspace
      cases hspace

/-- **An accepted path is publishable exactly if its slashes are behind words.** -/
theorem relativePath_publishable_iff {value : String} (haccept : validateRelativePath P value = .ok ())
    (hcredential : containsWorkerCredential P value = false) :
    Publishable P value ↔ SlashesBehindWords value.toList := by
  have hiff : containsAbsoluteLocalPath value.toList = false ↔ SlashesBehindWords value.toList := by
    rcases validateRelativePath_ok.1 haccept with hdot | ⟨hplain, -⟩
    · rw [hdot]
      refine iff_of_true (by decide +kernel) fun u v h => ?_
      cases u with
      | nil => simp at h
      | cons c u => simp at h
    · exact hplain.noPath_iff
  rw [← hiff]
  refine ⟨Publishable.noPath, fun hsafe => ⟨hsafe, ?_, ?_⟩⟩
  · rintro r ⟨path, a, ha⟩
    exact artifact_make_path ha (by simp [validateNoAbsoluteLocalPath, hcredential, hsafe]) haccept
  · rintro sha256 ⟨path, a, ha⟩
    exact lock_make_path ha (by simp [validateNoAbsoluteLocalPath, hcredential, hsafe]) haccept

theorem report_publishable : validateRelativePath asciiPlatform "logs/report.txt" = .ok () ∧
    containsWorkerCredential asciiPlatform "logs/report.txt" = false ∧
      Publishable asciiPlatform "logs/report.txt" := by
  have haccept : validateRelativePath asciiPlatform "logs/report.txt" = .ok () := by decide +kernel
  have hcredential : containsWorkerCredential asciiPlatform "logs/report.txt" = false := by decide +kernel
  have hplain : PlainPath "logs/report.txt".toList := (@validateProfilePath_ok "path" _).1 (by decide +kernel)
  have hwords : SlashesBehindWords "logs/report.txt".toList := hplain.noPath_iff.1 (by decide +kernel)
  exact ⟨haccept, hcredential, (relativePath_publishable_iff haccept hcredential).2 hwords⟩

/-- A segment that ends in an underscore before a slash. -/
theorem underscore_refused : validateRelativePath asciiPlatform "logs_/x" = .ok () ∧
    containsWorkerCredential asciiPlatform "logs_/x" = false ∧ ¬ Publishable asciiPlatform "logs_/x" := by
  have hpath : containsAbsoluteLocalPath "logs_/x".toList = true := by decide +kernel
  refine ⟨by decide +kernel, by decide +kernel, fun h => ?_⟩
  rw [h.noPath] at hpath
  cases hpath

end Switchboard
