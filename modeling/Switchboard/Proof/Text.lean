import Switchboard.Spec.Text

/-!
# Which summaries the text policy refuses

* `containsAbsoluteLocalPath_split`: the policy looks at the parts between quotes one by
  one.
* `containsAbsoluteLocalPath_dumps`: a document is refused for one of its strings.
* `serializeSummary_safe_iff`: a summary is refused for a key, or for a string that turns
  into a path when JSON escapes it.
-/

namespace Switchboard

open PyText Matcher Pattern

/-! ## Quotes and white space -/

/-- A character in no class of the patterns and in none of their words. -/
structure Separator (q : Char) : Prop where
  noLetter : isLetterIgnoreCase q = false
  noDigit : isAsciiDigit q = false
  noMark : q ∉ ['+', '-', '.', '/', ':', '\\', '_']
  noUri : uriChar q = false

/-- What no URI holds is in no other class either. -/
theorem separator_of_not_uriChar {q : Char} (h : uriChar q = false) : Separator q := by
  have hnat : isSpace q = true ∨ q.toNat ∈ [34, 39, 60, 62] := by
    by_contra hno
    rw [not_or] at hno
    simp [uriChar, hno.1, hno.2] at h
  simp only [isSpace, Bool.or_eq_true, Bool.and_eq_true, decide_eq_true_eq, beq_iff_eq, List.mem_cons,
    List.not_mem_nil, or_false] at hnat
  refine ⟨?_, ?_, ?_, h⟩
  · rw [Bool.eq_false_iff]
    simp only [isLetterIgnoreCase, isAsciiLetter, ne_eq, Bool.or_eq_true, between_iff, Char.reduceToNat,
      decide_eq_true_eq, List.mem_cons, List.not_mem_nil, or_false]
    omega
  · rw [Bool.eq_false_iff]
    simp only [isAsciiDigit, ne_eq, between_iff, Char.reduceToNat]
    omega
  · intro hmem
    have hmark : ∀ c ∈ ['+', '-', '.', '/', ':', '\\', '_'], uriChar c = true := by decide
    rw [hmark q hmem] at h
    cases h

theorem quote_separator : Separator quote := separator_of_not_uriChar (by decide)

theorem space_separator {q : Char} (h : isSpace q = true) : Separator q :=
  separator_of_not_uriChar (by simp [uriChar, h])

/-- The characters of the words of the patterns. -/
def wordChar (p : Char) : Bool := ('a' ≤ p && p ≤ 'z') || p ∈ [':', '/', '+']

section separator

variable {q : Char} (hq : Separator q)

include hq

theorem Separator.ne {c : Char} (hc : c ∈ ['+', '-', '.', '/', ':', '\\', '_']) : q ≠ c := by
  rintro rfl
  exact hq.noMark hc

theorem Separator.schemeChar : schemeChar q = false := by
  simp [Switchboard.schemeChar, hq.noLetter, hq.noDigit, hq.ne (c := '+') (by decide), hq.ne (c := '.') (by decide),
    hq.ne (c := '-') (by decide)]

theorem Separator.driverChar : driverChar q = false := by
  simp [Switchboard.driverChar, hq.noLetter, hq.noDigit, hq.ne (c := '_') (by decide), hq.ne (c := '.') (by decide),
    hq.ne (c := '-') (by decide)]

theorem Separator.isAsciiAlnum : isAsciiAlnum q = false := by
  have hletter := hq.noLetter
  rw [isLetterIgnoreCase, Bool.or_eq_false_iff] at hletter
  rw [PyText.isAsciiAlnum, hletter.1, hq.noDigit]
  rfl

theorem Separator.sameIgnoreCase {p : Char} (hp : wordChar p = true) : sameIgnoreCase p q = false := by
  have hletter := Bool.eq_false_iff.1 hq.noLetter
  have hslash := hq.ne (c := '/') (by decide)
  have hcolon := hq.ne (c := ':') (by decide)
  have hplus := hq.ne (c := '+') (by decide)
  simp only [isLetterIgnoreCase, isAsciiLetter, ne_eq, Bool.or_eq_true, between_iff, Char.reduceToNat,
    decide_eq_true_eq, List.mem_cons, List.not_mem_nil, or_false] at hletter
  simp only [wordChar, Bool.or_eq_true, between_iff, Char.reduceToNat, decide_eq_true_eq, List.mem_cons,
    List.not_mem_nil, or_false] at hp
  rw [Bool.eq_false_iff]
  intro hsame
  simp only [PyText.sameIgnoreCase, Bool.or_eq_true, Bool.and_eq_true, beq_iff_eq, decide_eq_true_eq, List.mem_cons,
    List.not_mem_nil, or_false] at hsame
  rcases hsame with ((rfl | ⟨⟨hlow, hhigh⟩, hupper⟩) | ⟨-, hdotted⟩) | ⟨-, hlong⟩
  · rcases hp with hp | rfl | rfl | rfl
    · omega
    · exact hcolon rfl
    · exact hslash rfl
    · exact hplus rfl
  · have hrange := between_iff.1 (Bool.and_eq_true_iff.2 ⟨decide_eq_true hlow, decide_eq_true hhigh⟩)
    simp only [Char.reduceToNat] at hrange
    omega
  · omega
  · omega

theorem Separator.stops_word {w : List Char} (hw : ∀ p ∈ w, wordChar p = true) : Stops q (word w) :=
  PyText.stops_word fun p hp => hq.sameIgnoreCase (hw p hp)

theorem Separator.stops_mark {c : Char} (hc : c ∈ ['+', '-', '.', '/', ':', '\\', '_']) :
    Stops q (one (· == c)) :=
  stops_one (beq_eq_false_iff_ne.2 (hq.ne hc))

theorem Separator.word_none {p : Char} {w : List Char} (hp : wordChar p = true) (y : List Char) :
    word (p :: w) (q :: y) = none := by
  simp [word, andThen, one, hq.sameIgnoreCase hp]

theorem fileUri_separates : Separates q fileUri where
  behind := hq.schemeChar
  stops := hq.stops_word (by decide)
  start := hq.word_none (by decide)
  nil := rfl

theorem localDatabaseUri_separates : Separates q localDatabaseUri where
  behind := hq.schemeChar
  stops := (hq.stops_word (by decide)).andThen <| Stops.orElse
    ((hq.stops_word (by decide)).andThen <| (stops_one hq.driverChar).andThen <| (stops_many hq.driverChar).andThen <|
      hq.stops_word (by decide)) (hq.stops_word (by decide))
  start := fun y => by
    have hword : word "sqlite".toList (q :: y) = none := hq.word_none (by decide) y
    simp only [localDatabaseUri, andThen, hword, Option.bind_none]
  nil := rfl

theorem windowsDrivePath_separates : Separates q windowsDrivePath where
  behind := by
    simp [windowsDrivePath, hq.noLetter, hq.noDigit, hq.ne (c := '/') (by decide), hq.ne (c := '\\') (by decide)]
  stops := by
    have hslash : Stops q (one fun c => c == '\\' || c == '/') :=
      stops_one (by simp [hq.ne (c := '/') (by decide), hq.ne (c := '\\') (by decide)])
    exact (stops_one hq.noLetter).andThen ((hq.stops_mark (by decide)).andThen hslash)
  start := fun y => by simp [windowsDrivePath, andThen, one, hq.noLetter]
  nil := rfl

theorem windowsUncPath_separates : Separates q windowsUncPath where
  behind := by
    simp [windowsUncPath, hq.isAsciiAlnum, hq.ne (c := ':') (by decide), hq.ne (c := '/') (by decide),
      hq.ne (c := '\\') (by decide)]
  stops := (hq.stops_mark (by decide)).andThen ((hq.stops_mark (by decide)).andThen stops_notNext)
  start := fun y => by simp [windowsUncPath, andThen, one, hq.ne (c := '\\') (by decide)]
  nil := rfl

theorem posixRootedPath_separates : Separates q posixRootedPath where
  behind := by
    simp [posixRootedPath, hq.isAsciiAlnum, hq.ne (c := '/') (by decide), hq.ne (c := '.') (by decide)]
  stops := (hq.stops_mark (by decide)).andThen stops_notNext
  start := fun y => by simp [posixRootedPath, andThen, one, hq.ne (c := '/') (by decide)]
  nil := rfl

omit hq in
theorem stops_none : Stops q fun _ => none := fun _ => .inl ⟨rfl, fun _ => rfl⟩

theorem safeNonlocalUri_separates : Separates q safeNonlocalUri where
  behind := hq.schemeChar
  stops := by
    refine Stops.andThen ?_ ((stops_one hq.noUri).andThen (stops_many hq.noUri))
    have hword : ∀ scheme ∈ safeSchemes, Stops q (word (scheme ++ ":").toList) := by
      have hchars : ∀ scheme ∈ safeSchemes, ∀ p ∈ (scheme ++ ":").toList, wordChar p = true := by decide
      exact fun scheme hs => hq.stops_word (hchars scheme hs)
    generalize safeSchemes = schemes at hword
    induction schemes with
    | nil => exact stops_none
    | cons scheme schemes ih =>
      exact (hword scheme List.mem_cons_self).orElse (ih fun s hs => hword s (List.mem_cons_of_mem _ hs))
  start := fun y => by
    have hnone : ∀ scheme ∈ safeSchemes, word (scheme ++ ":").toList (q :: y) = none := by
      intro scheme hs
      have hchars : ∀ scheme ∈ safeSchemes, (scheme ++ ":").toList.head?.any wordChar = true := by decide
      have hfirst := hchars scheme hs
      generalize (scheme ++ ":").toList = w at hfirst
      cases w with
      | nil => cases hfirst
      | cons p w => exact hq.word_none hfirst y
    have hscheme : safeSchemes.foldr (fun scheme others => (word (scheme ++ ":").toList).orElse others)
        (fun _ => none) (q :: y) = none := by
      generalize safeSchemes = schemes at hnone
      induction schemes with
      | nil => rfl
      | cons scheme schemes ih =>
        have hrest := ih fun s hs => hnone s (List.mem_cons_of_mem _ hs)
        rw [List.foldr_cons, orElse, hnone scheme List.mem_cons_self, hrest]
        rfl
    simp only [safeNonlocalUri, andThen, hscheme, Option.bind_none]
  nil := rfl

/-- What stands on the two sides of a separator is judged apart. -/
theorem containsAbsoluteLocalPath_split (x y : List Char) :
    containsAbsoluteLocalPath (x ++ q :: y) =
      (containsAbsoluteLocalPath (x ++ [q]) || containsAbsoluteLocalPath y) := by
  obtain ⟨w, hw, hw'⟩ := subFrom_split (safeNonlocalUri_separates hq) [] x y none 0 (Nat.zero_le _)
  unfold containsAbsoluteLocalPath Pattern.sub
  rw [search_split (fileUri_separates hq), search_split (localDatabaseUri_separates hq),
    search_split (windowsDrivePath_separates hq), search_split (windowsUncPath_separates hq), hw', hw,
    search_split (posixRootedPath_separates hq) w]
  unfold Pattern.sub
  ac_rfl

end separator

/-! ## Documents -/

/-- The characters that a rooted path or a local database URI cannot do without. -/
def pathChar (c : Char) : Bool := c == '/' || c == '\\'

/-- What stands between two strings of a document. A colon stands only directly after a key. -/
structure Quiet (s : List Char) : Prop where
  paths : ∀ c ∈ s, pathChar c = false
  colons : ∀ c ∈ s.tail, (c == ':') = false

theorem Quiet.append {s w : List Char} (h : Quiet s) (hp : ∀ c ∈ w, pathChar c = false)
    (hc : ∀ c ∈ w, (c == ':') = false) : Quiet (s ++ w) := by
  refine ⟨fun c hcs => ?_, fun c hcs => ?_⟩
  · rcases List.mem_append.1 hcs with hs | hw
    · exact h.paths c hs
    · exact hp c hw
  · cases s with
    | nil => exact hc c (List.mem_of_mem_tail hcs)
    | cons d s =>
      rcases List.mem_append.1 hcs with hs | hw
      · exact h.colons c hs
      · exact hc c hw

theorem needs_slash : Needs pathChar (word ":///".toList) := by
  refine needs_word (p := '/') (by decide) fun c hc => ?_
  have hslash : c = '/' := by
    simp [sameIgnoreCase] at hc
    exact hc
  simp [pathChar, hslash]

theorem Quiet.safe {s : List Char} (h : Quiet s) : containsAbsoluteLocalPath s = false := by
  have hdb : Needs pathChar localDatabaseUri.body :=
    Needs.after (shrinks_word _) <| Needs.orElse (Needs.after (shrinks_word _) <| Needs.after shrinks_one <|
      Needs.after shrinks_many needs_slash) needs_slash
  have hdrive : Needs pathChar windowsDrivePath.body :=
    Needs.after shrinks_one <| Needs.after shrinks_one <| needs_one fun c hc => by
      rcases Bool.or_eq_true_iff.1 hc with hc | hc <;> simp [pathChar, hc]
  have hunc : Needs pathChar windowsUncPath.body := (needs_one fun c hc => by simp [pathChar, hc]).before
  have hposix : Needs pathChar posixRootedPath.body := (needs_one fun c hc => by simp [pathChar, hc]).before
  have hfile : fileUri.search none s = false := by
    have hneeds : Needs (· == ':') fileUri.body := needs_word (p := ':') (by decide) fun c hc => by
      simpa [sameIgnoreCase] using hc
    cases s with
    | nil => rfl
    | cons c s =>
      -- the only colon is the first character, and the match cannot end there
      have hrest : fileUri.search (some c) s = false := search_of_needs hneeds _ h.colons
      have hfirst : fileUri.matchAt none (c :: s) = none := by
        have htail : Needs (· == ':') (word "ile:".toList) := needs_word (p := ':') (by decide) fun c hc => by
          simpa [sameIgnoreCase] using hc
        show ((one (sameIgnoreCase 'f')).andThen (word "ile:".toList)) (c :: s) = none
        by_cases hf : sameIgnoreCase 'f' c = true
        · simp only [andThen, one, hf, if_true, Option.bind_some]
          exact htail s h.colons
        · simp [andThen, one, hf]
      simp only [search, hfirst, hrest]
      rfl
  have hrooted : posixRootedPath.search none (safeNonlocalUri.sub [] s) = false :=
    search_of_needs hposix none fun c hc => h.paths c (mem_of_mem_subFrom 0 none hc)
  unfold containsAbsoluteLocalPath
  rw [hfile, search_of_needs hdb none h.paths, search_of_needs hdrive none h.paths, search_of_needs hunc none h.paths,
    hrooted]
  rfl

theorem Quiet.safe_quote {s : List Char} (h : Quiet s) : containsAbsoluteLocalPath (s ++ [quote]) = false :=
  (h.append (by decide) (by decide)).safe

theorem containsAbsoluteLocalPath_jsonString (t : List Char) :
    containsAbsoluteLocalPath (jsonString t) = containsAbsoluteLocalPath (escapeText t ++ [quote]) := by
  have hnil : Quiet [] := ⟨nofun, nofun⟩
  have hsplit := containsAbsoluteLocalPath_split quote_separator [] (escapeText t ++ [quote])
  rw [hnil.safe_quote, Bool.false_or] at hsplit
  exact hsplit

/-- A string is judged as it stands, and nothing before it matters after it. -/
theorem scan_string {s : List Char} (h : Quiet s) (t z : List Char) :
    containsAbsoluteLocalPath (s ++ jsonString t ++ z) =
      (containsAbsoluteLocalPath (jsonString t) || containsAbsoluteLocalPath z) := by
  have hdoc : s ++ jsonString t ++ z = s ++ quote :: (escapeText t ++ quote :: z) := by
    simp [jsonString]
  rw [hdoc, containsAbsoluteLocalPath_split quote_separator, h.safe_quote, Bool.false_or,
    containsAbsoluteLocalPath_split quote_separator,
    containsAbsoluteLocalPath_jsonString]

/-- Whether one of the strings of a document is refused. -/
def refusesString (v : Json) : Bool :=
  (keysOf v).any (fun t => containsAbsoluteLocalPath (jsonString t.toList)) ||
    (stringsOf v).any fun t => containsAbsoluteLocalPath (jsonString t.toList)

/-- The scan of a part of a document: whether it is refused for one of its strings, whatever follows. -/
def Scans (w : List Char) (bad : Bool) : Prop :=
  ∀ s, Quiet s → ∃ s', Quiet s' ∧ ∀ z,
    containsAbsoluteLocalPath (s ++ w ++ z) = (bad || containsAbsoluteLocalPath (s' ++ z))

theorem Scans.append {w₁ w₂ : List Char} {b₁ b₂ : Bool} (h₁ : Scans w₁ b₁) (h₂ : Scans w₂ b₂) :
    Scans (w₁ ++ w₂) (b₁ || b₂) := by
  intro s hs
  obtain ⟨s₁, hs₁, hz₁⟩ := h₁ s hs
  obtain ⟨s₂, hs₂, hz₂⟩ := h₂ s₁ hs₁
  refine ⟨s₂, hs₂, fun z => ?_⟩
  calc containsAbsoluteLocalPath (s ++ (w₁ ++ w₂) ++ z)
      = containsAbsoluteLocalPath (s ++ w₁ ++ (w₂ ++ z)) := by simp only [List.append_assoc]
    _ = (b₁ || containsAbsoluteLocalPath (s₁ ++ w₂ ++ z)) := by rw [hz₁, List.append_assoc]
    _ = (b₁ || b₂ || containsAbsoluteLocalPath (s₂ ++ z)) := by rw [hz₂, Bool.or_assoc]

/-- Text without path characters and colons is never refused. -/
theorem scans_plain {w : List Char} (h : ∀ c ∈ w, pathChar c = false ∧ (c == ':') = false) : Scans w false := by
  intro s hs
  exact ⟨s ++ w, hs.append (fun c hc => (h c hc).1) fun c hc => (h c hc).2, fun z => by simp⟩

theorem scans_string (t : List Char) : Scans (jsonString t) (containsAbsoluteLocalPath (jsonString t)) := by
  intro s hs
  exact ⟨[], ⟨nofun, nofun⟩, scan_string hs t⟩

theorem scans_key (t : List Char) : Scans (jsonString t ++ [':']) (containsAbsoluteLocalPath (jsonString t)) := by
  intro s hs
  refine ⟨[':'], ⟨by decide, by decide⟩, fun z => ?_⟩
  have hdoc : s ++ (jsonString t ++ [':']) ++ z = s ++ jsonString t ++ (':' :: z) := by simp
  rw [hdoc, scan_string hs]
  rfl

theorem plain_digits (n : ℕ) : ∀ c ∈ n.repr.toList, pathChar c = false ∧ (c == ':') = false := by
  intro c hc
  rw [Nat.toList_repr] at hc
  have hd : c.isDigit = true := Nat.isDigit_of_mem_toDigits (by decide) (by decide) hc
  refine ⟨?_, ?_⟩
  · by_contra h
    have hp : pathChar c = true := by simpa using h
    rcases Bool.or_eq_true_iff.1 hp with hc | hc <;> rw [beq_iff_eq.1 hc] at hd <;> exact absurd hd (by decide)
  · by_contra h
    have hp : (c == ':') = true := by simpa using h
    rw [beq_iff_eq.1 hp] at hd
    exact absurd hd (by decide)

theorem plain_int (i : ℤ) : ∀ c ∈ (toString i).toList, pathChar c = false ∧ (c == ':') = false := by
  cases i with
  | ofNat n => exact plain_digits n
  | negSucc n =>
    intro c hc
    rw [show toString (Int.negSucc n) = "-" ++ (n + 1).repr from rfl, String.toList_append] at hc
    rcases List.mem_append.1 hc with hc | hc
    · obtain rfl : c = '-' := by simpa using hc
      decide
    · exact plain_digits _ c hc

theorem plain_float (f : FloatText) : ∀ c ∈ f.text.toList, pathChar c = false ∧ (c == ':') = false := by
  intro c hc
  have hall : ∀ c ∈ floatChars, pathChar c = false ∧ (c == ':') = false := by decide
  exact hall c (f.chars c hc)

section documents

/-- The strings of a list of values, or of the values of a mapping. -/
def refusesItems (items : List Json) : Bool :=
  (keysOfItems items).any (fun t => containsAbsoluteLocalPath (jsonString t.toList)) ||
    (stringsOfItems items).any fun t => containsAbsoluteLocalPath (jsonString t.toList)

def refusesFields (fields : List (String × Json)) : Bool :=
  (keysOfFields fields).any (fun t => containsAbsoluteLocalPath (jsonString t.toList)) ||
    (stringsOfFields fields).any fun t => containsAbsoluteLocalPath (jsonString t.toList)

theorem refusesItems_cons (item : Json) (items : List Json) :
    refusesItems (item :: items) = (refusesString item || refusesItems items) := by
  simp only [refusesItems, refusesString, keysOfItems, stringsOfItems, List.any_append]
  ac_rfl

theorem refusesFields_cons (name : String) (value : Json) (fields : List (String × Json)) :
    refusesFields ((name, value) :: fields) =
      (containsAbsoluteLocalPath (jsonString name.toList) || (refusesString value || refusesFields fields)) := by
  simp only [refusesFields, refusesString, keysOfFields, stringsOfFields, List.any_append, List.any_cons,
    List.cons_append]
  ac_rfl

mutual

theorem scans_dumps (v : Json) : Scans (dumps v) (refusesString v) := by
  match v with
  | .null => exact scans_plain (by decide)
  | .bool b => cases b <;> exact scans_plain (by decide)
  | .int i => exact scans_plain (plain_int i)
  | .float f => exact scans_plain (plain_float f)
  | .str s => simpa [dumps, refusesString, keysOf, stringsOf] using scans_string s.toList
  | .arr [] => exact scans_plain (by decide)
  | .arr (item :: items) =>
    have hopen : Scans ['['] false := scans_plain (by decide)
    have hclose : Scans [']'] false := scans_plain (by decide)
    have h := hopen.append (((scans_dumps item).append (scans_dumpsItems items)).append hclose)
    have hbad : refusesString (.arr (item :: items)) = (refusesString item || refusesItems items) :=
      refusesItems_cons item items
    rw [hbad]
    simpa [dumps] using h
  | .obj [] => exact scans_plain (by decide)
  | .obj ((name, value) :: fields) =>
    have hopen : Scans [Char.ofNat 123] false := scans_plain (by decide)
    have hclose : Scans [Char.ofNat 125] false := scans_plain (by decide)
    have h := hopen.append ((((scans_key name.toList).append (scans_dumps value)).append
      (scans_dumpsFields fields)).append hclose)
    have hbad : refusesString (.obj ((name, value) :: fields)) = _ := refusesFields_cons name value fields
    rw [hbad]
    simpa [dumps, Bool.or_assoc] using h

theorem scans_dumpsItems (items : List Json) : Scans (dumpsItems items) (refusesItems items) := by
  match items with
  | [] => exact scans_plain nofun
  | item :: items =>
    have hcomma : Scans [','] false := scans_plain (by decide)
    have h := hcomma.append ((scans_dumps item).append (scans_dumpsItems items))
    rw [refusesItems_cons]
    simpa [dumpsItems] using h

theorem scans_dumpsFields (fields : List (String × Json)) : Scans (dumpsFields fields) (refusesFields fields) := by
  match fields with
  | [] => exact scans_plain nofun
  | (name, value) :: fields =>
    have hcomma : Scans [','] false := scans_plain (by decide)
    have h := hcomma.append (((scans_key name.toList).append (scans_dumps value)).append (scans_dumpsFields fields))
    rw [refusesFields_cons]
    simpa [dumpsFields, Bool.or_assoc] using h

end

end documents

/-- A document is refused for one of its strings: neither its shape nor its numbers matter. -/
theorem containsAbsoluteLocalPath_dumps (v : Json) : containsAbsoluteLocalPath (dumps v) = refusesString v := by
  obtain ⟨s, hs, hz⟩ := scans_dumps v [] ⟨nofun, nofun⟩
  have h := hz []
  rw [List.append_nil, List.append_nil, List.nil_append, hs.safe, Bool.or_false] at h
  exact h

/-! ## Escapes -/

theorem escapeText_cons (c : Char) (s : List Char) : escapeText (c :: s) = escapeChar c ++ escapeText s := rfl

theorem escapeChar_plain {c : Char} (hb : c ≠ '\\') (h : isEscaped c = false) : escapeChar c = [c] := by
  simp only [isEscaped, Bool.or_eq_false_iff, decide_eq_false_iff_not, beq_eq_false_iff_ne] at h
  have hq : c.toNat ≠ 34 := fun hc => h.2 (by rw [← Char.ofNat_toNat c, hc]; rfl)
  simp [escapeChar, hb, h.1, hq]

/-- An escape begins with a backslash. -/
theorem escapeChar_escaped {c : Char} (h : isEscaped c = true) : ∃ l, escapeChar c = '\\' :: l := by
  simp only [isEscaped, Bool.or_eq_true, decide_eq_true_eq, beq_iff_eq] at h
  unfold escapeChar
  rcases h with h | rfl
  · split
    · exact ⟨_, rfl⟩
    · split <;> exact ⟨_, rfl⟩
  · exact ⟨_, rfl⟩

/-- The body matches the same way before and after the escapes. -/
def Commutes (f : Matcher) : Prop :=
  ∀ s, '\\' ∉ s → f (escapeText s ++ [quote]) = (f s).map fun r => escapeText r ++ [quote]

section commutes

variable {cls : Char → Bool} {f g : Matcher}

/-- Neither an escaped character nor a character of its escape is in the class. -/
def PlainClass (cls : Char → Bool) : Prop := cls '\\' = false ∧ ∀ c, isEscaped c = true → cls c = false

theorem commutes_one (h : PlainClass cls) : Commutes (one cls) := by
  intro s hs
  cases s with
  | nil => simp [escapeText, one, h.2 quote (by decide)]
  | cons c s =>
    have hc : c ≠ '\\' := fun hc => hs (by simp [hc])
    cases he : isEscaped c with
    | true =>
      obtain ⟨l, hl⟩ := escapeChar_escaped he
      simp [escapeText_cons, hl, one, h.1, h.2 c he]
    | false =>
      rw [escapeText_cons, escapeChar_plain hc he]
      cases hcls : cls c <;> simp [one, hcls]

theorem commutes_many (h : PlainClass cls) : Commutes (many cls) := by
  intro s hs
  induction s with
  | nil => simp [escapeText, many, h.2 quote (by decide)]
  | cons c s ih =>
    have hc : c ≠ '\\' := fun hc => hs (by simp [hc])
    cases he : isEscaped c with
    | true =>
      obtain ⟨l, hl⟩ := escapeChar_escaped he
      simp [escapeText_cons, hl, many, h.1, h.2 c he]
    | false =>
      have hrest := ih fun hm => hs (List.mem_cons_of_mem _ hm)
      rw [escapeText_cons, escapeChar_plain hc he]
      cases hcls : cls c with
      | true => simpa [many, hcls] using hrest
      | false => simp [many, hcls, escapeText_cons, escapeChar_plain hc he]

theorem Commutes.andThen (hf : Commutes f) (hshrink : Shrinks f) (hg : Commutes g) : Commutes (f.andThen g) := by
  intro s hs
  unfold Matcher.andThen
  rw [hf s hs]
  cases hr : f s with
  | none => rfl
  | some r => exact hg r fun hm => hs (hshrink s r hr _ hm)

theorem Commutes.orElse (hf : Commutes f) (hg : Commutes g) : Commutes (f.orElse g) := by
  intro s hs
  unfold Matcher.orElse
  rw [hf s hs, hg s hs]
  cases f s <;> rfl

theorem commutes_word {w : List Char} (h : ∀ p ∈ w, PlainClass (sameIgnoreCase p)) : Commutes (word w) := by
  induction w with
  | nil => exact fun s _ => rfl
  | cons p w ih =>
    exact (commutes_one (h p List.mem_cons_self)).andThen shrinks_one (ih fun p hp => h p (List.mem_cons_of_mem _ hp))

end commutes

/-- A property of the escaped characters holds once it holds of these. -/
theorem forall_escaped {Q : Char → Prop} (h : ∀ n < 35, isEscaped (Char.ofNat n) = true → Q (Char.ofNat n)) (c : Char)
    (hc : isEscaped c = true) : Q c := by
  have hlt : c.toNat < 35 := by
    rcases Bool.or_eq_true_iff.1 hc with hc | hc
    · have := of_decide_eq_true hc; omega
    · rw [beq_iff_eq.1 hc]; decide
  have hof := h c.toNat hlt
  rw [Char.ofNat_toNat] at hof
  exact hof hc

theorem plainClass_of {cls : Char → Bool} (hb : cls '\\' = false)
    (h : ∀ n < 35, isEscaped (Char.ofNat n) = true → cls (Char.ofNat n) = false) : PlainClass cls :=
  ⟨hb, forall_escaped h⟩

/-- A match begins with a character of the class. -/
def Starts (first : Char → Bool) (p : Pattern) : Prop := ∀ c s, first c = false → p.body (c :: s) = none

/-- No match begins at the second of two neighbours. -/
def quietPairs (p : Pattern) (first : Char → Bool) : List Char → Bool
  | x :: y :: l => (p.behind x || !first y) && quietPairs p first (y :: l)
  | _ => true

theorem search_quiet {p : Pattern} {first : Char → Bool} (h : Starts first p) {x : Char} {l : List Char}
    (hl : quietPairs p first (x :: l) = true) (R : List Char) :
    p.search (some x) (l ++ R) = p.search (some (l.getLastD x)) R := by
  induction l generalizing x with
  | nil => rfl
  | cons y l ih =>
    simp only [quietPairs, Bool.and_eq_true, Bool.or_eq_true, Bool.not_eq_true'] at hl
    have hnone : p.matchAt (some x) (y :: (l ++ R)) = none := by
      unfold matchAt
      rcases hl.1 with hx | hy
      · simp [hx]
      · rw [h _ _ hy]; simp
    simp only [List.cons_append, search, hnone, Option.isSome_none, Bool.false_or]
    rw [ih hl.2]
    cases l <;> rfl

/-- The escape of a character in which no match begins. -/
structure Skips (p : Pattern) (first : Char → Bool) (c : Char) : Prop where
  pairs : quietPairs p first (escapeChar c) = true
  slash : (escapeChar c).head? = some '\\'

theorem search_skips {p : Pattern} {first : Char → Bool} (h : Starts first p) (hf : first '\\' = false) {c : Char}
    (hc : Skips p first c) (prev : Option Char) (R : List Char) :
    p.search prev (escapeChar c ++ R) = p.search (some ((escapeChar c).getLastD c)) R := by
  have hpairs := hc.pairs
  have hslash := hc.slash
  cases he : escapeChar c with
  | nil => rw [he] at hslash; cases hslash
  | cons x l =>
    rw [he] at hslash hpairs
    obtain rfl : x = '\\' := Option.some.inj hslash
    have hnone : p.matchAt prev ('\\' :: (l ++ R)) = none := by
      unfold matchAt
      rw [h _ _ hf]; simp
    simp only [List.cons_append, search, hnone, Option.isSome_none, Bool.false_or]
    rw [search_quiet h hpairs]
    cases l <;> rfl

/-- What the character before a position becomes: a guard stays a guard. -/
def KeepsGuard (p : Pattern) (prev prev' : Option Char) : Prop :=
  prev.any p.behind = true → prev'.any p.behind = true

theorem keepsGuard_plain {p : Pattern} {c : Char} : KeepsGuard p (some c) (some c) := id

theorem keepsGuard_escaped {p : Pattern} (hp : PlainClass p.behind) {c : Char} (hc : isEscaped c = true)
    (prev : Option Char) : KeepsGuard p (some c) prev := by
  intro h
  rw [Option.any_some, hp.2 c hc] at h
  cases h

section escape

variable {p : Pattern} {c : Char} {t : List Char} {prev prev' : Option Char}

/-- A position of the text that is no match is none of the escaped text. -/
theorem matchAt_escape (hcomm : Commutes p.body) (hb : '\\' ∉ c :: t) (he : isEscaped c = false)
    (hg : KeepsGuard p prev prev') (h : p.matchAt prev (c :: t) = none) :
    p.matchAt prev' (c :: (escapeText t ++ [quote])) = none := by
  have hc : c ≠ '\\' := fun hc => hb (by simp [hc])
  have hbody : p.body (c :: (escapeText t ++ [quote])) =
      (p.body (c :: t)).map fun r => escapeText r ++ [quote] := by
    have h := hcomm (c :: t) hb
    rw [escapeText_cons, escapeChar_plain hc he] at h
    exact h
  unfold matchAt at h ⊢
  by_cases hp : prev.any p.behind = true
  · simp [hg hp]
  · rw [if_neg hp] at h
    simp [hbody, h]

theorem search_quote (h : Separates quote p) : p.search prev [quote] = false := by
  have hnil : p.matchAt none [] = none := by simp [matchAt, h.nil]
  simp [search, matchAt_start h, matchAt_separator h, hnil]

theorem not_mem_tail (hb : '\\' ∉ c :: t) : '\\' ∉ t := fun hm => hb (List.mem_cons_of_mem _ hm)

theorem search_cons_false (h : p.search prev (c :: t) = false) :
    p.matchAt prev (c :: t) = none ∧ p.search (some c) t = false := by
  simp only [search, Bool.or_eq_false_iff, Option.isSome_eq_false_iff, Option.isNone_iff_eq_none] at h
  exact h

end escape

theorem plainClass_schemeChar : PlainClass schemeChar := plainClass_of (by decide) (by decide)

/-- The characters in which `sqlite` may begin. -/
def sqliteStart (c : Char) : Bool := sameIgnoreCase 's' c

theorem localDatabaseUri_starts : Starts sqliteStart localDatabaseUri := by
  intro c s hc
  have hone : one (sameIgnoreCase 's') (c :: s) = none := by simp [one, show sameIgnoreCase 's' c = false from hc]
  show ((one (sameIgnoreCase 's') (c :: s)).bind _).bind _ = none
  rw [hone]
  rfl

theorem commutes_text {w : List Char}
    (h : ∀ p ∈ w, sameIgnoreCase p '\\' = false ∧
      ∀ n < 35, isEscaped (Char.ofNat n) = true → sameIgnoreCase p (Char.ofNat n) = false) : Commutes (word w) :=
  commutes_word fun p hp => plainClass_of (h p hp).1 (h p hp).2

theorem localDatabaseUri_commutes : Commutes localDatabaseUri.body := by
  have hslashes : Commutes (word ":///".toList) := commutes_text (by decide)
  have hdriver : PlainClass driverChar := plainClass_of (by decide) (by decide)
  have hplus : Commutes (word ['+']) := commutes_text (by decide)
  refine Commutes.andThen (commutes_text (by decide)) (shrinks_word _) (Commutes.orElse ?_ hslashes)
  exact hplus.andThen (shrinks_word _) <| (commutes_one hdriver).andThen shrinks_one <|
    (commutes_many hdriver).andThen shrinks_many hslashes

theorem localDatabaseUri_skips : ∀ c, isEscaped c = true → Skips localDatabaseUri sqliteStart c :=
  forall_escaped fun n hn he => by
    refine ⟨?_, ?_⟩ <;> revert n <;> decide

/-- No local database URI appears in the escapes. -/
theorem localDatabaseUri_escape {t : List Char} (hb : '\\' ∉ t) {prev prev' : Option Char}
    (hg : KeepsGuard localDatabaseUri prev prev') (h : localDatabaseUri.search prev t = false) :
    localDatabaseUri.search prev' (escapeText t ++ [quote]) = false := by
  induction t generalizing prev prev' with
  | nil => exact search_quote (localDatabaseUri_separates quote_separator)
  | cons c t ih =>
    obtain ⟨hm, hrest⟩ := search_cons_false h
    cases he : isEscaped c with
    | true =>
      rw [escapeText_cons, List.append_assoc,
        search_skips localDatabaseUri_starts (by decide) (localDatabaseUri_skips c he)]
      exact ih (not_mem_tail hb) (keepsGuard_escaped plainClass_schemeChar he _) hrest
    | false =>
      rw [escapeText_cons, escapeChar_plain (fun hc => hb (by simp [hc])) he]
      simp only [List.cons_append, List.nil_append, search, matchAt_escape localDatabaseUri_commutes hb he hg hm]
      exact ih (not_mem_tail hb) keepsGuard_plain hrest

/-- The characters in which `file:` may begin. -/
def fileStart (c : Char) : Bool := sameIgnoreCase 'f' c

theorem fileUri_starts : Starts fileStart fileUri := by
  intro c s hc
  have hone : one (sameIgnoreCase 'f') (c :: s) = none := by simp [one, show sameIgnoreCase 'f' c = false from hc]
  show (one (sameIgnoreCase 'f') (c :: s)).bind _ = none
  rw [hone]
  rfl

theorem fileUri_commutes : Commutes fileUri.body := commutes_text (by decide)

theorem fileUri_skips : ∀ c, isEscaped c = true → c ≠ formFeed → Skips fileUri fileStart c :=
  forall_escaped fun n hn he hf => by
    refine ⟨?_, ?_⟩ <;> revert n <;> decide

theorem formFeedUri_cons {c : Char} {t : List Char} :
    FormFeedUri (c :: t) ↔ (c = formFeed ∧ (word "ile:".toList t).isSome = true) ∨ FormFeedUri t := by
  constructor
  · rintro ⟨u, v, ht, hv⟩
    cases u with
    | nil =>
      obtain ⟨rfl, rfl⟩ := List.cons.inj ht
      exact .inl ⟨rfl, hv⟩
    | cons d u =>
      obtain ⟨-, rfl⟩ := List.cons.inj ht
      exact .inr ⟨u, v, rfl, hv⟩
  · rintro (⟨rfl, hv⟩ | ⟨u, v, rfl, hv⟩)
    · exact ⟨[], t, rfl, hv⟩
    · exact ⟨c :: u, v, rfl, hv⟩

/-- A `file:` URI appears in the escapes only after a form feed. -/
theorem fileUri_escape {t : List Char} (hb : '\\' ∉ t) {prev prev' : Option Char}
    (hg : KeepsGuard fileUri prev prev') (h : fileUri.search prev t = false) :
    fileUri.search prev' (escapeText t ++ [quote]) = true ↔ FormFeedUri t := by
  induction t generalizing prev prev' with
  | nil =>
    rw [show fileUri.search prev' (escapeText [] ++ [quote]) = false from search_quote (fileUri_separates quote_separator)]
    simp [FormFeedUri]
  | cons c t ih =>
    obtain ⟨hm, hrest⟩ := search_cons_false h
    have hbt := not_mem_tail hb
    rw [formFeedUri_cons]
    cases he : isEscaped c with
    | true =>
      have hg' : ∀ prev', KeepsGuard fileUri (some c) prev' := keepsGuard_escaped plainClass_schemeChar he
      by_cases hf : c = formFeed
      · subst hf
        have hile : Commutes (word "ile:".toList) := commutes_text (by decide)
        have hfirst : fileUri.matchAt prev' ('\\' :: 'f' :: (escapeText t ++ [quote])) = none := by
          unfold matchAt
          rw [fileUri_starts _ _ (by decide)]
          simp
        have hsecond : fileUri.matchAt (some '\\') ('f' :: (escapeText t ++ [quote])) =
            (word "ile:".toList t).map fun r => escapeText r ++ [quote] := hile t hbt
        rw [← ih hbt (hg' (some 'f')) hrest, escapeText_cons,
          show escapeChar formFeed ++ escapeText t ++ [quote] = '\\' :: 'f' :: (escapeText t ++ [quote]) from rfl]
        simp [search, hfirst, hsecond]
      · rw [escapeText_cons, List.append_assoc, search_skips fileUri_starts (by decide) (fileUri_skips c he hf),
          ih hbt (hg' _) hrest]
        simp [hf]
    | false =>
      have hf : c ≠ formFeed := fun hf => by rw [hf] at he; exact absurd he (by decide)
      rw [escapeText_cons, escapeChar_plain (fun hc => hb (by simp [hc])) he]
      simp only [List.cons_append, List.nil_append, search, matchAt_escape fileUri_commutes hb he hg hm]
      rw [Option.isSome_none, Bool.false_or, ih hbt keepsGuard_plain hrest]
      simp [hf]

/-! ## Drives -/

theorem windowsDrivePath_starts : Starts isLetterIgnoreCase windowsDrivePath := by
  intro c s hc
  have hone : one isLetterIgnoreCase (c :: s) = none := by simp [one, hc]
  show (one isLetterIgnoreCase (c :: s)).bind _ = none
  rw [hone]
  rfl

theorem windowsDrivePath_skips : ∀ c, isEscaped c = true → Skips windowsDrivePath isLetterIgnoreCase c :=
  forall_escaped fun n hn he => by
    refine ⟨?_, ?_⟩ <;> revert n <;> decide

/-- The last character of an escape guards against a drive unless it is a quote. -/
theorem escape_blocksDrive : ∀ c, isEscaped c = true →
    windowsDrivePath.behind ((escapeChar c).getLastD c) = blocksDrive c :=
  forall_escaped fun n hn he => by revert n; decide

theorem plain_blocksDrive {c : Char} (hb : c ≠ '\\') (he : isEscaped c = false) :
    windowsDrivePath.behind c = blocksDrive c := by
  have hlt : decide (c.toNat < 32) = false := (Bool.or_eq_false_iff.1 he).1
  simp [windowsDrivePath, blocksDrive, hlt, hb]

theorem letter_plain {c : Char} (h : isLetterIgnoreCase c = true) : isEscaped c = false := by
  cases he : isEscaped c with
  | false => rfl
  | true =>
    have hno : ∀ c, isEscaped c = true → isLetterIgnoreCase c = false :=
      forall_escaped fun n hn he => by revert n; decide
    rw [hno c he] at h; cases h

/-- `DriveBeforeEscape` in a text that follows the character `prev`. -/
def DriveFrom (prev : Option Char) (t : List Char) : Prop :=
  ∃ u c d v, t = u ++ c :: ':' :: d :: v ∧ isLetterIgnoreCase c = true ∧ isEscaped d = true ∧
    ∀ e, (u.getLast?.or prev) = some e → blocksDrive e = false

theorem driveFrom_cons {prev : Option Char} {c : Char} {t : List Char} :
    DriveFrom prev (c :: t) ↔
      (isLetterIgnoreCase c = true ∧ (∃ d v, t = ':' :: d :: v ∧ isEscaped d = true) ∧
        ∀ e, prev = some e → blocksDrive e = false) ∨ DriveFrom (some c) t := by
  have hlast : ∀ (u : List Char) (d : Char), ((d :: u).getLast?.or prev) = u.getLast?.or (some d) := by
    intro u d
    rw [List.getLast?_cons]
    cases u.getLast? <;> rfl
  constructor
  · rintro ⟨u, c', d, v, ht, hc, hd, he⟩
    cases u with
    | nil =>
      obtain ⟨rfl, rfl⟩ := List.cons.inj ht
      exact .inl ⟨hc, ⟨d, v, rfl, hd⟩, he⟩
    | cons b u =>
      obtain ⟨rfl, rfl⟩ := List.cons.inj ht
      exact .inr ⟨u, c', d, v, rfl, hc, hd, by rw [← hlast]; exact he⟩
  · rintro (⟨hc, ⟨d, v, rfl, hd⟩, he⟩ | ⟨u, c', d, v, rfl, hc, hd, he⟩)
    · exact ⟨[], c, d, v, rfl, hc, hd, he⟩
    · exact ⟨c :: u, c', d, v, rfl, hc, hd, by rw [hlast]; exact he⟩

/-- `one` in a text and in its escapes, for a class that knows backslashes. -/
theorem escapeText_head (t : List Char) : ∃ x R, escapeText t ++ [quote] = x :: R ∧
    ((t = [] ∧ x = quote) ∨ ∃ c s, t = c :: s ∧
      ((isEscaped c = true ∧ x = '\\') ∨ (isEscaped c = false ∧ (c ≠ '\\' → x = c ∧ R = escapeText s ++ [quote])))) := by
  cases t with
  | nil => exact ⟨quote, [], rfl, .inl ⟨rfl, rfl⟩⟩
  | cons c s =>
    cases he : isEscaped c with
    | true =>
      obtain ⟨l, hl⟩ := escapeChar_escaped he
      exact ⟨'\\', l ++ escapeText s ++ [quote], by rw [escapeText_cons, hl]; simp, .inr ⟨c, s, rfl, .inl ⟨he, rfl⟩⟩⟩
    | false =>
      by_cases hc : c = '\\'
      · subst hc
        exact ⟨'\\', '\\' :: (escapeText s ++ [quote]), rfl, .inr ⟨_, s, rfl, .inr ⟨he, fun h => absurd rfl h⟩⟩⟩
      · refine ⟨c, escapeText s ++ [quote], ?_, .inr ⟨c, s, rfl, .inr ⟨he, fun _ => ⟨rfl, rfl⟩⟩⟩⟩
        rw [escapeText_cons, escapeChar_plain hc he]
        rfl

theorem driveBody_isSome (c : Char) (t : List Char) :
    (windowsDrivePath.body (c :: t)).isSome = true ↔
      isLetterIgnoreCase c = true ∧ ∃ d v, t = ':' :: d :: v ∧ (d = '\\' ∨ d = '/') := by
  cases hc : isLetterIgnoreCase c with
  | false => simp [windowsDrivePath, andThen, one, hc]
  | true =>
    rcases t with _ | ⟨x, _ | ⟨d, v⟩⟩
    · simp [windowsDrivePath, andThen, one, hc]
    · by_cases hx : x = ':' <;> simp [windowsDrivePath, andThen, one, hc, hx]
    · by_cases hx : x = ':'
      · subst hx
        by_cases hd : d = '\\' ∨ d = '/'
        · simp [windowsDrivePath, andThen, one, hc, hd]
        · simp [windowsDrivePath, andThen, one, hc, hd]
      · simp [windowsDrivePath, andThen, one, hc, hx]

theorem driveBody_escape {c : Char} {t : List Char} (hb : '\\' ∉ t) :
    (windowsDrivePath.body (c :: (escapeText t ++ [quote]))).isSome = true ↔
      isLetterIgnoreCase c = true ∧ ∃ d v, t = ':' :: d :: v ∧ (isEscaped d = true ∨ d = '/') := by
  rw [driveBody_isSome]
  refine and_congr_right fun _ => ?_
  constructor
  · rintro ⟨d, v, ht, hd⟩
    obtain ⟨x, R, hxR, hx⟩ := escapeText_head t
    obtain ⟨rfl, rfl⟩ := List.cons.inj (hxR.symm.trans ht)
    rcases hx with ⟨-, hq⟩ | ⟨c', s, rfl, ⟨-, hq⟩ | ⟨-, hplain⟩⟩
    · cases hq
    · cases hq
    · obtain ⟨rfl, hR⟩ := hplain fun h => hb (by simp [h])
      obtain ⟨y, R', hyR, hy⟩ := escapeText_head s
      obtain ⟨rfl, rfl⟩ := List.cons.inj (hyR.symm.trans hR.symm)
      rcases hy with ⟨-, rfl⟩ | ⟨c', s', rfl, ⟨he, -⟩ | ⟨-, hplain'⟩⟩
      · rcases hd with hd | hd <;> cases hd
      · exact ⟨c', s', rfl, .inl he⟩
      · obtain ⟨rfl, -⟩ := hplain' fun h => hb (by simp [h])
        exact ⟨_, s', rfl, .inr (hd.resolve_left fun h => hb (by simp [h]))⟩
  · rintro ⟨d, v, rfl, hd⟩
    have hcolon : escapeText (':' :: d :: v) = ':' :: (escapeChar d ++ escapeText v) := rfl
    rw [hcolon]
    rcases hd with hd | rfl
    · obtain ⟨l, hl⟩ := escapeChar_escaped hd
      exact ⟨'\\', l ++ escapeText v ++ [quote], by rw [hl]; simp, .inl rfl⟩
    · exact ⟨'/', escapeText v ++ [quote], rfl, .inr rfl⟩

/-- A drive path appears in the escapes only directly before an escaped character. -/
theorem windowsDrivePath_escape {t : List Char} (hb : '\\' ∉ t) {prev prev' : Option Char}
    (hg : prev'.any windowsDrivePath.behind = prev.any blocksDrive) (hprev : prev ≠ some '\\')
    (h : windowsDrivePath.search prev t = false) :
    windowsDrivePath.search prev' (escapeText t ++ [quote]) = true ↔ DriveFrom prev t := by
  induction t generalizing prev prev' with
  | nil =>
    rw [show windowsDrivePath.search prev' (escapeText [] ++ [quote]) = false from
      search_quote (windowsDrivePath_separates quote_separator)]
    simp [DriveFrom]
  | cons c t ih =>
    obtain ⟨hm, hrest⟩ := search_cons_false h
    have hbt := not_mem_tail hb
    have hc : c ≠ '\\' := fun hc => hb (by simp [hc])
    have hcprev : some c ≠ some '\\' := fun h => hc (Option.some.inj h)
    rw [driveFrom_cons]
    cases he : isEscaped c with
    | true =>
      have hno : isLetterIgnoreCase c = false := by
        cases hl : isLetterIgnoreCase c with
        | false => rfl
        | true => rw [letter_plain hl] at he; cases he
      have hg' : (some ((escapeChar c).getLastD c)).any windowsDrivePath.behind = (some c).any blocksDrive :=
        escape_blocksDrive c he
      rw [escapeText_cons, List.append_assoc,
        search_skips windowsDrivePath_starts (by decide) (windowsDrivePath_skips c he), ih hbt hg' hcprev hrest]
      simp [hno]
    | false =>
      have hg' : (some c).any windowsDrivePath.behind = (some c).any blocksDrive := plain_blocksDrive hc he
      rw [escapeText_cons, escapeChar_plain hc he]
      simp only [List.cons_append, List.nil_append, search, Bool.or_eq_true]
      rw [ih hbt hg' hcprev hrest]
      refine or_congr_left ?_
      have hguard : prev'.any windowsDrivePath.behind = true ↔ ∃ e, prev = some e ∧ blocksDrive e = true := by
        rw [hg]
        cases prev <;> simp
      unfold matchAt at hm ⊢
      by_cases hp : prev'.any windowsDrivePath.behind = true
      · obtain ⟨e, rfl, hblocks⟩ := hguard.1 hp
        rw [if_pos hp]
        simp [hblocks]
      · have hfree : ∀ e, prev = some e → blocksDrive e = false := fun e hpe => by
          cases hblocks : blocksDrive e with
          | false => rfl
          | true => exact absurd (hguard.2 ⟨e, hpe, hblocks⟩) hp
        rw [if_neg hp, driveBody_escape hbt]
        refine and_congr_right fun hl => ?_
        rw [and_iff_left hfree]
        refine exists_congr fun d => exists_congr fun v => and_congr_right fun ht => ?_
        refine or_iff_left_of_imp fun hslash => ?_
        -- with a slash the text itself would have been refused
        exfalso
        have hbody : (windowsDrivePath.body (c :: t)).isSome = true :=
          (driveBody_isSome c t).2 ⟨hl, d, v, ht, .inr hslash⟩
        have hunguarded : ¬ prev.any windowsDrivePath.behind = true := by
          intro hbehind
          cases prev with
          | none => cases hbehind
          | some e =>
            have hblocks := hfree e rfl
            have hne : e ≠ '\\' := fun he => hprev (by rw [he])
            simp only [Option.any_some, windowsDrivePath, Bool.or_eq_true, beq_iff_eq, hne, or_false] at hbehind
            simp only [blocksDrive, Bool.or_eq_false_iff, beq_eq_false_iff_ne] at hblocks
            obtain ⟨⟨⟨hl', hd'⟩, hs'⟩, -⟩ := hblocks
            rcases hbehind with (hb' | hb') | hb'
            · rw [hl'] at hb'; cases hb'
            · rw [hd'] at hb'; cases hb'
            · exact hs' hb'
        rw [if_neg hunguarded] at hm
        rw [hm] at hbody
        cases hbody

/-! ## Sanitised texts -/

theorem driveFrom_none {t : List Char} : DriveFrom none t ↔ DriveBeforeEscape t := by
  unfold DriveFrom DriveBeforeEscape
  simp only [Option.or_none]

/-- The escapes of a text without backslashes hold no two backslashes in a row. -/
theorem windowsUncPath_escape {t : List Char} (hb : '\\' ∉ t) (prev : Option Char) :
    windowsUncPath.search prev (escapeText t ++ [quote]) = false := by
  have hstarts : Starts (· == '\\') windowsUncPath := by
    intro c s hc
    have hone : one (· == '\\') (c :: s) = none := by simp [one, show (c == '\\') = false from hc]
    show (one (· == '\\') (c :: s)).bind _ = none
    rw [hone]
    rfl
  have hpairs : ∀ c, isEscaped c = true → quietPairs windowsUncPath (· == '\\') (escapeChar c) = true :=
    forall_escaped fun n hn he => by revert n; decide
  have hsecond : ∀ c, isEscaped c = true →
      (match escapeChar c with | x :: y :: _ => x == '\\' && y != '\\' | _ => false) = true :=
    forall_escaped fun n hn he => by revert n; decide
  induction t generalizing prev with
  | nil => exact search_quote (windowsUncPath_separates quote_separator)
  | cons c t ih =>
    have hbt := not_mem_tail hb
    have hc : c ≠ '\\' := fun hc => hb (by simp [hc])
    cases he : isEscaped c with
    | true =>
      have hpair := hpairs c he
      have hnext := hsecond c he
      rw [escapeText_cons, List.append_assoc]
      rcases hesc : escapeChar c with _ | ⟨x, _ | ⟨y, l⟩⟩
      · rw [hesc] at hnext; cases hnext
      · rw [hesc] at hnext; cases hnext
      · rw [hesc] at hnext hpair
        obtain ⟨hx, hy⟩ := Bool.and_eq_true_iff.1 hnext
        have hnone : windowsUncPath.matchAt prev (x :: y :: (l ++ (escapeText t ++ [quote]))) = none := by
          have hy' : (y == '\\') = false := by simpa using hy
          simp [matchAt, windowsUncPath, andThen, one, hx, hy']
        rw [List.cons_append, search, List.cons_append, hnone, Option.isSome_none, Bool.false_or, ← List.cons_append,
          search_quiet hstarts hpair]
        exact ih hbt _
    | false =>
      have hnone : windowsUncPath.matchAt prev (c :: (escapeText t ++ [quote])) = none := by
        unfold matchAt
        rw [hstarts c _ (by simpa using hc)]
        simp
      rw [escapeText_cons, escapeChar_plain hc he, List.append_assoc, List.singleton_append, search, hnone]
      exact ih hbt _

/-- What the policy finds in the escapes of a text that it accepts. -/
theorem containsAbsoluteLocalPath_escape {t : List Char} (hb : '\\' ∉ t) (h : containsAbsoluteLocalPath t = false) :
    containsAbsoluteLocalPath (jsonString t) = true ↔ EscapesIntoPath t := by
  unfold containsAbsoluteLocalPath at h
  simp only [Bool.or_eq_false_iff] at h
  obtain ⟨⟨⟨⟨hfile, hdb⟩, hdrive⟩, -⟩, -⟩ := h
  have hdb' : localDatabaseUri.search none (escapeText t ++ [quote]) = false := localDatabaseUri_escape hb id hdb
  have hfile' : fileUri.search none (escapeText t ++ [quote]) = true ↔ FormFeedUri t := fileUri_escape hb id hfile
  have hdrive' : windowsDrivePath.search none (escapeText t ++ [quote]) = true ↔ DriveFrom none t :=
    windowsDrivePath_escape hb rfl (by simp) hdrive
  rw [containsAbsoluteLocalPath_jsonString]
  unfold containsAbsoluteLocalPath EscapesIntoPath RootedInEscapes
  simp only [Bool.or_eq_true, hdb', windowsUncPath_escape hb none, hfile', hdrive', driveFrom_none, Bool.false_eq_true,
    or_false, or_assoc]

theorem sanitizeRemoteText_plain (value : List Char) : '\\' ∉ sanitizeRemoteText value := by
  unfold sanitizeRemoteText
  simp only []
  split
  · decide
  · intro hm
    obtain ⟨c, -, hc⟩ := List.mem_flatMap.1 hm
    split at hc
    · exact absurd hc (by decide)
    · rename_i hne
      exact hne (List.mem_singleton.1 hc).symm

theorem sanitizeRemoteText_safe (value : List Char) : containsAbsoluteLocalPath (sanitizeRemoteText value) = false := by
  unfold sanitizeRemoteText
  simp only []
  split
  · decide +kernel
  · rename_i h
    exact Bool.eq_false_iff.2 h

/-! ## Summaries -/

mutual

theorem keysOf_normalize (v : Json) : keysOf (normalize v) = keysOf v := by
  match v with
  | .null | .bool _ | .int _ | .float _ | .str _ => rfl
  | .arr items => exact keysOfItems_normalize items
  | .obj fields => exact keysOfFields_normalize fields

theorem keysOfItems_normalize (items : List Json) : keysOfItems (normalizeItems items) = keysOfItems items := by
  match items with
  | [] => rfl
  | item :: items => simp only [normalizeItems, keysOfItems, keysOf_normalize item, keysOfItems_normalize items]

theorem keysOfFields_normalize (fields : List (String × Json)) :
    keysOfFields (normalizeFields fields) = keysOfFields fields := by
  match fields with
  | [] => rfl
  | (name, value) :: fields =>
    simp only [normalizeFields, keysOfFields, keysOf_normalize value, keysOfFields_normalize fields]

end

/-- A string as it is sent. -/
def sentText (s : String) : String := String.ofList (sanitizeRemoteText s.toList)

mutual

theorem stringsOf_normalize (v : Json) : stringsOf (normalize v) = (stringsOf v).map sentText := by
  match v with
  | .null | .bool _ | .int _ | .float _ | .str _ => rfl
  | .arr items => exact stringsOfItems_normalize items
  | .obj fields => exact stringsOfFields_normalize fields

theorem stringsOfItems_normalize (items : List Json) :
    stringsOfItems (normalizeItems items) = (stringsOfItems items).map sentText := by
  match items with
  | [] => rfl
  | item :: items =>
    simp only [normalizeItems, stringsOfItems, stringsOf_normalize item, stringsOfItems_normalize items, List.map_append]

theorem stringsOfFields_normalize (fields : List (String × Json)) :
    stringsOfFields (normalizeFields fields) = (stringsOfFields fields).map sentText := by
  match fields with
  | [] => rfl
  | (name, value) :: fields =>
    simp only [normalizeFields, stringsOfFields, stringsOf_normalize value, stringsOfFields_normalize fields,
      List.map_append]

end

end Switchboard
