import Switchboard.Proof.PytestCounts
import Switchboard.Spec.Transport

/-!
# The URLs of issue associations

A comment names the pull request it belongs to by a URL under the configured origin and path prefix.

* `normalizeGithubApiUrl_ok`: what a configured URL is made of.
* `make_configured`: its origin and path prefix, as the transport reads them.
* `decodeRoute_canonical`: the route of a valid target is read back.
* `decodeIssueAssociation_ok`: what is accepted is spelled in the one canonical way.
* `decodeIssueAssociation_roundTrip`: both directions, for every configuration.
-/

namespace Switchboard

open PyText Transaction

variable {T : Url.Tables} {U : CharTable}

/-! ## The canonical spelling -/

/-- The path of the pull request `number` under a path prefix. -/
def associationPath (pathPrefix route : List Char) (number : ℤ) : List Char :=
  withoutSlashes pathPrefix ++ '/' :: (route ++ ("/issues/".toList ++ (toString number).toList))

/-- The text of an origin. -/
def originText (origin : Origin) : List Char :=
  origin.1 ++ ':' :: '/' :: '/' :: hostWithPort origin.2.1 origin.2.2

/-- The URL of the pull request `number` under an origin and a path prefix. -/
def associationUrl (origin : Origin) (pathPrefix route : List Char) (number : ℤ) : List Char :=
  originText origin ++ associationPath pathPrefix route number

/-! ## Configured URLs -/

section configured

/-- What normalization leaves of a URL. -/
structure Configured (host : List Char) (port : Option ℕ) (path : List Char) : Prop where
  plainHost : Url.PlainHost host
  nonempty : host ≠ []
  port : ∀ n ∈ port, n ≤ 65535
  plain : ∀ c ∈ path, Url.plain c = true
  head : ∀ c ∈ path.head?, c = '/'
  ends : withoutSlashes path = path

variable {host path : List Char} {port : Option ℕ}

theorem githubHost_chars (h : githubHost host = true) : ∀ c ∈ host, isAsciiAlnum c = true ∨ c = '.' ∨ c = '-' := by
  simp only [githubHost, Bool.and_eq_true, List.all_eq_true, Bool.or_eq_true, beq_iff_eq, or_assoc] at h
  exact h.1.2

theorem unreserved_of_apiPathChar {c : Char} (h : apiPathChar c = true) : Url.unreserved c = true := by
  rcases Bool.or_eq_true_iff.1 h with h | h
  · exact Bool.or_eq_true_iff.2 (.inl h)
  · refine Bool.or_eq_true_iff.2 (.inr ?_)
    simp only [List.contains_eq_mem, List.mem_cons, List.not_mem_nil, or_false, decide_eq_true_eq] at h ⊢
    tauto

/-- A path that the pattern accepts is plain. -/
theorem githubApiPath_plain (h : githubApiPath path = true) :
    (∀ c ∈ path, Url.plain c = true) ∧ ∀ c ∈ path.head?, c = '/' := by
  have hjoin : ['/'].intercalate (path.splitOn '/') = path := List.intercalate_splitOn '/'
  unfold githubApiPath at h
  split at h
  · rename_i parts hsplit
    rw [hsplit] at hjoin
    constructor
    · intro c hc
      rw [← hjoin] at hc
      rcases mem_intercalate hc with hc | ⟨part, hpart, hc⟩
      · obtain rfl : c = '/' := by simpa using hc
        decide
      · rcases List.mem_cons.1 hpart with rfl | hpart
        · cases hc
        · have hchars := (Bool.and_eq_true_iff.1 (List.all_eq_true.1 h part hpart)).2
          have hc := unreserved_of_apiPathChar (List.all_eq_true.1 hchars c hc)
          exact (Url.unreserved_ascii hc).2.2.1
    · intro c hc
      cases parts with
      | nil =>
        rw [← hjoin] at hc
        cases hc
      | cons part parts =>
        rw [← hjoin, List.intercalate_cons_cons] at hc
        exact (Option.some.inj hc).symm
  · cases h

theorem withoutSlashes_idem (s : List Char) : withoutSlashes (withoutSlashes s) = withoutSlashes s :=
  List.rdropWhile_idempotent _ s

theorem withoutSlashes_eq_self {s : List Char} : withoutSlashes s = s ↔ s.getLast? ≠ some '/' := by
  unfold withoutSlashes
  rw [List.rdropWhile_eq_self_iff]
  constructor
  · intro h hlast
    have hne : s ≠ [] := by
      rintro rfl
      cases hlast
    rw [List.getLast?_eq_some_getLast hne] at hlast
    exact h hne (by simpa using Option.some.inj hlast)
  · intro h hne hlast
    rw [List.getLast?_eq_some_getLast hne] at h
    exact h (congrArg some (by simpa using hlast))

theorem withoutSlashes_slash (h : withoutSlashes path = path) : withoutSlashes (path ++ ['/']) = path := by
  unfold withoutSlashes
  rw [List.rdropWhile_concat_pos _ _ _ (by decide)]
  exact h

/-- **A configured URL is `https`, a plain host, a port and a plain path.** -/
theorem normalizeGithubApiUrl_ok {raw apiUrl : List Char} (h : normalizeGithubApiUrl T raw = .ok apiUrl) :
    ∃ host port path, Configured host port path ∧ apiUrl = "https://".toList ++ hostWithPort host port ++ path := by
  unfold normalizeGithubApiUrl at h
  cases hsplit : Url.urlsplit T (strip raw) with
  | none => simp [hsplit] at h
  | some parsed =>
    simp only [hsplit] at h
    cases hport : parsed.port with
    | none => simp [hport] at h
    | some port =>
      simp only [hport] at h
      simp only [except_bind_ok, ensure_ok, Bool.and_eq_true, Bool.not_eq_true'] at h
      obtain ⟨-, hparts, -, hpath, h⟩ := h
      obtain ⟨⟨⟨⟨⟨-, hnonempty⟩, hhost⟩, -⟩, -⟩, -⟩ := hparts
      have hchars := githubHost_chars hhost
      have hascii : ∀ c ∈ parsed.hostname T, c.toNat < 128 := by
        intro c hc
        rcases hchars c hc with hc | rfl | rfl
        · have := Url.isAsciiAlnum_range hc
          omega
        · decide
        · decide
      have hlower := T.lower_ascii _ hascii
      obtain ⟨hplain, hhead⟩ := githubApiPath_plain hpath.1
      refine ⟨(parsed.hostname T).map Char.toLower, port, withoutSlashes parsed.path, ?_, ?_⟩
      · refine ⟨Url.plainHost_toLower hchars, ?_, ?_, hplain, hhead, withoutSlashes_idem _⟩
        · intro hnil
          rw [List.map_eq_nil_iff.1 hnil] at hnonempty
          cases hnonempty
        · exact Url.SplitResult.port_le hport
      · rw [← hlower]
        exact (Except.ok.inj h).symm

theorem hostWithPort_eq : hostWithPort host port = Url.written host port := rfl

theorem https_plainScheme : Url.PlainScheme "https".toList :=
  ⟨⟨'h', "ttps".toList, rfl, by decide⟩, by decide, by decide⟩

variable (T) in
/-- The origin of a URL that is written under a configured origin. -/
theorem originOf_written (h : Configured host port path) (rest : List Char) :
    originOf T ⟨"https".toList, Url.written host port, rest, [], []⟩ = some ("https".toList, host, port) := by
  have hnetloc : Url.SplitResult.netloc ⟨"https".toList, Url.written host port, rest, [], []⟩ =
      Url.written host port := rfl
  have hhost := Url.hostname_written T h.plainHost hnetloc
  have hport := Url.port_written h.plainHost hnetloc h.port
  have hlower := T.lower_ascii host fun c hc => (Url.plainNetloc_iff.1 (h.plainHost.chars c hc).1).2.1
  have hhttps := T.lower_ascii "https".toList (by decide)
  unfold originOf
  rw [hport, hhost, hlower, h.plainHost.lower, hhttps]
  rfl

/-- What the transport reads back of a configured URL. -/
theorem make_configured (h : Configured host port path) :
    GitHubTransport.make T ("https://".toList ++ hostWithPort host port ++ path) =
      some ⟨"https://".toList ++ hostWithPort host port ++ path ++ ['/'], ("https".toList, host, port),
        path ++ ['/']⟩ := by
  have hwritten := Url.written_plain port h.plainHost
  -- nothing is stripped: the path does not end in a slash, and the network location has none
  have hends : withoutSlashes ("https://".toList ++ hostWithPort host port ++ path) =
      "https://".toList ++ hostWithPort host port ++ path := by
    have hslash : '/' ∉ Url.written host port := fun hc => (Url.plainNetloc_iff.1 (hwritten _ hc)).2.2.1 rfl
    have hne : Url.written host port ≠ [] := fun hnil => h.nonempty (List.append_eq_nil_iff.1 hnil).1
    obtain ⟨c, hc⟩ : ∃ c, (Url.written host port).getLast? = some c :=
      Option.ne_none_iff_exists'.1 (by simpa using hne)
    have hlast := withoutSlashes_eq_self.1 h.ends
    rw [withoutSlashes_eq_self, hostWithPort_eq, List.getLast?_append, List.getLast?_append, hc]
    intro heq
    cases hp : path.getLast? with
    | some d => exact hlast (hp.trans (by simpa [hp] using heq))
    | none =>
      obtain rfl : c = '/' := by simpa [hp] using heq
      exact hslash (List.mem_of_getLast? hc)
  have hpath : ∀ c ∈ path ++ ['/'], Url.plain c = true := by
    intro c hc
    rcases List.mem_append.1 hc with hc | hc
    · exact h.plain c hc
    · obtain rfl : c = '/' := by simpa using hc
      decide
  have hhead : ∀ c ∈ (path ++ ['/']).head?, c = '/' := by
    intro c hc
    cases path with
    | nil => exact (Option.some.inj hc).symm
    | cons d path => exact h.head c hc
  have hsplit := Url.urlsplit_eq T https_plainScheme hwritten hpath hhead
  have htext : "https://".toList ++ hostWithPort host port ++ path ++ ['/'] =
      "https".toList ++ ':' :: '/' :: '/' :: (Url.written host port ++ (path ++ ['/'])) := by
    simp [hostWithPort_eq]
  unfold GitHubTransport.make
  rw [hends, htext]
  simp only [hsplit, originOf_written T h, Option.bind_eq_bind, Option.bind_some]
  rfl

end configured

/-! ## Names and numbers -/

section targets

/-- A part of a repository name. -/
structure NamePart (part : List Char) : Prop where
  unreserved : ∀ c ∈ part, Url.unreserved c = true

namespace NamePart

variable {part : List Char}

theorem no_slash (h : NamePart part) : '/' ∉ part := fun hc => (Url.unreserved_ascii (h.unreserved _ hc)).2.2.2 rfl

theorem quote (h : NamePart part) : Url.quote part = part := Url.quote_unreserved h.unreserved

theorem unquote (h : NamePart part) : Url.unquote part = part := Url.unquote_unreserved h.unreserved

end NamePart

theorem namePart_of_repositoryChar {part : List Char} (h : part.all repositoryChar = true) : NamePart part := by
  refine ⟨fun c hc => ?_⟩
  have hc := List.all_eq_true.1 h c hc
  simp only [repositoryChar, Bool.or_eq_true, beq_iff_eq] at hc
  simp only [Url.unreserved, Bool.or_eq_true, List.contains_eq_mem, List.mem_cons, List.not_mem_nil, or_false,
    decide_eq_true_eq]
  tauto

variable {name : String} {owner repository route : List Char} {number : ℤ}

/-- A valid name is an owner and a repository. -/
theorem validateRepositoryFullName_parts (h : validateRepositoryFullName name = .ok ()) :
    ∃ owner repository, name.toList = owner ++ '/' :: repository ∧ NamePart owner ∧ NamePart repository := by
  have hjoin : ['/'].intercalate (name.toList.splitOn '/') = name.toList := List.intercalate_splitOn '/'
  unfold validateRepositoryFullName at h
  split at h
  · rename_i owner repository hsplit
    simp only [except_bind_ok, ensure_ok, List.all_cons, List.all_nil, Bool.and_true, Bool.and_eq_true] at h
    obtain ⟨-, ⟨⟨-, howner⟩, -, hrepository⟩, -⟩ := h
    refine ⟨owner, repository, ?_, namePart_of_repositoryChar howner, namePart_of_repositoryChar hrepository⟩
    rw [← hjoin, hsplit]
    simp
  · cases h

theorem repositoryRoute_parts (h : validateRepositoryFullName name = .ok ())
    (hname : name.toList = owner ++ '/' :: repository) (howner : NamePart owner) (hrepository : NamePart repository) :
    repositoryRoute name = .ok ("repos/".toList ++ owner ++ '/' :: repository, owner, repository) := by
  unfold repositoryRoute
  rw [h, hname]
  simp only [Url.partition_append howner.no_slash, howner.quote, hrepository.quote]

/-- The route shows what it was made for. -/
theorem repositoryRoute_ok (h : repositoryRoute name = .ok (route, owner, repository)) :
    validateRepositoryFullName name = .ok () ∧ name.toList = owner ++ '/' :: repository ∧ NamePart owner ∧
      NamePart repository ∧ route = "repos/".toList ++ owner ++ '/' :: repository := by
  cases hvalid : validateRepositoryFullName name with
  | error e => simp [repositoryRoute, hvalid] at h
  | ok u =>
    obtain ⟨owner', repository', hname, howner, hrepository⟩ := validateRepositoryFullName_parts hvalid
    have hroute := repositoryRoute_parts hvalid hname howner hrepository
    obtain ⟨rfl, rfl, rfl⟩ : "repos/".toList ++ owner' ++ '/' :: repository' = route ∧ owner' = owner ∧
        repository' = repository := by simpa using hroute.symm.trans h
    exact ⟨rfl, hname, howner, hrepository, rfl⟩

/-- A slash splits a text that has no other. -/
theorem parts_of_splitOn {u v a b : List Char} (h : (u ++ '/' :: v).splitOn '/' = [a, b]) : u = a ∧ v = b := by
  rw [List.splitOn_append_cons_self] at h
  have hu : u.splitOn '/' ≠ [] := List.splitOn_ne_nil _ _
  have hv : v.splitOn '/' ≠ [] := List.splitOn_ne_nil _ _
  obtain ⟨x, xs, hx⟩ := List.exists_cons_of_ne_nil hu
  obtain ⟨y, ys, hy⟩ := List.exists_cons_of_ne_nil hv
  rw [hx, hy, List.cons_append, List.cons.injEq] at h
  obtain ⟨rfl, h⟩ := h
  cases xs with
  | nil =>
    obtain ⟨rfl, rfl⟩ : y = b ∧ ys = [] := by simpa using h
    constructor
    · have hjoin : ['/'].intercalate (u.splitOn '/') = u := List.intercalate_splitOn '/'
      rw [← hjoin, hx, List.intercalate_singleton]
    · have hjoin : ['/'].intercalate (v.splitOn '/') = v := List.intercalate_splitOn '/'
      rw [← hjoin, hy, List.intercalate_singleton]
  | cons z zs => simp at h

theorem intToString (n : ℕ) : (toString (n : ℤ)).toList = Nat.toDigits 10 n := by
  rw [Int.toString_eq_repr]
  exact Nat.toList_repr

theorem decimal_digit {c : Char} (h : isAsciiDigit c = true) : U.decimal c = some (JsonText.digitValue c) := by
  have halnum : isAsciiAlnum c = true := by rw [isAsciiAlnum, h, Bool.or_true]
  have hrange := Url.isAsciiAlnum_range halnum
  rw [(U.ascii c (by omega)).1, if_pos h]
  rfl

theorem underscoredDigits_ascii {digits : List Char} (hne : digits ≠ []) (h : ∀ c ∈ digits, isAsciiDigit c = true) :
    underscoredDigits U digits = some (digits.map JsonText.digitValue) := by
  induction digits with
  | nil => exact absurd rfl hne
  | cons c digits ih =>
    have hc := decimal_digit (U := U) (h c List.mem_cons_self)
    cases digits with
    | nil => simp [underscoredDigits, hc]
    | cons d digits =>
      have hd : d ≠ '_' := by
        rintro rfl
        exact absurd (h '_' (by simp)) (by decide)
      have hrest := ih (by simp) fun e he => h e (List.mem_cons_of_mem _ he)
      rw [underscoredDigits.eq_def]
      simp [hc, hrest, hd]

/-- A number that is written without leading zeros is read back. -/
theorem pythonInt_toDigits {n : ℕ} (hn : (n : ℤ) ≤ maxSafePullRequestNumber) :
    pythonInt U (Nat.toDigits 10 n) = some (n : ℤ) := by
  have hdigits : ∀ c ∈ Nat.toDigits 10 n, isAsciiDigit c = true := fun c hc => isAsciiDigit_of_toDigits hc
  have hspace : ∀ c ∈ Nat.toDigits 10 n, isSpace c = false := by
    intro c hc
    rw [Bool.eq_false_iff]
    intro hs
    have hnot := isAsciiAlnum_of_isSpace hs
    rw [isAsciiAlnum, hdigits c hc, Bool.or_true] at hnot
    cases hnot
  have hlength : (Nat.toDigits 10 n).length ≤ 10 := by
    unfold maxSafePullRequestNumber at hn
    exact (Nat.length_toDigits_le_iff (by decide) (by decide)).2 (by omega)
  have hfold : ((Nat.toDigits 10 n).map JsonText.digitValue).foldl (fun n d => n * 10 + d) 0 = n := by
    rw [List.foldl_map]
    exact JsonText.natOfDigits_toDigits n
  have hread := underscoredDigits_ascii (U := U) Nat.toDigits_ne_nil hdigits
  have hshort : ¬maximumDigits < ((Nat.toDigits 10 n).map JsonText.digitValue).length := by
    unfold maximumDigits
    rw [List.length_map]
    omega
  unfold pythonInt
  rw [strip_eq_self hspace]
  -- no sign stands before the digits
  have hminus : (Nat.toDigits 10 n).head? ≠ some '-' := fun hc =>
    absurd (hdigits '-' (List.mem_of_mem_head? hc)) (by decide)
  have hplus : (Nat.toDigits 10 n).head? ≠ some '+' := fun hc =>
    absurd (hdigits '+' (List.mem_of_mem_head? hc)) (by decide)
  split
  rename_i negative body hsign
  obtain ⟨rfl, rfl⟩ : false = negative ∧ Nat.toDigits 10 n = body := by
    split at hsign
    · rename_i heq
      exact absurd (congrArg List.head? heq) hminus
    · rename_i heq
      exact absurd (congrArg List.head? heq) hplus
    · exact Prod.mk.inj hsign
  simp only [hread, Option.bind_eq_bind, Option.bind_some, hfold, if_neg hshort, Bool.false_eq_true, if_false]

/-- **The route of a valid target is read back.** -/
theorem decodeRoute_canonical (h : validateRepositoryFullName name = .ok ())
    (hname : name.toList = owner ++ '/' :: repository) (howner : NamePart owner) (hrepository : NamePart repository)
    (hpos : 1 ≤ number) (hmax : number ≤ maxSafePullRequestNumber) :
    decodeRoute U owner repository (toString number).toList = .ok (name, number) := by
  obtain ⟨n, rfl⟩ : ∃ n : ℕ, number = n := ⟨number.toNat, by omega⟩
  have hread := pythonInt_toDigits (U := U) hmax
  have hback : String.ofList (owner ++ '/' :: repository) = name := by rw [← hname, String.ofList_toList]
  unfold decodeRoute
  simp only [howner.unquote, hrepository.unquote, hback, intToString, hread, h, howner.quote, hrepository.quote]
  simp [ensure, hpos, hmax]

end targets

/-! ## Associations -/

section associations

variable {name : String} {owner repository route pathPrefix : List Char} {origin : Origin} {number : ℤ}

theorem toString_no_slash (hpos : 1 ≤ number) : '/' ∉ (toString number).toList := by
  obtain ⟨n, rfl⟩ : ∃ n : ℕ, number = n := ⟨number.toNat, by omega⟩
  rw [intToString]
  exact fun hc => absurd (isAsciiDigit_of_toDigits hc) (by decide)

theorem behind_split (howner : NamePart owner) (hrepository : NamePart repository) (hpos : 1 ≤ number) :
    (owner ++ '/' :: (repository ++ '/' :: ("issues".toList ++ '/' :: (toString number).toList))).splitOn '/' =
      [owner, repository, "issues".toList, (toString number).toList] := by
  rw [List.splitOn_append_cons_self, List.splitOn_append_cons_self, List.splitOn_append_cons_self,
    List.splitOn_eq_singleton howner.no_slash, List.splitOn_eq_singleton hrepository.no_slash,
    List.splitOn_eq_singleton (toString_no_slash hpos), List.splitOn_eq_singleton (by decide)]
  rfl

/-- Behind the prefix of a canonical path stand the four parts of the route. -/
theorem associationPath_eq : associationPath pathPrefix ("repos/".toList ++ owner ++ '/' :: repository) number =
    routePrefix pathPrefix ++
      (owner ++ '/' :: (repository ++ '/' :: ("issues".toList ++ '/' :: (toString number).toList))) := by
  simp [associationPath, routePrefix]

/-- A route that is accepted is spelled as the target that is returned. -/
theorem decodeRoute_ok {ownerPart repositoryPart numberPart : List Char}
    (h : decodeRoute U ownerPart repositoryPart numberPart = .ok (name, number)) :
    validateRepositoryFullName name = .ok () ∧ 1 ≤ number ∧ number ≤ maxSafePullRequestNumber ∧
      name.toList = ownerPart ++ '/' :: repositoryPart ∧ NamePart ownerPart ∧ NamePart repositoryPart ∧
      numberPart = (toString number).toList := by
  unfold decodeRoute at h
  cases hread : pythonInt U numberPart with
  | none => simp [hread] at h
  | some read =>
    simp only [hread] at h
    split at h
    · cases h
    · rename_i hvalid
      simp only [except_bind_ok, ensure_ok, except_pure_ok, Bool.and_eq_true, beq_iff_eq, decide_eq_true_eq,
        Prod.mk.injEq] at h
      obtain ⟨-, ⟨⟨⟨howner, hrepository⟩, hnumber⟩, hpos, hmax⟩, rfl, rfl⟩ := h
      obtain ⟨owner, repository, hname, hownerPart, hrepositoryPart⟩ := validateRepositoryFullName_parts hvalid
      have hsplit : (Url.unquote ownerPart ++ '/' :: Url.unquote repositoryPart).splitOn '/' =
          [owner, repository] := by
        rw [String.toList_ofList] at hname
        rw [hname, List.splitOn_append_cons_self, List.splitOn_eq_singleton hownerPart.no_slash,
          List.splitOn_eq_singleton hrepositoryPart.no_slash]
        rfl
      obtain ⟨hleft, hright⟩ := parts_of_splitOn hsplit
      -- the texts between the slashes are unreserved, so quoting leaves them
      rw [hleft, hownerPart.quote] at howner
      rw [hright, hrepositoryPart.quote] at hrepository
      subst howner hrepository
      exact ⟨hvalid, hpos, hmax, hname, hownerPart, hrepositoryPart, hnumber.symm⟩

/-- **What is accepted is spelled in the one canonical way.** -/
theorem decodeIssueAssociation_ok {url : String}
    (h : decodeIssueAssociation T U (.str url) origin pathPrefix = .ok (name, number)) :
    validateRepositoryFullName name = .ok () ∧ 1 ≤ number ∧ number ≤ maxSafePullRequestNumber ∧
      ∃ parsed route owner repository, Url.urlsplit T url.toList = some parsed ∧
        repositoryRoute name = .ok (route, owner, repository) ∧
        parsed.path = associationPath pathPrefix route number := by
  simp only [decodeIssueAssociation, except_bind_ok] at h
  obtain ⟨-, -, h⟩ := h
  cases hsplit : Url.urlsplit T url.toList with
  | none => simp [hsplit] at h
  | some parsed =>
    simp only [hsplit] at h
    cases horigin : originOf T parsed with
    | none => simp [horigin] at h
    | some found =>
      simp only [horigin, except_bind_ok, ensure_ok, Bool.and_eq_true] at h
      obtain ⟨-, ⟨⟨⟨⟨-, hstarts⟩, -⟩, -⟩, -⟩, h⟩ := h
      split at h
      · rename_i ownerPart repositoryPart issues numberPart hparts
        simp only [except_bind_ok, ensure_ok] at h
        obtain ⟨-, hissues, h⟩ := h
        obtain ⟨hvalid, hpos, hmax, hname, howner, hrepository, rfl⟩ := decodeRoute_ok h
        obtain rfl : issues = "issues".toList := by simpa using hissues
        refine ⟨hvalid, hpos, hmax, parsed, _, _, _, rfl, repositoryRoute_parts hvalid hname howner hrepository, ?_⟩
        obtain ⟨behind, hbehind⟩ := List.isPrefixOf_iff_prefix.1 hstarts
        rw [← hbehind, List.drop_left, ← behind_split howner hrepository hpos] at hparts
        have hsame := congrArg (['/'].intercalate ·) hparts
        simp only [List.intercalate_splitOn] at hsame
        rw [← hbehind, hsame, associationPath_eq]
      · cases h

/-- **A canonical path names one target.** -/
theorem associationPath_inj {name' : String} {route' owner' repository' : List Char} {number' : ℤ}
    (h : repositoryRoute name = .ok (route, owner, repository))
    (h' : repositoryRoute name' = .ok (route', owner', repository')) (hpos : 1 ≤ number) (hpos' : 1 ≤ number')
    (hpath : associationPath pathPrefix route number = associationPath pathPrefix route' number') :
    name = name' ∧ number = number' := by
  obtain ⟨-, hname, howner, hrepository, rfl⟩ := repositoryRoute_ok h
  obtain ⟨-, hname', howner', hrepository', rfl⟩ := repositoryRoute_ok h'
  rw [associationPath_eq, associationPath_eq, List.append_cancel_left_eq] at hpath
  have hparts := congrArg (List.splitOn '/') hpath
  rw [behind_split howner hrepository hpos, behind_split howner' hrepository' hpos'] at hparts
  simp only [List.cons.injEq, and_true, true_and] at hparts
  obtain ⟨rfl, rfl, hnumber⟩ := hparts
  constructor
  · rw [← String.toList_inj, hname, hname']
  · obtain ⟨n, rfl⟩ : ∃ n : ℕ, number = n := ⟨number.toNat, by omega⟩
    obtain ⟨n', rfl⟩ : ∃ n' : ℕ, number' = n' := ⟨number'.toNat, by omega⟩
    rw [intToString, intToString] at hnumber
    rw [← Nat.ofDigitChars_ten_toDigits (n := n), hnumber, Nat.ofDigitChars_ten_toDigits]

theorem associationPath_plain {path : List Char} (hplain : ∀ c ∈ path, Url.plain c = true)
    (hends : withoutSlashes path = path) (howner : NamePart owner) (hrepository : NamePart repository) (hpos : 1 ≤ number) :
    ∀ c ∈ associationPath (path ++ ['/']) ("repos/".toList ++ owner ++ '/' :: repository) number,
      Url.plain c = true := by
  have hunreserved : ∀ part, NamePart part → ∀ c ∈ part, Url.plain c = true := fun part hpart c hc =>
    (Url.unreserved_ascii (hpart.unreserved c hc)).2.2.1
  have hnumber : ∀ c ∈ (toString number).toList, Url.plain c = true := by
    intro c hc
    obtain ⟨n, rfl⟩ : ∃ n : ℕ, number = n := ⟨number.toNat, by omega⟩
    rw [intToString] at hc
    have halnum : isAsciiAlnum c = true := by rw [isAsciiAlnum, isAsciiDigit_of_toDigits hc, Bool.or_true]
    exact (Url.plainNetloc_iff.1 (Url.plainNetloc_alnum halnum).1).1
  intro c hc
  rw [associationPath_eq, routePrefix, withoutSlashes_slash hends] at hc
  simp only [List.mem_append, List.mem_cons] at hc
  rcases hc with (hc | hc) | hc | rfl | hc | rfl | hc | rfl | hc
  · exact hplain c hc
  · revert c
    decide
  · exact hunreserved owner howner c hc
  · decide
  · exact hunreserved repository hrepository c hc
  · decide
  · revert c
    decide
  · decide
  · exact hnumber c hc

theorem associationPath_head {path : List Char} (route : List Char) (number : ℤ) (hhead : ∀ c ∈ path.head?, c = '/')
    (hends : withoutSlashes path = path) :
    ∀ c ∈ (associationPath (path ++ ['/']) route number).head?, c = '/' := by
  intro c hc
  rw [associationPath, withoutSlashes_slash hends] at hc
  cases path with
  | nil => exact (Option.some.inj hc).symm
  | cons d path => exact hhead c hc

/-- A URL whose parts pass the checks is as good as its route. -/
theorem decodeIssueAssociation_split {url ownerPart repositoryPart numberPart : List Char} {parsed : Url.SplitResult}
    (hsplit : Url.urlsplit T url = some parsed) (horigin : originOf T parsed = some origin)
    (hstarts : (routePrefix pathPrefix).isPrefixOf parsed.path = true) (huser : parsed.userinfo = none)
    (hquery : parsed.query = []) (hfragment : parsed.fragment = [])
    (hparts : (parsed.path.drop (routePrefix pathPrefix).length).splitOn '/' =
      [ownerPart, repositoryPart, "issues".toList, numberPart]) :
    decodeIssueAssociation T U (.str (String.ofList url)) origin pathPrefix =
      if url.length ≤ maxGithubStringLength then decodeRoute U ownerPart repositoryPart numberPart
      else .error transportFailed := by
  simp only [decodeIssueAssociation, String.length_ofList, String.toList_ofList, hsplit, horigin, hstarts, huser,
    hquery, hfragment, hparts]
  by_cases hlength : url.length ≤ maxGithubStringLength
  · simp only [ensure, hlength, decide_true, if_true]
    simp
    rfl
  · simp only [ensure, hlength, decide_false, Bool.false_eq_true, if_false]
    rfl

/-- The canonical URL under a configured origin is read back, unless it is longer than a text may be. -/
theorem decodeIssueAssociation_canonical {host path : List Char} {port : Option ℕ}
    (hconfigured : Configured host port path) (h : repositoryRoute name = .ok (route, owner, repository)) (hpos : 1 ≤ number)
    (hmax : number ≤ maxSafePullRequestNumber) :
    decodeIssueAssociation T U
        (.str (String.ofList (associationUrl ("https".toList, host, port) (path ++ ['/']) route number)))
        ("https".toList, host, port) (path ++ ['/']) =
      if (associationUrl ("https".toList, host, port) (path ++ ['/']) route number).length ≤ maxGithubStringLength
      then .ok (name, number) else .error transportFailed := by
  obtain ⟨hvalid, hname, howner, hrepository, rfl⟩ := repositoryRoute_ok h
  have hsplit := Url.urlsplit_eq T https_plainScheme (Url.written_plain port hconfigured.plainHost)
    (associationPath_plain hconfigured.plain hconfigured.ends howner hrepository hpos)
    (associationPath_head ("repos/".toList ++ owner ++ '/' :: repository) number hconfigured.head hconfigured.ends)
  have htext : associationUrl ("https".toList, host, port) (path ++ ['/'])
        ("repos/".toList ++ owner ++ '/' :: repository) number =
      "https".toList ++ ':' :: '/' :: '/' :: (Url.written host port ++
        associationPath (path ++ ['/']) ("repos/".toList ++ owner ++ '/' :: repository) number) := by
    simp [associationUrl, originText, hostWithPort_eq]
  have horigin := originOf_written T hconfigured
    (associationPath (path ++ ['/']) ("repos/".toList ++ owner ++ '/' :: repository) number)
  have hstarts : (routePrefix (path ++ ['/'])).isPrefixOf
      (associationPath (path ++ ['/']) ("repos/".toList ++ owner ++ '/' :: repository) number) = true := by
    rw [associationPath_eq]
    exact List.isPrefixOf_iff_prefix.2 (List.prefix_append _ _)
  have hdrop : ((associationPath (path ++ ['/']) ("repos/".toList ++ owner ++ '/' :: repository) number).drop
      (routePrefix (path ++ ['/'])).length).splitOn '/' =
      [owner, repository, "issues".toList, (toString number).toList] := by
    rw [associationPath_eq, List.drop_left]
    exact behind_split howner hrepository hpos
  have hroute := decodeRoute_canonical (U := U) hvalid hname howner hrepository hpos hmax
  have hnetloc : Url.SplitResult.netloc ⟨"https".toList, Url.written host port,
      associationPath (path ++ ['/']) ("repos/".toList ++ owner ++ '/' :: repository) number, [], []⟩ =
      Url.written host port := rfl
  have huser := Url.userinfo_written hconfigured.plainHost hnetloc
  rw [← hroute, ← decodeIssueAssociation_split (htext ▸ hsplit) horigin hstarts huser rfl rfl hdrop]

/-- **Association URLs round-trip and are canonical.** Under every configuration the URL of a valid target is
read back as this target, unless the URL is longer than a text may be. Whatever is accepted, under any origin and
prefix, has the canonical path of the target that is returned, and this path names no other target. -/
theorem decodeIssueAssociation_roundTrip (T : Url.Tables) (U : CharTable) :
    (∀ raw apiUrl, normalizeGithubApiUrl T raw = .ok apiUrl →
      ∃ transport, GitHubTransport.make T apiUrl = some transport ∧
        ∀ name number, validateRepositoryFullName name = .ok () → 1 ≤ number → number ≤ maxSafePullRequestNumber →
          ∃ route owner repository url, repositoryRoute name = .ok (route, owner, repository) ∧
            url = associationUrl transport.expectedOrigin transport.expectedPathPrefix route number ∧
            decodeIssueAssociation T U (.str (String.ofList url)) transport.expectedOrigin
                transport.expectedPathPrefix =
              if url.length ≤ maxGithubStringLength then .ok (name, number) else .error transportFailed) ∧
    (∀ url origin pathPrefix name number,
      decodeIssueAssociation T U (.str url) origin pathPrefix = .ok (name, number) →
        validateRepositoryFullName name = .ok () ∧ 1 ≤ number ∧ number ≤ maxSafePullRequestNumber ∧
          ∃ parsed route owner repository, Url.urlsplit T url.toList = some parsed ∧
            repositoryRoute name = .ok (route, owner, repository) ∧
            parsed.path = associationPath pathPrefix route number) ∧
    (∀ pathPrefix name name' route route' owner owner' repository repository' number number',
      repositoryRoute name = .ok (route, owner, repository) →
        repositoryRoute name' = .ok (route', owner', repository') → 1 ≤ number → 1 ≤ number' →
        associationPath pathPrefix route number = associationPath pathPrefix route' number' →
        name = name' ∧ number = number') := by
  refine ⟨?_, ?_, ?_⟩
  · intro raw apiUrl hraw
    obtain ⟨host, port, path, hconfigured, rfl⟩ := normalizeGithubApiUrl_ok hraw
    refine ⟨_, make_configured hconfigured, ?_⟩
    intro name number hvalid hpos hmax
    obtain ⟨owner, repository, hname, howner, hrepository⟩ := validateRepositoryFullName_parts hvalid
    have hroute := repositoryRoute_parts hvalid hname howner hrepository
    exact ⟨_, _, _, _, hroute, rfl, decodeIssueAssociation_canonical hconfigured hroute hpos hmax⟩
  · intro url origin pathPrefix name number h
    exact decodeIssueAssociation_ok h
  · intro pathPrefix name name' route route' owner owner' repository repository' number number' h h' hpos hpos' hpath
    exact associationPath_inj h h' hpos hpos' hpath

/-! ### Examples -/

/-- ASCII texts: they are their own normalization, and no address stands in brackets. -/
def asciiTables : Url.Tables where
  lower s := s.map Char.toLower
  nfkc s := s
  bracketed _ := false
  lower_ascii _ _ := rfl

/-- The default origin. -/
theorem defaultOrigin_roundTrip :
    ∃ transport, GitHubTransport.make asciiTables "https://api.github.com".toList = some transport ∧
      ∃ route owner repository url, repositoryRoute "octo/repo" = .ok (route, owner, repository) ∧
        url = associationUrl transport.expectedOrigin transport.expectedPathPrefix route 7 ∧
        decodeIssueAssociation asciiTables asciiTable (.str (String.ofList url)) transport.expectedOrigin
            transport.expectedPathPrefix =
          if url.length ≤ maxGithubStringLength then .ok ("octo/repo", 7) else .error transportFailed := by
  obtain ⟨transport, hmake, htargets⟩ := (decodeIssueAssociation_roundTrip asciiTables asciiTable).1
    "https://api.github.com".toList "https://api.github.com".toList (by decide +kernel)
  exact ⟨transport, hmake, htargets "octo/repo" 7 (by decide +kernel) (by decide) (by decide)⟩

/-- The URL of a server with a path of `n` letters. -/
def longApiUrl (n : ℕ) : List Char := "https://h".toList ++ '/' :: List.replicate n 'a'

theorem letters_no_slash (n : ℕ) : '/' ∉ List.replicate n 'a' := by
  intro hc
  exact absurd (List.eq_of_mem_replicate hc) (by decide)

theorem longPath_split (n : ℕ) : ('/' :: List.replicate n 'a').splitOn '/' = [[], List.replicate n 'a'] := by
  have hsplit := List.splitOn_append_cons_self (a := '/') [] (List.replicate n 'a')
  rw [List.splitOn_eq_singleton (letters_no_slash n)] at hsplit
  exact hsplit

theorem longPath_configured {n : ℕ} (hn : n ≠ 0) : Configured ['h'] none ('/' :: List.replicate n 'a') := by
  refine ⟨⟨by decide, by decide⟩, by decide, by simp, ?_, ?_, ?_⟩
  · intro c hc
    rcases List.mem_cons.1 hc with rfl | hc
    · decide
    · obtain rfl := List.eq_of_mem_replicate hc
      decide
  · intro c hc
    exact (Option.some.inj hc).symm
  · rw [withoutSlashes_eq_self]
    intro hlast
    rw [List.getLast?_cons_of_ne_nil (by simpa using hn)] at hlast
    exact letters_no_slash n (List.mem_of_getLast? hlast)

theorem longApiUrl_normalized {n : ℕ} (hn : n ≠ 0) :
    normalizeGithubApiUrl asciiTables (longApiUrl n) = .ok (longApiUrl n) := by
  have h := longPath_configured hn
  have hspace : ∀ c ∈ longApiUrl n, isSpace c = false := by
    intro c hc
    have horigin : ∀ c ∈ "https://h".toList, isSpace c = false := by decide
    rcases List.mem_append.1 hc with hc | hc
    · exact horigin c hc
    · rcases List.mem_cons.1 hc with rfl | hc
      · decide
      · obtain rfl := List.eq_of_mem_replicate hc
        decide
  have hsplit : Url.urlsplit asciiTables (longApiUrl n) =
      some ⟨"https".toList, ['h'], '/' :: List.replicate n 'a', [], []⟩ :=
    Url.urlsplit_eq asciiTables https_plainScheme (by decide) h.plain h.head
  have hnetloc : Url.SplitResult.netloc ⟨"https".toList, ['h'], '/' :: List.replicate n 'a', [], []⟩ =
      Url.written ['h'] none := rfl
  have hhost := Url.hostname_written asciiTables h.plainHost hnetloc
  have hport := Url.port_written h.plainHost hnetloc h.port
  have huser := Url.userinfo_written h.plainHost hnetloc
  have hchars : (List.replicate n 'a').all apiPathChar = true := by
    rw [List.all_replicate]
    simp [apiPathChar, isAsciiAlnum, isAsciiLetter]
  have hpath : githubApiPath ('/' :: List.replicate n 'a') = true := by
    unfold githubApiPath
    rw [longPath_split]
    simp [hchars, hn]
  have hdots : (('/' :: List.replicate n 'a').splitOn '/').all (fun part => part != ['.'] && part != ['.', '.']) =
      true := by
    rw [longPath_split]
    have hdot : '.' ∉ List.replicate n 'a' := fun hc => absurd (List.eq_of_mem_replicate hc) (by decide)
    have hone : List.replicate n 'a' ≠ ['.'] := fun he => hdot (he ▸ by simp)
    have htwo : List.replicate n 'a' ≠ ['.', '.'] := fun he => hdot (he ▸ by simp)
    simp [hone, htwo]
  have hhttps : (asciiTables.lower "https".toList == "https".toList) = true := by decide
  unfold normalizeGithubApiUrl
  rw [strip_eq_self hspace, hsplit]
  simp only [hport, hhost, huser, h.ends, hpath, hdots, hhttps, ensure]
  rfl

theorem longApiUrl_eq (n : ℕ) :
    "https://".toList ++ hostWithPort ['h'] none ++ '/' :: List.replicate n 'a' = longApiUrl n := by
  have hstart : "https://".toList ++ hostWithPort ['h'] none = "https://h".toList := by decide
  exact congrArg (· ++ '/' :: List.replicate n 'a') hstart

/-- Under a path prefix of 65536 letters no association is read back. -/
theorem longPrefix_refused :
    ¬∀ (T : Url.Tables) (U : CharTable) raw apiUrl transport name number route owner repository,
      normalizeGithubApiUrl T raw = .ok apiUrl → GitHubTransport.make T apiUrl = some transport →
        repositoryRoute name = .ok (route, owner, repository) → 1 ≤ number → number ≤ maxSafePullRequestNumber →
          decodeIssueAssociation T U
              (.str (String.ofList (associationUrl transport.expectedOrigin transport.expectedPathPrefix route number)))
              transport.expectedOrigin transport.expectedPathPrefix = .ok (name, number) := by
  intro h
  obtain ⟨n, hn⟩ : ∃ n, n = 65536 := ⟨_, rfl⟩
  have hconfigured := longPath_configured (n := n) (by omega)
  have hnormal := longApiUrl_normalized (n := n) (by omega)
  have hmake := make_configured (T := asciiTables) hconfigured
  rw [longApiUrl_eq] at hmake
  have hroute : repositoryRoute "o/r" = .ok ("repos/".toList ++ ['o'] ++ '/' :: ['r'], ['o'], ['r']) := by
    decide +kernel
  have hclaim := h asciiTables asciiTable _ _ _ "o/r" 1 _ _ _ hnormal hmake hroute (by decide) (by decide)
  have hread := decodeIssueAssociation_canonical (T := asciiTables) (U := asciiTable) hconfigured hroute
    (by decide : (1 : ℤ) ≤ 1) (by decide)
  have hlong : ¬(associationUrl ("https".toList, ['h'], none) (('/' :: List.replicate n 'a') ++ ['/'])
      ("repos/".toList ++ ['o'] ++ '/' :: ['r']) 1).length ≤ maxGithubStringLength := by
    rw [associationUrl, associationPath, withoutSlashes_slash hconfigured.ends]
    simp only [List.length_append, List.length_cons, List.length_replicate, maxGithubStringLength]
    omega
  rw [if_neg hlong] at hread
  cases hclaim.symm.trans hread

end associations

end Switchboard
