import Switchboard.Lib.JsonPrint
import Switchboard.Lib.PyText
import Switchboard.Lib.Utf8

/-!
# URLs as Python reads them

`urllib.parse` on texts: `urlsplit` with the properties of its result, `quote` and `unquote`.

* `Tables`: what depends on Unicode and on the syntax of addresses in brackets.
* `urlsplit`: the parts of a URL; `none` is a `ValueError`.
* `quote`, `unquote`: the percent encoding.
* `urlsplit_eq`: the parts of a URL that is written from its parts.
-/

namespace Url

open PyText

structure Tables where
  /-- `str.lower`. -/
  lower : List Char → List Char
  /-- `unicodedata.normalize("NFKC", text)`. -/
  nfkc : List Char → List Char
  /-- The part in brackets of this network location is an address. -/
  bracketed : List Char → Bool
  lower_ascii : ∀ s : List Char, (∀ c ∈ s, c.toNat < 128) → lower s = s.map Char.toLower

/-- `SplitResult`. -/
structure SplitResult where
  scheme : List Char
  netloc : List Char
  path : List Char
  query : List Char
  fragment : List Char
  deriving DecidableEq

/-! ## Splitting -/

/-- `text.partition(sep)`, without the separator. -/
def partition (sep : Char) (s : List Char) : List Char × List Char :=
  (s.takeWhile (· != sep), (s.dropWhile (· != sep)).tail)

/-- `text.rpartition(sep)[2]`. -/
def afterLast (sep : Char) (s : List Char) : List Char := (s.reverse.takeWhile (· != sep)).reverse

/-- Leading control characters and spaces are dropped, tabs and line breaks anywhere. -/
def cleaned (url : List Char) : List Char :=
  (url.dropWhile fun c => decide (c.toNat ≤ 32)).filter fun c => !(['\t', '\r', '\n'].contains c)

def schemeChar (c : Char) : Bool := isAsciiAlnum c || ['+', '-', '.'].contains c

/-- The scheme and what is behind it. -/
def splitScheme (url : List Char) : List Char × List Char :=
  match url.takeWhile (· != ':'), url.dropWhile (· != ':') with
  | c :: cs, _ :: rest =>
    if isAsciiLetter c && (c :: cs).all schemeChar then ((c :: cs).map Char.toLower, rest) else ([], url)
  | _, _ => ([], url)

/-- A network location ends at one of these. -/
def delimiter (c : Char) : Bool := ['/', '?', '#'].contains c

/-- The network location and what is behind it. -/
def splitNetloc (url : List Char) : List Char × List Char :=
  match url with
  | '/' :: '/' :: rest => (rest.takeWhile fun c => !delimiter c, rest.dropWhile fun c => !delimiter c)
  | _ => ([], url)

variable (T : Tables)

/-- The brackets of a network location come in pairs, around an address. -/
def bracketsAccepted (netloc : List Char) : Bool :=
  if netloc.contains '[' then netloc.contains ']' && T.bracketed netloc else !netloc.contains ']'

def isAscii (s : List Char) : Bool := s.all fun c => decide (c.toNat < 128)

/-- `_checknetloc`: normalization must not make a separator. -/
def netlocAccepted (netloc : List Char) : Bool :=
  isAscii netloc ||
    (let n := netloc.filter fun c => !(['@', ':', '#', '?'].contains c)
     n == T.nfkc n || (T.nfkc n).all fun c => !(['/', '?', '#', '@', ':'].contains c))

/-- `urlsplit`. -/
def urlsplit (url : List Char) : Option SplitResult :=
  let (scheme, url) := splitScheme (cleaned url)
  let (netloc, url) := splitNetloc url
  if !bracketsAccepted T netloc then none
  else
    let (url, fragment) := partition '#' url
    let (path, query) := partition '?' url
    if netlocAccepted T netloc then some ⟨scheme, netloc, path, query, fragment⟩ else none

/-! ## The network location -/

namespace SplitResult

variable (r : SplitResult)

/-- `username` and `password`. -/
def userinfo : Option (List Char × Option (List Char)) :=
  if r.netloc.contains '@' then
    let info := r.netloc.take (r.netloc.length - (afterLast '@' r.netloc).length - 1)
    some ((partition ':' info).1, if info.contains ':' then some (partition ':' info).2 else none)
  else none

/-- `_hostinfo`, with an empty port for none. -/
def hostinfo : List Char × List Char :=
  let hostinfo := afterLast '@' r.netloc
  if hostinfo.contains '[' then
    let (hostname, behind) := partition ']' (partition '[' hostinfo).2
    (hostname, (partition ':' behind).2)
  else partition ':' hostinfo

/-- `hostname`, with the empty text for none. The zone of an address keeps its case. -/
def hostname : List Char :=
  T.lower (r.hostinfo.1.takeWhile (· != '%')) ++ r.hostinfo.1.dropWhile (· != '%')

/-- `int` converts no more digits. -/
def maximumDigits : ℕ := 4300

/-- The text of the port is one: it is empty, or a number in the range. -/
def portAccepted : Bool :=
  r.hostinfo.2.isEmpty ||
    (r.hostinfo.2.all isAsciiDigit && decide (r.hostinfo.2.length ≤ maximumDigits) &&
      decide (JsonText.natOfDigits r.hostinfo.2 ≤ 65535))

/-- `port`; the outer `none` is a `ValueError`. -/
def port : Option (Option ℕ) :=
  if r.portAccepted then some (if r.hostinfo.2.isEmpty then none else some (JsonText.natOfDigits r.hostinfo.2)) else none

end SplitResult

theorem SplitResult.port_le {r : SplitResult} {port : Option ℕ} (h : r.port = some port) :
    ∀ n ∈ port, n ≤ 65535 := by
  intro n hn
  unfold SplitResult.port at h
  split at h
  · rename_i haccepted
    obtain rfl := Option.some.inj h
    split at hn
    · cases hn
    · rename_i hempty
      obtain rfl := Option.some.inj hn
      simp only [portAccepted, Bool.or_eq_true, Bool.and_eq_true, decide_eq_true_eq] at haccepted
      rcases haccepted with haccepted | haccepted
      · exact absurd haccepted hempty
      · exact haccepted.2
  · cases h

/-! ### Readable URLs -/

/-- The network location of a URL. -/
def netlocOf (url : List Char) : List Char := (splitNetloc (splitScheme (cleaned url)).2).1

/-- A URL that neither `urlsplit` nor the port of its result refuses. -/
structure Readable (url : List Char) : Prop where
  brackets : bracketsAccepted T (netlocOf url) = true
  normal : netlocAccepted T (netlocOf url) = true
  port : SplitResult.portAccepted ⟨[], netlocOf url, [], [], []⟩ = true

variable {T}

theorem urlsplit_some {url : List Char} {r : SplitResult} (h : urlsplit T url = some r) :
    bracketsAccepted T (netlocOf url) = true ∧ netlocAccepted T (netlocOf url) = true ∧ r.netloc = netlocOf url := by
  unfold urlsplit at h
  dsimp only at h
  split at h
  · cases h
  · rename_i hbrackets
    split at h
    · rename_i hnormal
      obtain rfl := Option.some.inj h
      rw [Bool.not_eq_true', Bool.not_eq_false] at hbrackets
      exact ⟨hbrackets, hnormal, rfl⟩
    · cases h

theorem urlsplit_none {url : List Char} (h : urlsplit T url = none) :
    ¬(bracketsAccepted T (netlocOf url) = true ∧ netlocAccepted T (netlocOf url) = true) := by
  rintro ⟨hbrackets, hnormal⟩
  unfold urlsplit at h
  unfold netlocOf at hbrackets hnormal
  simp [hbrackets, hnormal] at h

/-- The port depends on the network location alone. -/
theorem portAccepted_congr {r r' : SplitResult} (h : r.netloc = r'.netloc) : r.portAccepted = r'.portAccepted := by
  unfold SplitResult.portAccepted SplitResult.hostinfo
  rw [h]

/-- **The URLs whose parts and whose port are read without a `ValueError`.** -/
theorem readable_iff {url : List Char} :
    Readable T url ↔ ∃ r, urlsplit T url = some r ∧ r.port.isSome = true := by
  have hport : ∀ r : SplitResult, r.port.isSome = true ↔ r.portAccepted = true := by
    intro r
    unfold SplitResult.port
    split <;> simp_all
  constructor
  · intro h
    cases hsplit : urlsplit T url with
    | none => exact absurd ⟨h.brackets, h.normal⟩ (urlsplit_none hsplit)
    | some r =>
      refine ⟨r, rfl, (hport r).2 ?_⟩
      rw [← h.port]
      exact portAccepted_congr (urlsplit_some hsplit).2.2
  · rintro ⟨r, hsplit, hr⟩
    obtain ⟨hbrackets, hnormal, hnetloc⟩ := urlsplit_some hsplit
    refine ⟨hbrackets, hnormal, ?_⟩
    rw [← (hport r).1 hr]
    exact portAccepted_congr hnetloc.symm

variable (T)

/-! ## Percent encoding -/

def byteOf (c : Char) : UInt8 := UInt8.ofNat c.toNat

/-- `unquote_to_bytes` of an ASCII text. -/
def unquoteToBytes : List Char → List UInt8
  | '%' :: a :: b :: rest =>
    match JsonText.hexValue a, JsonText.hexValue b with
    | some a, some b => UInt8.ofNat (a * 16 + b) :: unquoteToBytes rest
    | _, _ => byteOf '%' :: unquoteToBytes (a :: b :: rest)
  | c :: rest => byteOf c :: unquoteToBytes rest
  | [] => []

/-- The rest of a text behind the ASCII characters `run`. -/
def unquoteFrom (run : List Char) : List Char → List Char
  | [] => Utf8.replace (unquoteToBytes run)
  | c :: cs =>
    if c.toNat < 128 then unquoteFrom (run ++ [c]) cs
    else Utf8.replace (unquoteToBytes run) ++ c :: unquoteFrom [] cs

/-- `unquote`. -/
def unquote (s : List Char) : List Char := if s.contains '%' then unquoteFrom [] s else s

/-- `_ALWAYS_SAFE`. -/
def alwaysSafe (b : UInt8) : Bool :=
  isAsciiAlnum (Char.ofNat b.toNat) || ['_', '.', '-', '~'].contains (Char.ofNat b.toNat)

def hexDigit (n : ℕ) : Char := if n < 10 then Char.ofNat (48 + n) else Char.ofNat (55 + n)

def quoteByte (b : UInt8) : List Char :=
  if alwaysSafe b then [Char.ofNat b.toNat] else ['%', hexDigit (b.toNat / 16), hexDigit (b.toNat % 16)]

/-- `quote(text, safe="")`. -/
def quote (s : List Char) : List Char := (s.flatMap String.utf8EncodeChar).flatMap quoteByte

/-! ## URLs written from their parts -/

section written

/-- A character that stands for itself in a URL. -/
def plain (c : Char) : Bool := decide (32 < c.toNat) && !(['?', '#'].contains c)

/-- A character of a network location without user and without brackets. -/
def plainNetloc (c : Char) : Bool := plain c && decide (c.toNat < 128) && !(['/', '[', ']', '@'].contains c)

/-- A scheme in lower case. -/
structure PlainScheme (scheme : List Char) : Prop where
  letter : ∃ c cs, scheme = c :: cs ∧ isAsciiLetter c = true
  chars : ∀ c ∈ scheme, schemeChar c = true
  lower : scheme.map Char.toLower = scheme

theorem takeWhile_ne {sep : Char} {s : List Char} (h : sep ∉ s) (rest : List Char) :
    (s ++ sep :: rest).takeWhile (· != sep) = s := by
  rw [List.takeWhile_append_of_pos fun c hc => by simpa using fun he : c = sep => h (he ▸ hc)]
  simp

theorem dropWhile_ne {sep : Char} {s : List Char} (h : sep ∉ s) (rest : List Char) :
    (s ++ sep :: rest).dropWhile (· != sep) = sep :: rest := by
  rw [List.dropWhile_append_of_pos fun c hc => by simpa using fun he : c = sep => h (he ▸ hc)]
  simp

theorem partition_absent {sep : Char} {s : List Char} (h : sep ∉ s) : partition sep s = (s, []) := by
  have hall : ∀ c ∈ s, (c != sep) = true := fun c hc => by simpa using fun he : c = sep => h (he ▸ hc)
  unfold partition
  rw [List.takeWhile_eq_self_iff.2 hall, List.dropWhile_eq_nil_iff.2 hall]
  rfl

theorem partition_append {sep : Char} {s : List Char} (h : sep ∉ s) (rest : List Char) :
    partition sep (s ++ sep :: rest) = (s, rest) := by
  unfold partition
  rw [takeWhile_ne h, dropWhile_ne h]
  rfl

theorem afterLast_absent {sep : Char} {s : List Char} (h : sep ∉ s) : afterLast sep s = s := by
  have hall : ∀ c ∈ s.reverse, (c != sep) = true := fun c hc => by
    simpa using fun he : c = sep => h (he ▸ List.mem_reverse.1 hc)
  unfold afterLast
  rw [List.takeWhile_eq_self_iff.2 hall, List.reverse_reverse]

theorem cleaned_of_plain {url : List Char} (h : ∀ c ∈ url, 32 < c.toNat) : cleaned url = url := by
  have hdrop : (url.dropWhile fun c => decide (c.toNat ≤ 32)) = url := by
    cases url with
    | nil => rfl
    | cons c url =>
      have hc := h c List.mem_cons_self
      rw [List.dropWhile_cons_of_neg (by simpa using hc)]
  unfold cleaned
  rw [hdrop, List.filter_eq_self]
  intro c hc
  have hlarge := h c hc
  simp only [Bool.not_eq_true', ← Bool.not_eq_true, List.contains_iff_mem, List.mem_cons, List.not_mem_nil, or_false]
  rintro (rfl | rfl | rfl) <;> exact absurd hlarge (by decide)

theorem isAsciiAlnum_iff {c : Char} : isAsciiAlnum c = true ↔
    (97 ≤ c.toNat ∧ c.toNat ≤ 122) ∨ (65 ≤ c.toNat ∧ c.toNat ≤ 90) ∨ (48 ≤ c.toNat ∧ c.toNat ≤ 57) := by
  have ha : 'a'.toNat = 97 := rfl
  have hz : 'z'.toNat = 122 := rfl
  have hA : 'A'.toNat = 65 := rfl
  have hZ : 'Z'.toNat = 90 := rfl
  have h0 : '0'.toNat = 48 := rfl
  have h9 : '9'.toNat = 57 := rfl
  simp only [isAsciiAlnum, isAsciiLetter, isAsciiDigit, Bool.or_eq_true, between_iff]
  omega

theorem isAsciiAlnum_range {c : Char} (h : isAsciiAlnum c = true) : 48 ≤ c.toNat ∧ c.toNat ≤ 122 := by
  have := isAsciiAlnum_iff.1 h
  omega

theorem toNat_toLower (c : Char) :
    c.toLower.toNat = if 65 ≤ c.toNat ∧ c.toNat ≤ 90 then c.toNat + 32 else c.toNat := by
  unfold Char.toLower
  split
  · rename_i h
    have hA : 65 ≤ c.toNat := UInt32.le_iff_toNat_le.1 h.1
    have hZ : c.val.toNat ≤ 90 := UInt32.le_iff_toNat_le.1 h.2
    rw [if_pos ⟨hA, hZ⟩]
    change (c.val + 32).toNat = c.val.toNat + 32
    rw [UInt32.toNat_add]
    change (c.val.toNat + 32) % 2 ^ 32 = c.val.toNat + 32
    omega
  · rename_i h
    rw [if_neg]
    exact fun hr => h ⟨UInt32.le_iff_toNat_le.2 hr.1, UInt32.le_iff_toNat_le.2 hr.2⟩

theorem toLower_toLower (c : Char) : c.toLower.toLower = c.toLower := by
  apply Char.toNat_inj.1
  rw [toNat_toLower c.toLower, toNat_toLower]
  split
  · rw [if_neg (by omega)]
  · rfl

theorem isAsciiAlnum_toLower {c : Char} (h : isAsciiAlnum c = true) : isAsciiAlnum c.toLower = true := by
  have hc := isAsciiAlnum_iff.1 h
  rw [isAsciiAlnum_iff, toNat_toLower]
  split <;> omega

theorem schemeChar_plain {c : Char} (h : schemeChar c = true) : 32 < c.toNat ∧ c ≠ ':' := by
  constructor
  · rcases Bool.or_eq_true_iff.1 h with h | h
    · have := isAsciiAlnum_range h
      omega
    · simp only [List.contains_eq_mem, List.mem_cons, List.not_mem_nil, or_false, decide_eq_true_eq] at h
      rcases h with rfl | rfl | rfl <;> decide
  · rintro rfl
    exact absurd h (by decide)

theorem plain_iff {c : Char} : plain c = true ↔ 32 < c.toNat ∧ c ≠ '?' ∧ c ≠ '#' := by
  simp [plain]

theorem plainNetloc_iff {c : Char} :
    plainNetloc c = true ↔ plain c = true ∧ c.toNat < 128 ∧ c ≠ '/' ∧ c ≠ '[' ∧ c ≠ ']' ∧ c ≠ '@' := by
  simp [plainNetloc, and_assoc]

theorem splitScheme_eq {scheme rest : List Char} (h : PlainScheme scheme) :
    splitScheme (scheme ++ ':' :: rest) = (scheme, rest) := by
  have hcolon : ':' ∉ scheme := fun hc => (schemeChar_plain (h.chars _ hc)).2 rfl
  obtain ⟨c, cs, hscheme, hletter⟩ := h.letter
  have hall : (c :: cs).all schemeChar = true := List.all_eq_true.2 (hscheme ▸ h.chars)
  unfold splitScheme
  rw [takeWhile_ne hcolon, dropWhile_ne hcolon]
  have hlower := h.lower
  subst hscheme
  simp only [hletter, hall, Bool.and_self, if_true, hlower]

theorem delimiter_of_plainNetloc {c : Char} (h : plainNetloc c = true) : delimiter c = false := by
  obtain ⟨hplain, -, hslash, -⟩ := plainNetloc_iff.1 h
  obtain ⟨-, hquery, hfragment⟩ := plain_iff.1 hplain
  simp [delimiter, hslash, hquery, hfragment]

theorem splitNetloc_eq {netloc path : List Char} (hnetloc : ∀ c ∈ netloc, plainNetloc c = true)
    (hpath : ∀ c ∈ path.head?, c = '/') : splitNetloc ('/' :: '/' :: (netloc ++ path)) = (netloc, path) := by
  have hall : ∀ c ∈ netloc, (!delimiter c) = true := fun c hc => by rw [delimiter_of_plainNetloc (hnetloc c hc)]; rfl
  unfold splitNetloc
  simp only [List.takeWhile_append_of_pos hall, List.dropWhile_append_of_pos hall]
  cases path with
  | nil => simp
  | cons c path =>
    obtain rfl : c = '/' := hpath c rfl
    simp [delimiter]

theorem bracketsAccepted_plain {netloc : List Char} (h : ∀ c ∈ netloc, plainNetloc c = true) :
    bracketsAccepted T netloc = true := by
  have hopen : '[' ∉ netloc := fun hc => (plainNetloc_iff.1 (h _ hc)).2.2.2.1 rfl
  have hclose : ']' ∉ netloc := fun hc => (plainNetloc_iff.1 (h _ hc)).2.2.2.2.1 rfl
  simp [bracketsAccepted, hopen, hclose]

theorem netlocAccepted_plain {netloc : List Char} (h : ∀ c ∈ netloc, plainNetloc c = true) :
    netlocAccepted T netloc = true := by
  have hascii : isAscii netloc = true :=
    List.all_eq_true.2 fun c hc => decide_eq_true (plainNetloc_iff.1 (h c hc)).2.1
  simp [netlocAccepted, hascii]

/-- **A URL that is written from plain parts is split into them.** -/
theorem urlsplit_eq {scheme netloc path : List Char} (hscheme : PlainScheme scheme)
    (hnetloc : ∀ c ∈ netloc, plainNetloc c = true) (hpath : ∀ c ∈ path, plain c = true)
    (hhead : ∀ c ∈ path.head?, c = '/') :
    urlsplit T (scheme ++ ':' :: '/' :: '/' :: (netloc ++ path)) = some ⟨scheme, netloc, path, [], []⟩ := by
  have hclean : cleaned (scheme ++ ':' :: '/' :: '/' :: (netloc ++ path)) =
      scheme ++ ':' :: '/' :: '/' :: (netloc ++ path) := by
    refine cleaned_of_plain fun c hc => ?_
    simp only [List.mem_append, List.mem_cons] at hc
    rcases hc with hc | rfl | rfl | rfl | hc | hc
    · exact (schemeChar_plain (hscheme.chars c hc)).1
    · decide
    · decide
    · decide
    · exact (plain_iff.1 (plainNetloc_iff.1 (hnetloc c hc)).1).1
    · exact (plain_iff.1 (hpath c hc)).1
  have hfragment : '#' ∉ path := fun hc => (plain_iff.1 (hpath _ hc)).2.2 rfl
  have hquery : '?' ∉ path := fun hc => (plain_iff.1 (hpath _ hc)).2.1 rfl
  unfold urlsplit
  simp only [hclean, splitScheme_eq hscheme, splitNetloc_eq hnetloc hhead, bracketsAccepted_plain T hnetloc,
    netlocAccepted_plain T hnetloc, partition_absent hfragment, partition_absent hquery, Bool.not_true,
    Bool.false_eq_true, if_false, if_true]

/-! ### Host and port -/

/-- A host without a port, as `hostname` returns it. -/
structure PlainHost (host : List Char) : Prop where
  chars : ∀ c ∈ host, plainNetloc c = true ∧ c ≠ ':' ∧ c ≠ '%'
  lower : host.map Char.toLower = host

theorem plainNetloc_alnum {c : Char} (h : isAsciiAlnum c = true) : plainNetloc c = true ∧ c ≠ ':' ∧ c ≠ '%' := by
  have hrange := isAsciiAlnum_range h
  refine ⟨plainNetloc_iff.2 ⟨plain_iff.2 ⟨by omega, ?_, ?_⟩, by omega, ?_, ?_, ?_, ?_⟩, ?_, ?_⟩ <;>
    · rintro rfl
      exact absurd h (by decide)

/-- Letters, digits, dots and dashes make a plain host, in lower case. -/
theorem plainHost_toLower {host : List Char} (h : ∀ c ∈ host, isAsciiAlnum c = true ∨ c = '.' ∨ c = '-') :
    PlainHost (host.map Char.toLower) := by
  refine ⟨fun c hc => ?_, ?_⟩
  · obtain ⟨d, hd, rfl⟩ := List.mem_map.1 hc
    rcases h d hd with hd | rfl | rfl
    · exact plainNetloc_alnum (isAsciiAlnum_toLower hd)
    · decide
    · decide
  · rw [List.map_map]
    exact List.map_congr_left fun c _ => toLower_toLower c

/-- The host and the port as they are written. -/
def written (host : List Char) (port : Option ℕ) : List Char :=
  host ++ (port.map fun n => ':' :: Nat.toDigits 10 n).getD []

variable {host : List Char} {port : Option ℕ} {r : SplitResult}

theorem written_plain (port : Option ℕ) (h : PlainHost host) : ∀ c ∈ written host port, plainNetloc c = true := by
  intro c hc
  rcases List.mem_append.1 hc with hc | hc
  · exact (h.chars c hc).1
  · cases port with
    | none => cases hc
    | some n =>
      rcases List.mem_cons.1 hc with rfl | hc
      · decide
      · have halnum : isAsciiAlnum c = true := by rw [isAsciiAlnum, isAsciiDigit_of_toDigits hc, Bool.or_true]
        exact (plainNetloc_alnum halnum).1

theorem hostinfo_written (h : PlainHost host) (hr : r.netloc = written host port) :
    r.hostinfo = (host, (port.map (Nat.toDigits 10)).getD []) := by
  have hplain := written_plain port h
  have huser : '@' ∉ written host port := fun hc => (plainNetloc_iff.1 (hplain _ hc)).2.2.2.2.2 rfl
  have hbracket : '[' ∉ written host port := fun hc => (plainNetloc_iff.1 (hplain _ hc)).2.2.2.1 rfl
  have hcolon : ':' ∉ host := fun hc => (h.chars _ hc).2.1 rfl
  have hcontains : (written host port).contains '[' = false := by simpa using hbracket
  unfold SplitResult.hostinfo
  simp only [hr, afterLast_absent huser, hcontains, Bool.false_eq_true, if_false]
  cases port with
  | none => simpa [written] using partition_absent hcolon
  | some n => exact partition_append hcolon _

theorem userinfo_written (h : PlainHost host) (hr : r.netloc = written host port) : r.userinfo = none := by
  have hplain := written_plain port h
  have huser : '@' ∉ written host port := fun hc => (plainNetloc_iff.1 (hplain _ hc)).2.2.2.2.2 rfl
  unfold SplitResult.userinfo
  rw [hr, if_neg (by simpa using huser)]

theorem hostname_written (h : PlainHost host) (hr : r.netloc = written host port) : r.hostname T = host := by
  have hpercent : ∀ c ∈ host, (c != '%') = true := fun c hc => by simpa using (h.chars c hc).2.2
  have hascii : ∀ c ∈ host, c.toNat < 128 := fun c hc => (plainNetloc_iff.1 (h.chars c hc).1).2.1
  unfold SplitResult.hostname
  rw [hostinfo_written h hr, List.takeWhile_eq_self_iff.2 hpercent, List.dropWhile_eq_nil_iff.2 hpercent,
    T.lower_ascii host hascii, h.lower, List.append_nil]

theorem port_written (h : PlainHost host) (hr : r.netloc = written host port) (hport : ∀ n ∈ port, n ≤ 65535) :
    r.port = some port := by
  unfold SplitResult.port SplitResult.portAccepted
  rw [hostinfo_written h hr]
  cases port with
  | none => rfl
  | some n =>
    have hn : n ≤ 65535 := hport n rfl
    have hdigits : (Nat.toDigits 10 n).all isAsciiDigit = true :=
      List.all_eq_true.2 fun c hc => isAsciiDigit_of_toDigits hc
    have hempty : (Nat.toDigits 10 n).isEmpty = false := by
      rw [List.isEmpty_eq_false_iff]
      exact Nat.toDigits_ne_nil
    have hlength : (Nat.toDigits 10 n).length ≤ 5 := (Nat.length_toDigits_le_iff (by decide) (by decide)).2 (by omega)
    have hshort : (Nat.toDigits 10 n).length ≤ SplitResult.maximumDigits := by
      unfold SplitResult.maximumDigits
      omega
    simp [hdigits, hempty, hshort, JsonText.natOfDigits_toDigits, hn]

/-! ### Unreserved characters -/

/-- A character that is quoted as itself. -/
def unreserved (c : Char) : Bool := isAsciiAlnum c || ['_', '.', '-', '~'].contains c

theorem unreserved_ascii {c : Char} (h : unreserved c = true) : c.toNat < 128 ∧ c ≠ '%' ∧ plain c = true ∧ c ≠ '/' := by
  rcases Bool.or_eq_true_iff.1 h with h | h
  · have hrange := isAsciiAlnum_range h
    refine ⟨by omega, ?_, plain_iff.2 ⟨by omega, ?_, ?_⟩, ?_⟩ <;>
      · rintro rfl
        exact absurd h (by decide)
  · simp only [List.contains_eq_mem, List.mem_cons, List.not_mem_nil, or_false, decide_eq_true_eq] at h
    rcases h with rfl | rfl | rfl | rfl <;> decide

/-- **A text of unreserved characters is its own quotation.** -/
theorem quote_unreserved {s : List Char} (h : ∀ c ∈ s, unreserved c = true) : quote s = s := by
  unfold quote
  induction s with
  | nil => rfl
  | cons c s ih =>
    have hc := h c List.mem_cons_self
    have hascii := (unreserved_ascii hc).1
    have hbyte : (UInt8.ofNat c.toNat).toNat = c.toNat := by
      simp [Nat.mod_eq_of_lt (show c.toNat < 256 by omega)]
    have hencode : String.utf8EncodeChar c = [UInt8.ofNat c.toNat] := by
      have hsize : c.utf8Size = 1 := Char.utf8Size_eq_one_iff.2 (by
        rw [UInt32.le_iff_toNat_le]
        exact Nat.lt_succ_iff.1 hascii)
      rw [String.utf8EncodeChar_eq_singleton hsize]
      have hsame : c.val.toUInt8.toNat = (UInt8.ofNat c.toNat).toNat := by
        rw [UInt32.toNat_toUInt8, UInt8.toNat_ofNat']
        rfl
      exact congrArg (fun b => [b]) (UInt8.toNat_inj.1 hsame)
    have hquote : quoteByte (UInt8.ofNat c.toNat) = [c] := by
      unfold quoteByte alwaysSafe
      rw [hbyte, Char.ofNat_toNat]
      exact if_pos hc
    rw [List.flatMap_cons, List.flatMap_append, ih fun d hd => h d (List.mem_cons_of_mem _ hd), hencode]
    simp [hquote]

theorem unquote_unreserved {s : List Char} (h : ∀ c ∈ s, unreserved c = true) : unquote s = s := by
  have hpercent : '%' ∉ s := fun hc => (unreserved_ascii (h _ hc)).2.1 rfl
  unfold unquote
  rw [if_neg (by simpa using hpercent)]

end written

end Url
