import Mathlib.Algebra.Group.Nat.Defs
import Mathlib.Data.Int.Notation
import Mathlib.Data.List.Basic
import Switchboard.Lib.JsonText

/-!
# Dates and times as Python writes and reads them

`datetime.isoformat` in UTC and `datetime.fromisoformat`. An instant is the number of microseconds since the beginning
of the year 1.

* `Fields`: the fields of a `datetime`, and `fieldsOf`, the fields of an instant.
* `isoformat`, `fromIsoformat`: the two functions.
* `fieldsOf_spec`: the fields of an instant are valid and name it.
* `fromIsoformat_isoformat`: what one function writes, the other one reads.
-/

namespace IsoTime

open JsonText (isDigit natOfDigits)

/-! ## The calendar -/

def isLeap (year : ℕ) : Bool := year % 4 = 0 && (year % 100 ≠ 0 || year % 400 = 0)

def daysInYear (year : ℕ) : ℕ := if isLeap year then 366 else 365

def daysInMonth (year month : ℕ) : ℕ :=
  match month with
  | 2 => if isLeap year then 29 else 28
  | 4 | 6 | 9 | 11 => 30
  | _ => 31

/-- The length of the first periods of a sequence. -/
def lengthBefore (length : ℕ → ℕ) : ℕ → ℕ
  | 0 => 0
  | k + 1 => lengthBefore length k + length k

/-- The period, from one on, that a day falls into, and its place there; at most `count` periods are tried. -/
def locate (length : ℕ → ℕ) : ℕ → ℕ → ℕ → Option (ℕ × ℕ)
  | 0, _, _ => none
  | count + 1, k, n => if n < length k then some (k, n) else locate length count (k + 1) (n - length k)

structure Fields where
  year : ℕ
  month : ℕ
  day : ℕ
  hour : ℕ
  minute : ℕ
  second : ℕ
  microsecond : ℕ
  deriving DecidableEq, Repr

/-- What the constructor of `datetime` checks. -/
def Fields.Valid (d : Fields) : Prop :=
  (1 ≤ d.year ∧ d.year ≤ 9999) ∧ (1 ≤ d.month ∧ d.month ≤ 12) ∧ (1 ≤ d.day ∧ d.day ≤ daysInMonth d.year d.month) ∧
    d.hour < 24 ∧ d.minute < 60 ∧ d.second < 60 ∧ d.microsecond < 1000000

instance (d : Fields) : Decidable d.Valid := by unfold Fields.Valid; infer_instance

/-- The days before a date, since the beginning of the year 1. -/
def ordinal (year month day : ℕ) : ℕ :=
  lengthBefore (fun k => daysInYear (k + 1)) (year - 1) + lengthBefore (fun k => daysInMonth year (k + 1)) (month - 1) +
    (day - 1)

/-- The date of a day, if it comes before the year 10000. -/
def dateOf (days : ℕ) : Option (ℕ × ℕ × ℕ) := do
  let (year, inYear) ← locate (fun k => daysInYear (k + 1)) 9999 0 days
  let (month, inMonth) ← locate (fun k => daysInMonth (year + 1) (k + 1)) 12 0 inYear
  return (year + 1, month + 1, inMonth + 1)

def microsecondsPerDay : ℕ := 86400000000

def Fields.instant (d : Fields) : ℤ :=
  ordinal d.year d.month d.day * microsecondsPerDay +
    (((d.hour * 60 + d.minute) * 60 + d.second) * 1000000 + d.microsecond : ℕ)

/-- The fields of an instant; there is no `datetime` outside of the years 1 to 9999. -/
def fieldsOf (t : ℤ) : Option Fields := do
  if t < 0 then none
  let n := t.toNat
  let (year, month, day) ← dateOf (n / microsecondsPerDay)
  let clock := n % microsecondsPerDay
  return { year, month, day, hour := clock / 3600000000, minute := clock / 60000000 % 60
           second := clock / 1000000 % 60, microsecond := clock % 1000000 }

/-! ## Text -/

/-- The last `width` decimal digits. -/
def pad : ℕ → ℕ → List Char
  | 0, _ => []
  | width + 1, n => pad width (n / 10) ++ [Nat.digitChar (n % 10)]

/-- `isoformat` without the offset. -/
def isoformat (d : Fields) : List Char :=
  pad 4 d.year ++ '-' :: (pad 2 d.month ++ '-' :: (pad 2 d.day ++ 'T' :: (pad 2 d.hour ++ ':' :: (pad 2 d.minute ++
    ':' :: (pad 2 d.second ++ if d.microsecond = 0 then [] else '.' :: pad 6 d.microsecond)))))

/-- `width` digits, and what is after them. -/
def readDigits (width : ℕ) (s : List Char) : Option (ℕ × List Char) :=
  if (s.take width).length = width ∧ (s.take width).all isDigit then some (natOfDigits (s.take width), s.drop width)
  else none

/-- The separator of the parts of a date, if there is to be one. -/
def readSeparator (separated : Bool) : List Char → Option (List Char)
  | '-' :: s => if separated then some s else none
  | s => if separated then none else some s

/-- `_isoweek_to_gregorian`. -/
def dateOfWeek (year week day : ℕ) : Option (ℕ × ℕ × ℕ) :=
  let first := ordinal year 1 1
  let longYear := first % 7 = 3 ∨ (first % 7 = 2 ∧ isLeap year)
  let monday := if first % 7 > 3 then first - first % 7 + 7 else first - first % 7
  if 1 ≤ year ∧ 1 ≤ week ∧ (week < 53 ∨ (week = 53 ∧ longYear)) ∧ 1 ≤ day ∧ day < 8 then
    dateOf (monday + (week - 1) * 7 + (day - 1))
  else none

/-- `_parse_isoformat_date`. -/
def parseDate (s : List Char) : Option (ℕ × ℕ × ℕ) := do
  let (year, s) ← readDigits 4 s
  let separated := s.head? = some '-'
  let s := if separated then s.drop 1 else s
  if s.head? = some 'W' then
    let (week, s) ← readDigits 2 (s.drop 1)
    if s = [] then dateOfWeek year week 1
    else
      let s ← readSeparator separated s
      let (day, _) ← readDigits 1 s
      dateOfWeek year week day
  else
    let (month, s) ← readDigits 2 s
    let s ← readSeparator separated s
    let (day, _) ← readDigits 2 s
    return (year, month, day)

/-- The fraction of a second after its point: digits beyond the sixth are dropped. -/
def parseFraction (s : List Char) : Option ℕ :=
  if s ≠ [] ∧ s.all isDigit then some (natOfDigits (s.take 6) * 10 ^ (6 - (s.take 6).length)) else none

/-- `_parse_hh_mm_ss_ff`: hours, minutes, seconds and microseconds. -/
def parseClock (s : List Char) : Option (ℕ × ℕ × ℕ × ℕ) := do
  let (hour, s) ← readDigits 2 s
  if s = [] then return (hour, 0, 0, 0)
  let separated := s.head? = some ':'
  let (minute, s) ← readDigits 2 (if separated then s.drop 1 else s)
  if s = [] then return (hour, minute, 0, 0)
  if separated ∧ s.head? ≠ some ':' then none
  let (second, s) ← readDigits 2 (if separated then s.drop 1 else s)
  match s with
  | [] => return (hour, minute, second, 0)
  | point :: s =>
    if point = '.' ∨ point = ',' then
      let microsecond ← parseFraction s
      return (hour, minute, second, microsecond)
    else none

def microsecondsOf (clock : ℕ × ℕ × ℕ × ℕ) : ℕ :=
  ((clock.1 * 60 + clock.2.1) * 60 + clock.2.2.1) * 1000000 + clock.2.2.2

/-- The offset that a zone writes after its sign; it is shorter than a day. -/
def parseOffset (negative : Bool) (s : List Char) : Option ℤ := do
  let clock ← parseClock s
  if microsecondsOf clock < microsecondsPerDay then
    return if negative then -(microsecondsOf clock : ℤ) else microsecondsOf clock
  else none

def startsZone (c : Char) : Bool := c = '+' || c = '-' || c = 'Z'

/-- `_parse_isoformat_time`: the time of day, and the offset of an aware one. -/
def parseTime (s : List Char) : Option ((ℕ × ℕ × ℕ × ℕ) × Option ℤ) := do
  let clock ← parseClock (s.takeWhile fun c => !startsZone c)
  match s.dropWhile fun c => !startsZone c with
  | [] => return (clock, none)
  | sign :: zone =>
    if sign = 'Z' then if zone = [] then return (clock, some 0) else none
    else
      let offset ← parseOffset (sign = '-') zone
      return (clock, some offset)

/-- `_find_isoformat_datetime_separator`. -/
def separatorAt (s : List Char) : Option ℕ :=
  if s.length < 7 then none
  else if s.length = 7 then some 7
  else if s[4]? = some '-' then
    if s[5]? = some 'W' then
      if s[8]? = some '-' then
        if s.length = 9 then none else if s[10]?.any isDigit then some 8 else some 10
      else some 8
    else some 10
  else if s[4]? = some 'W' then
    let last := 7 + ((s.drop 7).takeWhile isDigit).length
    if last < 9 then some last else if last % 2 = 0 then some 7 else some 8
  else some 8

/-- `fromisoformat`: the fields, and the offset of an aware `datetime`. -/
def fromIsoformat (s : List Char) : Option (Fields × Option ℤ) := do
  let separator ← separatorAt s
  let (year, month, day) ← parseDate (s.take separator)
  let ((hour, minute, second, microsecond), offset) ←
    if separator < s.length then parseTime (s.drop (separator + 1)) else some ((0, 0, 0, 0), none)
  let d : Fields := { year, month, day, hour, minute, second, microsecond }
  if d.Valid then return (d, offset) else none

/-! ## The fields of an instant -/

theorem locate_spec {length : ℕ → ℕ} {count k n k' r : ℕ} (h : locate length count k n = some (k', r)) :
    k' < k + count ∧ r < length k' ∧ lengthBefore length k' + r = lengthBefore length k + n := by
  induction count generalizing k n with
  | zero => cases h
  | succ count ih =>
    unfold locate at h
    split at h
    · rename_i hlt
      obtain ⟨rfl, rfl⟩ := Prod.mk.inj (Option.some.inj h)
      exact ⟨by omega, hlt, rfl⟩
    · obtain ⟨hk, hr, hsum⟩ := ih h
      refine ⟨by omega, hr, ?_⟩
      rw [hsum, lengthBefore]
      omega

theorem dateOf_spec {days year month day : ℕ} (h : dateOf days = some (year, month, day)) :
    (1 ≤ year ∧ year ≤ 9999) ∧ (1 ≤ month ∧ month ≤ 12) ∧ (1 ≤ day ∧ day ≤ daysInMonth year month) ∧
      ordinal year month day = days := by
  unfold dateOf at h
  obtain ⟨⟨y, inYear⟩, hyear, h⟩ := Option.bind_eq_some_iff.1 h
  obtain ⟨⟨m, inMonth⟩, hmonth, h⟩ := Option.bind_eq_some_iff.1 h
  obtain ⟨rfl, rfl, rfl⟩ : y + 1 = year ∧ m + 1 = month ∧ inMonth + 1 = day := by
    simpa only [Option.pure_def, Option.some.injEq, Prod.mk.injEq] using h
  obtain ⟨hy, -, hyearSum⟩ := locate_spec hyear
  obtain ⟨hm, hday, hmonthSum⟩ := locate_spec hmonth
  simp only [lengthBefore, Nat.zero_add] at hyearSum hmonthSum
  refine ⟨by omega, by omega, ⟨by omega, hday⟩, ?_⟩
  unfold ordinal
  simp only [Nat.add_sub_cancel]
  omega

/-- **The fields of an instant are valid and name it.** -/
theorem fieldsOf_spec {t : ℤ} {d : Fields} (h : fieldsOf t = some d) : d.Valid ∧ d.instant = t := by
  unfold fieldsOf at h
  by_cases hnegative : t < 0
  · rw [if_pos hnegative] at h
    cases h
  rw [if_neg hnegative] at h
  obtain ⟨⟨year, month, day⟩, hdate, h⟩ := Option.bind_eq_some_iff.1 h
  obtain rfl := Option.some.inj h
  obtain ⟨hyear, hmonth, hday, hordinal⟩ := dateOf_spec hdate
  refine ⟨⟨hyear, hmonth, hday, ?_, ?_, ?_, ?_⟩, ?_⟩
  · show t.toNat % microsecondsPerDay / 3600000000 < 24
    unfold microsecondsPerDay
    omega
  · exact Nat.mod_lt _ (by decide)
  · exact Nat.mod_lt _ (by decide)
  · exact Nat.mod_lt _ (by decide)
  · unfold Fields.instant
    dsimp only
    rw [hordinal]
    unfold microsecondsPerDay
    omega

/-! ## Digits -/

theorem length_pad (width n : ℕ) : (pad width n).length = width := by
  induction width generalizing n with
  | zero => rfl
  | succ width ih => rw [pad, List.length_append, ih, List.length_singleton]

theorem digitChar_spec {n : ℕ} (h : n < 10) : isDigit n.digitChar = true ∧ JsonText.digitValue n.digitChar = n := by
  revert h
  revert n
  decide

theorem isDigit_pad {width n : ℕ} {c : Char} (h : c ∈ pad width n) : isDigit c = true := by
  induction width generalizing n with
  | zero => cases h
  | succ width ih =>
    rcases List.mem_append.1 h with h | h
    · exact ih h
    · obtain rfl := List.mem_singleton.1 h
      exact (digitChar_spec (Nat.mod_lt _ (by decide))).1

theorem natOfDigits_pad (width n : ℕ) : natOfDigits (pad width n) = n % 10 ^ width := by
  induction width generalizing n with
  | zero =>
    rw [Nat.pow_zero, Nat.mod_one]
    rfl
  | succ width ih =>
    unfold natOfDigits at ih ⊢
    rw [pad, List.foldl_append, ih, List.foldl_cons, List.foldl_nil, (digitChar_spec (Nat.mod_lt _ (by decide))).2,
      Nat.pow_succ', Nat.mod_mul]
    omega

/-- **Digits are read as they are written.** -/
theorem readDigits_pad {width n : ℕ} (h : n < 10 ^ width) (rest : List Char) :
    readDigits width (pad width n ++ rest) = some (n, rest) := by
  have htake : (pad width n ++ rest).take width = pad width n := List.take_left' (length_pad width n)
  have hdrop : (pad width n ++ rest).drop width = rest := List.drop_left' (length_pad width n)
  unfold readDigits
  rw [htake, hdrop, natOfDigits_pad, Nat.mod_eq_of_lt h, if_pos]
  exact ⟨length_pad width n, List.all_eq_true.2 fun c hc => isDigit_pad hc⟩

/-! ## What is written is read -/

theorem readDigits_pad_nil {width n : ℕ} (h : n < 10 ^ width) : readDigits width (pad width n) = some (n, []) := by
  have hread := readDigits_pad h []
  rwa [List.append_nil] at hread

theorem parseDate_written {year month day : ℕ} (hyear : year < 10000) (hmonth : month < 100) (hday : day < 100) :
    parseDate (pad 4 year ++ '-' :: (pad 2 month ++ '-' :: pad 2 day)) = some (year, month, day) := by
  have hnoWeek : (pad 2 month ++ '-' :: pad 2 day).head? ≠ some 'W' := by
    intro hhead
    have hmem : 'W' ∈ pad 2 month := by
      simp only [pad, List.nil_append, List.cons_append, List.head?_cons, Option.some.injEq] at hhead
      rw [← hhead]
      exact List.mem_cons_self
    exact absurd (isDigit_pad hmem) (by decide)
  unfold parseDate
  rw [readDigits_pad (by simpa using hyear)]
  simp only [Option.bind_eq_bind, Option.bind_some, List.head?_cons, decide_true, if_true, List.drop_one, List.tail_cons]
  rw [if_neg hnoWeek, readDigits_pad (by simpa using hmonth)]
  simp only [Option.bind_some, readSeparator, if_true]
  rw [readDigits_pad_nil (by simpa using hday)]
  rfl

theorem parseFraction_written {microsecond : ℕ} (h : microsecond < 1000000) :
    parseFraction (pad 6 microsecond) = some microsecond := by
  have htake : (pad 6 microsecond).take 6 = pad 6 microsecond := List.take_of_length_le (Nat.le_of_eq (length_pad 6 _))
  unfold parseFraction
  rw [htake, length_pad, natOfDigits_pad, Nat.mod_eq_of_lt (by simpa using h), if_pos]
  · simp
  · refine ⟨?_, List.all_eq_true.2 fun c hc => isDigit_pad hc⟩
    simp [pad]

/-- The time of day as `isoformat` writes it. -/
def clockText (hour minute second microsecond : ℕ) : List Char :=
  pad 2 hour ++ ':' :: (pad 2 minute ++ ':' :: (pad 2 second ++
    if microsecond = 0 then [] else '.' :: pad 6 microsecond))

theorem parseClock_written {hour minute second microsecond : ℕ} (hhour : hour < 100) (hminute : minute < 100)
    (hsecond : second < 100) (hmicrosecond : microsecond < 1000000) :
    parseClock (clockText hour minute second microsecond) = some (hour, minute, second, microsecond) := by
  unfold parseClock clockText
  rw [readDigits_pad (by simpa using hhour)]
  simp only [Option.bind_eq_bind, Option.bind_some, List.head?_cons, if_true, List.drop_one, List.tail_cons,
    reduceCtorEq, if_false, ne_eq, Option.pure_def]
  rw [readDigits_pad (by simpa using hminute)]
  simp only [Option.bind_some, List.head?_cons, reduceCtorEq, if_false, not_true, and_false, List.tail_cons]
  rw [readDigits_pad (by simpa using hsecond)]
  by_cases hzero : microsecond = 0
  · simp [hzero]
  · simp [hzero, parseFraction_written hmicrosecond]

theorem not_startsZone_of_isDigit {c : Char} (h : isDigit c = true) : startsZone c = false := by
  unfold isDigit at h
  unfold startsZone
  by_contra hzone
  simp only [Bool.not_eq_false, Bool.or_eq_true, decide_eq_true_eq] at hzone
  rcases hzone with (rfl | rfl) | rfl <;> revert h <;> decide

theorem clockText_zoneless {hour minute second microsecond : ℕ} {c : Char}
    (h : c ∈ clockText hour minute second microsecond) : startsZone c = false := by
  have hfraction : ∀ c ∈ (if microsecond = 0 then [] else '.' :: pad 6 microsecond), startsZone c = false := by
    intro c hc
    split at hc
    · cases hc
    · rcases List.mem_cons.1 hc with rfl | hc
      · rfl
      · exact not_startsZone_of_isDigit (isDigit_pad hc)
  unfold clockText at h
  rcases List.mem_append.1 h with h | h
  · exact not_startsZone_of_isDigit (isDigit_pad h)
  rcases List.mem_cons.1 h with rfl | h
  · rfl
  rcases List.mem_append.1 h with h | h
  · exact not_startsZone_of_isDigit (isDigit_pad h)
  rcases List.mem_cons.1 h with rfl | h
  · rfl
  rcases List.mem_append.1 h with h | h
  · exact not_startsZone_of_isDigit (isDigit_pad h)
  · exact hfraction c h

theorem parseTime_written {hour minute second microsecond : ℕ} (hhour : hour < 100) (hminute : minute < 100)
    (hsecond : second < 100) (hmicrosecond : microsecond < 1000000) :
    parseTime (clockText hour minute second microsecond ++ "+00:00".toList) =
      some ((hour, minute, second, microsecond), some 0) := by
  have hzoneless : ∀ c ∈ clockText hour minute second microsecond, (!startsZone c) = true := by
    intro c hc
    rw [clockText_zoneless hc]
    rfl
  have htake : (clockText hour minute second microsecond ++ "+00:00".toList).takeWhile (fun c => !startsZone c) =
      clockText hour minute second microsecond := by
    rw [List.takeWhile_append_of_pos hzoneless]
    exact List.append_nil _
  have hdrop : (clockText hour minute second microsecond ++ "+00:00".toList).dropWhile (fun c => !startsZone c) =
      "+00:00".toList := by
    rw [List.dropWhile_append_of_pos hzoneless]
    rfl
  unfold parseTime
  rw [htake, hdrop, parseClock_written hhour hminute hsecond hmicrosecond]
  rfl

theorem isoformat_chars {d : Fields} {c : Char} (h : c ∈ isoformat d) :
    isDigit c = true ∨ c ∈ ['-', 'T', ':', '.'] := by
  have hfraction : ∀ c ∈ (if d.microsecond = 0 then [] else '.' :: pad 6 d.microsecond),
      isDigit c = true ∨ c ∈ ['-', 'T', ':', '.'] := by
    intro c hc
    split at hc
    · cases hc
    · rcases List.mem_cons.1 hc with rfl | hc
      · exact .inr (by decide)
      · exact .inl (isDigit_pad hc)
  unfold isoformat at h
  simp only [List.mem_append, List.mem_cons] at h
  rcases h with h | rfl | h | rfl | h | rfl | h | rfl | h | rfl | h | h
  all_goals first
    | exact hfraction _ h
    | exact .inl (isDigit_pad h)
    | exact .inr (by decide)

/-- **What `isoformat` writes in UTC, `fromisoformat` reads.** -/
theorem fromIsoformat_isoformat {d : Fields} (h : d.Valid) :
    fromIsoformat (isoformat d ++ "+00:00".toList) = some (d, some 0) := by
  obtain ⟨hyear, hmonth, hday, hhour, hminute, hsecond, hmicrosecond⟩ := h
  have hdayBound : d.day < 100 := by
    have hlength : daysInMonth d.year d.month ≤ 31 := by
      unfold daysInMonth
      split
      · split <;> decide
      all_goals decide
    omega
  have hsplit : isoformat d ++ "+00:00".toList =
      (pad 4 d.year ++ '-' :: (pad 2 d.month ++ '-' :: pad 2 d.day)) ++
        'T' :: (clockText d.hour d.minute d.second d.microsecond ++ "+00:00".toList) := by
    unfold isoformat clockText
    simp only [List.append_assoc, List.cons_append]
  have hten : (pad 4 d.year ++ '-' :: (pad 2 d.month ++ '-' :: pad 2 d.day)).length = 10 := by
    simp [length_pad]
  have hseparator : separatorAt (isoformat d ++ "+00:00".toList) = some 10 := by
    have hlength : 10 < (isoformat d ++ "+00:00".toList).length := by
      rw [hsplit, List.length_append, hten]
      simp
    have hfour : (isoformat d ++ "+00:00".toList)[4]? = some '-' := by
      unfold isoformat
      rw [List.append_assoc, List.getElem?_append_right (Nat.le_of_eq (length_pad 4 _)), length_pad]
      rfl
    have hfive : (isoformat d ++ "+00:00".toList)[5]? ≠ some 'W' := by
      unfold isoformat
      rw [List.append_assoc, List.getElem?_append_right (by rw [length_pad]; decide), length_pad]
      simp only [pad, List.nil_append, List.cons_append, List.getElem?_cons_succ, List.getElem?_cons_zero, ne_eq,
        Option.some.injEq, Nat.reduceSub]
      intro hW
      have hdigit := (digitChar_spec (n := d.month / 10 % 10) (Nat.mod_lt _ (by decide))).1
      rw [hW] at hdigit
      exact absurd hdigit (by decide)
    unfold separatorAt
    rw [if_neg (by omega), if_neg (by omega), if_pos hfour, if_neg hfive]
  unfold fromIsoformat
  rw [hseparator]
  simp only [Option.bind_eq_bind, Option.bind_some]
  rw [hsplit, List.take_left' hten, parseDate_written (by omega) (by omega) hdayBound]
  have hdrop : ∀ text : List Char, ((pad 4 d.year ++ '-' :: (pad 2 d.month ++ '-' :: pad 2 d.day)) ++ 'T' :: text).drop
      (10 + 1) = text := by
    intro text
    rw [← List.drop_drop, List.drop_left' hten]
    rfl
  simp only [Option.bind_some]
  rw [hdrop, if_pos (by rw [List.length_append, hten]; simp), parseTime_written (by omega) (by omega) (by omega) hmicrosecond]
  simp only [Option.bind_some]
  exact if_pos ⟨hyear, hmonth, hday, hhour, hminute, hsecond, hmicrosecond⟩

end IsoTime
