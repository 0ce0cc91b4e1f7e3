import Switchboard.Spec.Parsers

/-!
# Counts of a test run

`_pytest_counts` takes the last count of each kind in the whole text, wherever its line is.

* `finditer_countPattern`: the phrases of a text are those of its lines.
* `pytestCounts_last_line`: the counts of a text are those of its last line with a phrase
  exactly if what the earlier lines say of the other kinds is zero.
* `stale_failure_counted`: a line of an earlier run is counted as well.
-/

namespace Switchboard

open PyText Matcher Transaction

variable {I : Interpreter} {k : CountKind} {s line : List Char} {before after : List (List Char)}

/-! ## Phrases -/

theorem isSpace_of_isLineBreak {c : Char} (h : isLineBreak c = true) : isSpace c = true := by
  simp only [isLineBreak, isSpace, Bool.or_eq_true, Bool.and_eq_true, decide_eq_true_eq, beq_iff_eq] at h ⊢
  omega

theorem isLineBreak_digit (I : Interpreter) {c : Char} (h : isLineBreak c = true) : I.chars.isDigit c = false := by
  simp [CharTable.isDigit, (I.chars.space c (isSpace_of_isLineBreak h)).1]

theorem not_mem_word {c : Char} (h : isLineBreak c = true) (w : List Char)
    (hw : ∀ d ∈ w, isLineBreak d = false) : c ∉ w := fun hm => by simp [hw c hm] at h

theorem endsAt_kindWord {c : Char} (h : isLineBreak c = true) (k : CountKind) : EndsAt c k.word := by
  cases k with
  | errors =>
    exact (endsAt_text (not_mem_word h _ (by decide))).orElse (endsAt_text (not_mem_word h _ (by decide)))
  | passed | failed | skipped | xfailed | xpassed => exact endsAt_text (not_mem_word h _ (by decide))

theorem leaves_kindWord (k : CountKind) : PyText.Leaves k.word := by
  cases k with
  | errors => exact (leaves_text _).orElse (leaves_text _)
  | passed | failed | skipped | xfailed | xpassed => exact leaves_text _

/-- A phrase does not leave its line: neither a digit nor a word character breaks lines. -/
theorem countPattern_oneLine (I : Interpreter) (k : CountKind) : (countPattern I k).OneLine where
  behind _ _ := rfl
  ends c hc := by
    have hdigit := isLineBreak_digit I hc
    have hword : I.chars.isWord c = false := (I.chars.space c (isSpace_of_isLineBreak hc)).2
    exact ((endsAt_one hdigit).andThen (endsAt_many hdigit)).andThen
      ((endsAt_kindWord hc k).andThen (endsAt_notNext hword))
  nil := rfl
  shrinks s r h :=
    ((leaves_one.andThen leaves_many).andThen ((leaves_kindWord k).andThen leaves_notNext) s r h).length_le

/-- The phrases of a kind in a text, from left to right. -/
def phrases (I : Interpreter) (k : CountKind) (s : List Char) : List (List Char) := (countPattern I k).finditer s

/-- A text that contains a phrase of the kind. -/
def Mentions (I : Interpreter) (k : CountKind) (s : List Char) : Prop := phrases I k s ≠ []

theorem phrases_splitlines (I : Interpreter) (k : CountKind) (s : List Char) :
    phrases I k s = (splitlines s).flatMap (phrases I k) := (countPattern_oneLine I k).finditer_splitlines s

/-! ## The counts of a text -/

/-- The last phrase of the kind. -/
def lastPhrase (I : Interpreter) (k : CountKind) (s : List Char) : Option (List Char) := (phrases I k s).getLast?

/-- The number that a phrase begins with, however long. -/
def phraseNumber (I : Interpreter) (m : List Char) : ℕ :=
  (countGroup I m).foldl (fun n c => n * 10 + (I.chars.decimal c).getD 0) 0

/-- The last phrase of the kind, if there is one, says zero. -/
def LastIsZero (I : Interpreter) (k : CountKind) (s : List Char) : Prop :=
  ∀ m, lastPhrase I k s = some m → (countGroup I m).length ≤ maximumDigits ∧ phraseNumber I m = 0

/-- The number of the last phrase of the kind, or zero. -/
def lastNumber (I : Interpreter) (s : List Char) (k : CountKind) : ℕ := ((lastPhrase I k s).map (phraseNumber I)).getD 0

/-- The sum of the counts of all kinds. -/
def totalOf (count : CountKind → ℕ) : ℕ :=
  count .passed + count .failed + count .skipped + count .errors + count .xfailed + count .xpassed

theorem totalOf_eq (count : CountKind → ℕ) : totalOf count =
    count .passed + count .failed + count .skipped + count .errors + count .xfailed + count .xpassed := rfl

/-- A last phrase of the text has more digits than `int` converts, or the sum of the last phrases exceeds the bound
of a count. -/
def CountsTooLarge (I : Interpreter) (s : List Char) : Prop :=
  (∃ k m, lastPhrase I k s = some m ∧ maximumDigits < (countGroup I m).length) ∨
    maxResultRecords < totalOf (lastNumber I s)

theorem pytestCount_ok {n : ℕ} : pytestCount I k s = .ok n ↔
    (∀ m, lastPhrase I k s = some m → (countGroup I m).length ≤ maximumDigits) ∧ lastNumber I s k = n := by
  have hlast : ((countPattern I k).finditer s).getLast? = lastPhrase I k s := rfl
  unfold lastNumber pytestCount
  rw [hlast]
  cases lastPhrase I k s with
  | none => simp [eq_comm]
  | some m =>
    by_cases hm : maximumDigits < (countGroup I m).length
    · simp [intOfText, hm]
    · simp [intOfText, hm, phraseNumber, Nat.le_of_not_lt hm]

theorem raises_pytestCount (k : CountKind) (s : List Char) : Raises (· = .valueError) (pytestCount I k s) := by
  unfold pytestCount
  split
  · exact raises_ok
  · unfold intOfText
    split
    · exact raises_error.2 rfl
    · exact raises_ok

theorem raises_make (count : CountKind → ℕ) (total : ℕ) :
    Raises (· = .valueError) (ParsedTestCounts.make count total) := by
  unfold ParsedTestCounts.make
  split
  · split
    · exact raises_ok
    · exact raises_error.2 rfl
  · exact raises_error.2 rfl

theorem raises_pytestCounts (s : List Char) : Raises (· = .valueError) (pytestCounts I s) := by
  have hcount := fun k => raises_pytestCount (I := I) k s
  refine raises_bind (hcount _) fun _ _ => raises_bind (hcount _) fun _ _ => raises_bind (hcount _) fun _ _ =>
    raises_bind (hcount _) fun _ _ => raises_bind (hcount _) fun _ _ => raises_bind (hcount _) fun _ _ => ?_
  dsimp only
  split
  · exact raises_ok
  · exact raises_bind (raises_make _ _) fun _ _ => raises_ok

/-- All six numbers can be read. -/
def Readable (I : Interpreter) (s : List Char) : Prop :=
  ∀ k m, lastPhrase I k s = some m → (countGroup I m).length ≤ maximumDigits

/-- What `_pytest_counts` makes of the six counts. -/
def countsResult (count : CountKind → ℕ) : ParseM (Option ParsedTestCounts) :=
  if totalOf count = 0 then .ok none else (ParsedTestCounts.make count (totalOf count)).map some

theorem pytestCounts_readable (h : Readable I s) : pytestCounts I s = countsResult (lastNumber I s) := by
  have hcount : ∀ k, pytestCount I k s = .ok (lastNumber I s k) := fun k => pytestCount_ok.2 ⟨h k, rfl⟩
  unfold pytestCounts countsResult
  simp only [hcount]
  change (if totalOf (lastNumber I s) = 0 then _ else _) = _
  split <;> rfl

theorem pytestCounts_unreadable (h : ¬ Readable I s) : pytestCounts I s = .error .valueError := by
  cases hr : pytestCounts I s with
  | error e => rw [raises_pytestCounts s e hr]
  | ok r =>
    exfalso
    apply h
    simp only [pytestCounts, except_bind_ok] at hr
    obtain ⟨a, ha, b, hb, c, hc, d, hd, e, he, f, hf, -⟩ := hr
    intro k
    cases k with
    | passed => exact (pytestCount_ok.1 ha).1
    | failed => exact (pytestCount_ok.1 hb).1
    | skipped => exact (pytestCount_ok.1 hc).1
    | errors => exact (pytestCount_ok.1 hd).1
    | xfailed => exact (pytestCount_ok.1 he).1
    | xpassed => exact (pytestCount_ok.1 hf).1

theorem countsResult_tooLarge {count : CountKind → ℕ} (h : maxResultRecords < totalOf count) :
    countsResult count = .error .valueError := by
  have h0 : totalOf count ≠ 0 := by omega
  have hbound : ¬ totalOf count ≤ maxResultRecords := by omega
  simp [countsResult, h0, ParsedTestCounts.make, hbound, Except.map]

theorem countsResult_ok {count : CountKind → ℕ} (h : totalOf count ≤ maxResultRecords) :
    ∃ r, countsResult count = .ok r ∧ totalOf count = (r.map ParsedTestCounts.total).getD 0 := by
  by_cases h0 : totalOf count = 0
  · exact ⟨none, by simp [countsResult, h0], h0⟩
  · have hmake : ParsedTestCounts.make count (totalOf count) =
        .ok ⟨_, _, _, _, _, _, totalOf count, h, totalOf_eq count⟩ := by
      unfold ParsedTestCounts.make
      rw [dif_pos h, dif_pos (totalOf_eq count)]
    refine ⟨some ⟨_, _, _, _, _, _, totalOf count, h, totalOf_eq count⟩, ?_, rfl⟩
    rw [countsResult, if_neg h0, hmake]
    rfl

/-- A result within the bound determines the sum of the counts. -/
theorem countsResult_total {count count' : CountKind → ℕ} (hbound : totalOf count ≤ maxResultRecords)
    (h : countsResult count' = countsResult count) : totalOf count' = totalOf count := by
  obtain ⟨r, hr, htotal⟩ := countsResult_ok hbound
  by_cases hbound' : totalOf count' ≤ maxResultRecords
  · obtain ⟨r', hr', htotal'⟩ := countsResult_ok hbound'
    obtain rfl : r' = r := Except.ok.inj (hr'.symm.trans (h.trans hr))
    rw [htotal, htotal']
  · rw [countsResult_tooLarge (by omega), hr] at h
    cases h

/-! ## The last line with a phrase -/

/-- `line` is the last line of the text with a phrase of any kind. -/
structure LastMentioning (I : Interpreter) (s : List Char) (before : List (List Char)) (line : List Char)
    (after : List (List Char)) : Prop where
  lines : splitlines s = before ++ line :: after
  mentions : ∃ k, Mentions I k line
  silent : ∀ l ∈ after, ∀ k, ¬ Mentions I k l

theorem LastMentioning.phrases_eq (h : LastMentioning I s before line after) (k : CountKind) :
    phrases I k s = before.flatMap (phrases I k) ++ phrases I k line := by
  have hafter : after.flatMap (phrases I k) = [] := by
    rw [List.flatMap_eq_nil_iff]
    intro l hl
    exact not_not.1 (h.silent l hl k)
  rw [phrases_splitlines, h.lines, List.flatMap_append, List.flatMap_cons, hafter, List.append_nil]

theorem LastMentioning.lastPhrase_mentioned (h : LastMentioning I s before line after) (hk : Mentions I k line) :
    lastPhrase I k s = lastPhrase I k line := by
  unfold lastPhrase
  rw [h.phrases_eq, List.getLast?_append_of_ne_nil _ hk]

theorem lastPhrase_eq_none (hk : ¬ Mentions I k line) : lastPhrase I k line = none := by
  unfold lastPhrase
  rw [not_not.1 hk, List.getLast?_nil]

theorem totalOf_le {count count' : CountKind → ℕ} (h : ∀ k, count k ≤ count' k) : totalOf count ≤ totalOf count' := by
  have := h .passed
  have := h .failed
  have := h .skipped
  have := h .errors
  have := h .xfailed
  have := h .xpassed
  unfold totalOf
  omega

/-- Counts that are nowhere smaller, with the same sum, are the same. -/
theorem eq_of_totalOf_eq {count count' : CountKind → ℕ} (h : ∀ k, count k ≤ count' k)
    (htotal : totalOf count' = totalOf count) (k : CountKind) : count' k = count k := by
  have := h .passed
  have := h .failed
  have := h .skipped
  have := h .errors
  have := h .xfailed
  have := h .xpassed
  unfold totalOf at htotal
  cases k <;> omega

/-- The line alone never counts more than the text. -/
theorem LastMentioning.lastNumber_le (h : LastMentioning I s before line after) (k : CountKind) :
    lastNumber I line k ≤ lastNumber I s k := by
  by_cases hk : Mentions I k line
  · simp only [lastNumber, h.lastPhrase_mentioned hk, le_refl]
  · simp [lastNumber, lastPhrase_eq_none hk]

theorem LastMentioning.readable (h : LastMentioning I s before line after) (hs : Readable I s) : Readable I line := by
  intro k m hm
  by_cases hk : Mentions I k line
  · exact hs k m ((h.lastPhrase_mentioned hk).trans hm)
  · rw [lastPhrase_eq_none hk] at hm
    cases hm

/-- **The counts are those of the last line with a phrase exactly if the earlier lines say zero, or nothing, of the
kinds which that line leaves out.** A last line whose own counts are refused makes both calls raise the same. -/
theorem pytestCounts_last_line (h : LastMentioning I s before line after) :
    pytestCounts I s = pytestCounts I line ↔
      CountsTooLarge I line ∨ ∀ k, ¬ Mentions I k line → LastIsZero I k s := by
  have hle := h.lastNumber_le
  by_cases hline : Readable I line
  · by_cases hbound : totalOf (lastNumber I line) ≤ maxResultRecords
    · -- the line counts: the text must be readable, with the same sum
      have hsmall : ¬ CountsTooLarge I line := by
        rintro (⟨k, m, hm, hlong⟩ | hlarge)
        · exact absurd (hline k m hm) (by omega)
        · omega
      rw [or_iff_right hsmall]
      constructor
      · intro heq k hk m hm
        have hs : Readable I s := by
          by_contra hs
          rw [pytestCounts_unreadable hs, pytestCounts_readable hline] at heq
          obtain ⟨r, hr, -⟩ := countsResult_ok hbound
          rw [hr] at heq
          cases heq
        rw [pytestCounts_readable hs, pytestCounts_readable hline] at heq
        have hzero : lastNumber I s k = lastNumber I line k :=
          eq_of_totalOf_eq hle (countsResult_total hbound heq) k
        refine ⟨hs k m hm, ?_⟩
        simpa [lastNumber, hm, lastPhrase_eq_none hk] using hzero
      · intro hzero
        have hnumber : lastNumber I s = lastNumber I line := by
          funext k
          by_cases hk : Mentions I k line
          · simp only [lastNumber, h.lastPhrase_mentioned hk]
          · cases hm : lastPhrase I k s with
            | none => simp [lastNumber, hm, lastPhrase_eq_none hk]
            | some m => simp [lastNumber, hm, lastPhrase_eq_none hk, (hzero k hk m hm).2]
        have hs : Readable I s := by
          intro k m hm
          by_cases hk : Mentions I k line
          · exact hline k m ((h.lastPhrase_mentioned hk).symm.trans hm)
          · exact (hzero k hk m hm).1
        rw [pytestCounts_readable hs, pytestCounts_readable hline, hnumber]
    · have hlarge : CountsTooLarge I line := .inr (by omega)
      have hboth : pytestCounts I s = pytestCounts I line := by
        rw [pytestCounts_readable hline, countsResult_tooLarge (by omega)]
        by_cases hs : Readable I s
        · have := totalOf_le hle
          rw [pytestCounts_readable hs, countsResult_tooLarge (by omega)]
        · exact pytestCounts_unreadable hs
      exact iff_of_true hboth (.inl hlarge)
  · have hlarge : CountsTooLarge I line := by
      unfold Readable at hline
      push Not at hline
      exact .inl hline
    have hboth : pytestCounts I s = pytestCounts I line := by
      rw [pytestCounts_unreadable hline, pytestCounts_unreadable fun hs => hline (h.readable hs)]
    exact iff_of_true hboth (.inl hlarge)

/-! ## A stale count -/

def plainInterpreter : Interpreter := { chars := asciiTable, recursionLimit := 1000 }

/-- The output of a test that runs pytest itself, and the summary line of the run. -/
def staleOutput : List Char := "nested run: 1 failed\n3 passed in 0.20s".toList

theorem staleOutput_last :
    LastMentioning plainInterpreter staleOutput ["nested run: 1 failed".toList] "3 passed in 0.20s".toList [] where
  lines := by decide
  mentions := ⟨.passed, by unfold Mentions phrases; decide +kernel⟩
  silent := by simp

/-- A line of an earlier run is counted as well. -/
theorem stale_failure_counted :
    LastMentioning plainInterpreter staleOutput ["nested run: 1 failed".toList] "3 passed in 0.20s".toList [] ∧
      ∃ counts lineCounts, pytestCounts plainInterpreter staleOutput = .ok (some counts) ∧ counts.failed = 1 ∧
        pytestCounts plainInterpreter "3 passed in 0.20s".toList = .ok (some lineCounts) ∧ lineCounts.failed = 0 := by
  have htext : pytestCounts plainInterpreter staleOutput = .ok (some ⟨3, 1, 0, 0, 0, 0, 4, by decide, rfl⟩) := by
    decide +kernel
  have hline : pytestCounts plainInterpreter "3 passed in 0.20s".toList =
      .ok (some ⟨3, 0, 0, 0, 0, 0, 3, by decide, rfl⟩) := by
    decide +kernel
  exact ⟨staleOutput_last, _, _, htext, rfl, hline, rfl⟩

theorem pytestCounts_last_line_stale :
    pytestCounts plainInterpreter staleOutput = pytestCounts plainInterpreter "3 passed in 0.20s".toList ↔
      CountsTooLarge plainInterpreter "3 passed in 0.20s".toList ∨ ∀ k,
        ¬ Mentions plainInterpreter k "3 passed in 0.20s".toList → LastIsZero plainInterpreter k staleOutput :=
  pytestCounts_last_line staleOutput_last

end Switchboard
