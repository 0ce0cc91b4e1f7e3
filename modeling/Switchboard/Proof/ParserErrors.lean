import Switchboard.Lib.JsonNesting
import Switchboard.Proof.Parsers

/-!
# Exceptions of the parser

`parse_result` turns three classes of exceptions into a failed parser. Two others get out: that
of a text that nests too deep for `json.loads`, and that of an integer too large for `float`.

* `Escapes`: an exception that the handler does not catch, with the rules of the combinators.
* `not_escapes_validated`, `not_escapes_enforce`: the contract is checked without any.
* `escapes_qualitySummary`: the numbers of a report that get through to `float`.
* `parseResult_returns_iff`: when a result is returned.
-/

namespace Switchboard

open PyText Transaction
open JsonText (Value)

variable {I : Interpreter} {kind : ParserKind} {contract : ResultContract} {output : StepOutput} {α β : Type}

/-! ## Escaping -/

/-- The computation raises what `parse_result` does not catch. -/
def Escapes (x : ParseM α) : Prop := ∃ e, x = .error e ∧ e.caught = false

@[simp] theorem escapes_ok {a : α} : ¬ Escapes (.ok a) := by simp [Escapes]

@[simp] theorem escapes_pure {a : α} : ¬ Escapes (pure a) := escapes_ok

@[simp] theorem escapes_error {e : ParseException} : Escapes (.error e : ParseM α) ↔ e.caught = false := by
  simp [Escapes]

theorem escapes_bind {x : ParseM α} {f : α → ParseM β} :
    Escapes (x >>= f) ↔ Escapes x ∨ ∃ a, x = .ok a ∧ Escapes (f a) := by
  cases x with
  | ok a =>
    change Escapes (f a) ↔ _
    simp
  | error e =>
    change Escapes (.error e) ↔ _
    simp

@[simp] theorem escapes_ensure {c : Bool} : ¬ Escapes (ensure c .valueError) := by
  unfold ensure
  split <;> simp [ParseException.caught]

theorem not_escapes_bind {x : ParseM α} {f : α → ParseM β} (hx : ¬ Escapes x)
    (hf : ∀ a, x = .ok a → ¬ Escapes (f a)) : ¬ Escapes (x >>= f) := by
  rw [escapes_bind]
  rintro (h | ⟨a, ha, h⟩)
  · exact hx h
  · exact hf a ha h

/-- After a check. -/
theorem not_escapes_ensure_bind {c : Bool} {f : Unit → ParseM β} (hf : c = true → ¬ Escapes (f ())) :
    ¬ Escapes (ensure c .valueError >>= f) :=
  not_escapes_bind escapes_ensure fun _ h => hf (ensure_ok.1 h)

/-- A computation that raises value errors only. -/
theorem not_escapes_of_raises {x : ParseM α} (h : Raises (· = .valueError) x) : ¬ Escapes x := by
  rintro ⟨e, he, hcaught⟩
  rw [h e he] at hcaught
  cases hcaught

theorem hasKeys_get {γ : Type} {fields : List (String × γ)} {names : List String} (h : hasKeys fields names = true) {name : String}
    (hname : name ∈ names) : ∃ v, (fields.find? fun f => f.1 == name).map Prod.snd = some v := by
  simp only [hasKeys, Bool.and_eq_true, List.all_eq_true, List.any_eq_true] at h
  have hfound := List.find?_isSome.2 (h.2 name hname)
  obtain ⟨f, hf⟩ := Option.isSome_iff_exists.1 hfound
  exact ⟨f.2, by rw [hf]; rfl⟩

/-! ## Contracts -/

/-- A field that a checked contract has. -/
theorem not_escapes_get_bind {names : List String} (hkeys : hasKeys contract names = true) {name : String}
    (hname : name ∈ names) {f : Json → ParseM β} (hf : ∀ v, lookup contract name = some v → ¬ Escapes (f v)) :
    ¬ Escapes (contract.get name >>= f) := by
  obtain ⟨v, hv⟩ := hasKeys_get hkeys hname
  have hget : contract.get name = .ok v := get_ok.2 hv
  exact not_escapes_bind (by rw [hget]; simp) fun w hw => hf w (get_ok.1 hw)

theorem not_escapes_validated : ¬ Escapes (validatedResultContract contract kind) := by
  unfold validatedResultContract
  refine not_escapes_ensure_bind fun hkeys => ?_
  refine not_escapes_get_bind hkeys (by decide) fun _ _ => not_escapes_ensure_bind fun _ => ?_
  refine not_escapes_get_bind hkeys (by decide) fun _ _ => not_escapes_get_bind hkeys (by decide) fun _ _ => ?_
  refine not_escapes_ensure_bind fun _ => not_escapes_get_bind hkeys (by decide) fun _ _ => ?_
  refine not_escapes_get_bind hkeys (by decide) fun records _ => not_escapes_ensure_bind fun hbounds => ?_
  refine not_escapes_get_bind hkeys (by decide) fun _ _ => not_escapes_get_bind hkeys (by decide) fun _ _ => ?_
  refine not_escapes_ensure_bind fun _ => ?_
  -- the assertion holds of a number that has passed its bounds
  obtain ⟨i, rfl, -⟩ := isIntBetween_iff.1 (Bool.and_eq_true_iff.1 hbounds).2
  refine not_escapes_bind escapes_ok fun _ _ => not_escapes_ensure_bind fun _ => ?_
  refine not_escapes_get_bind hkeys (by decide) fun _ _ => not_escapes_get_bind hkeys (by decide) fun _ _ => ?_
  refine not_escapes_ensure_bind fun _ => not_escapes_ensure_bind fun _ => not_escapes_ensure_bind fun _ => ?_
  refine not_escapes_ensure_bind fun _ => not_escapes_ensure_bind fun _ => escapes_ensure

theorem not_escapes_get {name : String} {v : Json} (h : lookup contract name = some v) {f : Json → ParseM β}
    (hf : ¬ Escapes (f v)) : ¬ Escapes (contract.get name >>= f) := by
  have hget : contract.get name = .ok v := get_ok.2 h
  rw [hget]
  exact hf

/-- A threshold that is an integer, or none. -/
theorem not_escapes_threshold {v : Json} (hv : v = .null ∨ ∃ m, v = .int m) (check : ℤ → Bool) :
    ¬ Escapes (if isNone v then return () else do
      let minimum ← assertInt v
      ensure (check minimum) .valueError) := by
  rcases hv with rfl | ⟨m, rfl⟩
  · simp [isNone]
  · simp only [isNone, Bool.false_eq_true, if_false]
    exact not_escapes_bind escapes_ok fun _ _ => escapes_ensure

theorem not_escapes_thresholds (valid : ValidContract contract kind) (r : ParsedResult) (maximum : ℤ) :
    ¬ Escapes (enforceThresholds r contract maximum) := by
  unfold enforceThresholds
  refine not_escapes_bind ?_ fun _ _ => not_escapes_bind ?_ fun _ _ => escapes_ensure
  · split
    · exact escapes_pure
    · exact not_escapes_ensure_bind fun _ => not_escapes_get valid.tests_get (not_escapes_threshold valid.tests_int _)
  · split
    · exact escapes_pure
    · exact not_escapes_get valid.coverage_get
        (not_escapes_threshold valid.coverage_int fun m => decide ((m : ℚ) ≤ _))

theorem not_escapes_failures (valid : ValidContract contract kind) (r : ParsedResult) :
    ¬ Escapes (enforceFailures r contract) := by
  refine not_escapes_get valid.failures_get (not_escapes_bind escapes_ok fun _ _ => ?_)
  exact not_escapes_ensure_bind fun _ => escapes_ensure

theorem not_escapes_enforce {declared : Option ResultContract}
    (hvalid : ∀ contract, declared = some contract → validatedResultContract contract kind = .ok ()) (r : ParsedResult) :
    ¬ Escapes (enforceResultContract r declared) := by
  cases declared with
  | none => exact escapes_ok
  | some contract =>
    obtain ⟨valid⟩ := validatedResultContract_ok (hvalid contract rfl)
    refine not_escapes_get valid.records_get (not_escapes_bind escapes_ok fun _ _ => ?_)
    refine not_escapes_ensure_bind fun _ => not_escapes_bind (not_escapes_thresholds valid r _) fun _ _ => ?_
    exact not_escapes_bind (not_escapes_failures valid r) fun _ _ => escapes_pure

/-! ## Log streams -/

theorem not_escapes_combined (stdout stderr : Option (List UInt8)) (n : ℕ) : ¬ Escapes (combined stdout stderr n) := by
  have hread : ∀ file m, ¬ Escapes (readLog file m) := by
    intro file m
    cases file <;> simp [readLog, ParseException.caught]
  unfold combined
  refine not_escapes_bind (hread _ _) fun _ _ => ?_
  dsimp only
  split
  · exact not_escapes_bind escapes_pure fun _ _ => not_escapes_ensure_bind fun _ => escapes_pure
  · exact not_escapes_bind (hread _ _) fun _ _ => not_escapes_ensure_bind fun _ => escapes_pure

theorem not_escapes_make (r : ParsedResult) : ¬ Escapes r.make := not_escapes_ensure_bind fun _ => escapes_pure

theorem not_escapes_coverageMake (f : Binary64) : ¬ Escapes (ParsedCoverage.make f) := by
  unfold ParsedCoverage.make
  split
  · split <;> simp [ParseException.caught]
  · simp [ParseException.caught]

theorem not_escapes_coverage (s : List Char) : ¬ Escapes (coverage I s) := by
  unfold coverage
  induction (splitlines s).reverse with
  | nil => exact escapes_ok
  | cons line lines ih =>
    unfold coverageOf
    dsimp only
    split
    · split
      · exact ih
      · exact not_escapes_bind (not_escapes_coverageMake _) fun _ _ => escapes_pure
    · exact ih

theorem not_escapes_parsePytest (n : ℕ) : ¬ Escapes (parsePytest I kind output n) := by
  unfold parsePytest
  refine not_escapes_bind (not_escapes_combined _ _ _) fun s _ => ?_
  refine not_escapes_bind (not_escapes_of_raises (raises_pytestCounts s)) fun tests _ => ?_
  dsimp only
  split
  · exact not_escapes_bind (not_escapes_coverage s) fun _ _ => not_escapes_ensure_bind fun _ => not_escapes_make _
  · exact not_escapes_bind escapes_pure fun _ _ => not_escapes_ensure_bind fun _ => not_escapes_make _

theorem not_escapes_parseCoverage (n : ℕ) : ¬ Escapes (parseCoverage I output n) := by
  refine not_escapes_bind (not_escapes_combined _ _ _) fun s _ => ?_
  exact not_escapes_bind (not_escapes_coverage s) fun _ _ => not_escapes_ensure_bind fun _ => not_escapes_make _

theorem not_escapes_parseAudit (n : ℕ) : ¬ Escapes (parseAudit kind output n) := by
  have hmake : ∀ passed findings, ¬ Escapes (AuditSummary.make kind passed findings) := by
    intro passed findings
    unfold AuditSummary.make
    split <;> simp [ParseException.caught]
  refine not_escapes_bind (not_escapes_combined _ _ _) fun s _ => not_escapes_ensure_bind fun _ => ?_
  exact not_escapes_bind (hmake _ _) fun _ _ => not_escapes_make _

/-! ## Numbers -/

/-- An integer that no float can hold. -/
def Oversized (v : Value Binary64) : Prop := ∃ i, v = .int i ∧ Binary64.ofInt i = none

/-- A number within the bounds. -/
def Within (v : Value Binary64) (minimum maximum : ℚ) : Prop := ∃ number, boundedNumber v minimum maximum = .ok number

theorem escapes_boundedNumber {v : Value Binary64} {minimum maximum : ℚ} :
    Escapes (boundedNumber v minimum maximum) ↔ Oversized v := by
  have hbounds : ∀ number, ¬ Escapes (inBounds number minimum maximum) := by
    intro number
    unfold inBounds
    split
    · split <;> simp [ParseException.caught]
    · simp [ParseException.caught]
  unfold boundedNumber Oversized
  split
  · rename_i i
    split
    · rename_i number hnumber
      simp [hbounds, hnumber]
    · rename_i hnone
      simp [hnone, ParseException.caught]
  · simp [hbounds]
  · rename_i hint hfloat
    simp only [escapes_error, ParseException.caught, Bool.true_eq_false, false_iff]
    rintro ⟨i, rfl, -⟩
    exact hint i rfl

/-- The threshold of a report is 85, as an integer or as a float. -/
theorem threshold_ok {v : Value Binary64} {number : ℚ} :
    boundedNumber v qualityCoverageThreshold qualityCoverageThreshold = .ok number ↔
      number = 85 ∧ numericValue v = some 85 := by
  have h85 : Binary64.ofInt 85 = some (.finite 85) := by
    have := @Binary64.ofInt_exact 85 (by norm_num)
    exact_mod_cast this
  have hin : inBounds (.finite 85) qualityCoverageThreshold qualityCoverageThreshold = .ok 85 := by
    simp [inBounds, qualityCoverageThreshold]
  constructor
  · intro h
    obtain ⟨hnumeric, hmin⟩ := boundedNumber_ok h (by norm_num [qualityCoverageThreshold])
      (by norm_num [qualityCoverageThreshold])
    have hmax : number ≤ 85 := by
      unfold boundedNumber at h
      split at h
      · split at h
        · exact (inBounds_ok h).2.2
        · cases h
      · exact (inBounds_ok h).2.2
      · cases h
    have hnumber : number = 85 := le_antisymm hmax hmin
    exact ⟨hnumber, hnumber ▸ hnumeric⟩
  · rintro ⟨rfl, hnumeric⟩
    unfold numericValue at hnumeric
    split at hnumeric
    · rename_i i
      obtain rfl : i = 85 := by
        have := Option.some.inj hnumeric
        exact_mod_cast this
      simp only [boundedNumber, h85, hin]
    · rename_i q
      obtain rfl : q = 85 := Option.some.inj hnumeric
      simpa only [boundedNumber] using hin
    · cases hnumeric

theorem equalsNumber_threshold {v : Value Binary64} (h : numericValue v = some 85) : equalsNumber 85 v = true := by
  unfold numericValue at h
  split at h
  · obtain h := Option.some.inj h
    simp [equalsNumber, h]
  · obtain h := Option.some.inj h
    simp [equalsNumber, h]
  · cases h

/-! ## The quality summary -/

variable {fields : List (String × Value Binary64)} {name : String}

theorem escapes_ensure_bind {c : Bool} {f : Unit → ParseM β} :
    Escapes (ensure c .valueError >>= f) ↔ c = true ∧ Escapes (f ()) := by
  rw [escapes_bind]
  constructor
  · rintro (h | ⟨_, h, hf⟩)
    · exact absurd h escapes_ensure
    · exact ⟨ensure_ok.1 h, hf⟩
  · rintro ⟨h, hf⟩
    exact .inr ⟨(), ensure_ok.2 h, hf⟩

/-- A field of a mapping with the expected keys. -/
theorem escapes_item_bind {names : List String} (hkeys : hasKeys fields names = true) (hname : name ∈ names)
    {f : Value Binary64 → ParseM β} :
    Escapes (item fields name >>= f) ↔ ∃ v, getField fields name = some v ∧ Escapes (f v) := by
  obtain ⟨v, hv⟩ := hasKeys_get hkeys hname
  have hitem : item fields name = .ok v := item_ok.2 hv
  rw [escapes_bind]
  simp only [item_ok]
  exact or_iff_right (by rw [hitem]; simp)

theorem escapes_boundedNumber_bind {v : Value Binary64} {minimum maximum : ℚ} {f : ℚ → ParseM β} :
    Escapes (boundedNumber v minimum maximum >>= f) ↔
      Oversized v ∨ ∃ number, boundedNumber v minimum maximum = .ok number ∧ Escapes (f number) := by
  rw [escapes_bind, escapes_boundedNumber]

def coverageFields : List String := ["coverage_percent", "coverage_threshold"]

/-- The details of the coverage operation get to a number that no float can hold. -/
def DetailsOverflow (name : String) (details : List (String × Value Binary64)) : Prop :=
  name = "coverage" ∧ hasKeys details coverageFields = true ∧
    ∃ threshold, getField details "coverage_threshold" = some threshold ∧ (Oversized threshold ∨
      numericValue threshold = some 85 ∧ ∃ percent, getField details "coverage_percent" = some percent ∧ Oversized percent)

theorem escapes_qualityOperationCoverage {details : List (String × Value Binary64)} {threshold : Value Binary64}
    (hthreshold : numericValue threshold = some 85) :
    Escapes (qualityOperationCoverage name details threshold) ↔ DetailsOverflow name details := by
  unfold qualityOperationCoverage DetailsOverflow
  split
  · rename_i hname
    rw [escapes_ensure_bind, and_iff_right hname]
    refine and_congr_right fun hkeys => ?_
    rw [escapes_item_bind hkeys (by decide)]
    refine exists_congr fun t => and_congr_right fun _ => ?_
    rw [escapes_boundedNumber_bind]
    refine or_congr_right ?_
    constructor
    · rintro ⟨number, hnumber, h⟩
      obtain ⟨rfl, h85⟩ := threshold_ok.1 hnumber
      obtain ⟨-, h⟩ := escapes_ensure_bind.1 h
      obtain ⟨percent, hpercent, h⟩ := (escapes_item_bind hkeys (by decide)).1 h
      rcases escapes_boundedNumber_bind.1 h with h | ⟨_, _, h⟩
      · exact ⟨h85, percent, hpercent, h⟩
      · exact absurd h escapes_pure
    · rintro ⟨h85, percent, hpercent, h⟩
      refine ⟨85, threshold_ok.2 ⟨rfl, h85⟩, escapes_ensure_bind.2 ⟨equalsNumber_threshold hthreshold, ?_⟩⟩
      exact (escapes_item_bind hkeys (by decide)).2 ⟨percent, hpercent, escapes_boundedNumber_bind.2 (.inl h)⟩
  · rename_i hname
    refine iff_of_false ?_ fun h => hname h.1
    split <;> simp [ParseException.caught]

/-- The fields of an operation with the expected name that has passed, up to its duration. -/
structure OperationHeader (name : String) (fields : List (String × Value Binary64)) (duration : Value Binary64) :
    Prop where
  keys : hasKeys fields operationFields = true
  operation : getField fields "operation" = some (.str name)
  status : getField fields "status" = some (.str "passed")
  duration : getField fields "duration_seconds" = some duration

/-- An operation gets to a number that no float can hold. -/
def OperationOverflows (name : String) (operation : Value Binary64) : Prop :=
  ∃ fields duration, operation = .obj fields ∧ OperationHeader name fields duration ∧
    (Oversized duration ∨ Within duration 0 maxDurationSeconds ∧
      ∃ details, getField fields "details" = some (.obj details) ∧ DetailsOverflow name details)

theorem escapes_qualityOperation {threshold operation : Value Binary64} (hthreshold : numericValue threshold = some 85) :
    Escapes (qualityOperation threshold name operation) ↔ OperationOverflows name operation := by
  unfold qualityOperation OperationOverflows
  have hdurationField : "duration_seconds" ∈ operationFields := by decide
  have hdetailsField : "details" ∈ operationFields := by decide
  split
  · rename_i fields
    constructor
    · intro h
      obtain ⟨hkeys, h⟩ := escapes_ensure_bind.1 h
      obtain ⟨v, hname, h⟩ := (escapes_item_bind hkeys (by decide)).1 h
      obtain ⟨w, hstatus, h⟩ := (escapes_item_bind hkeys (by decide)).1 h
      obtain ⟨htexts, hrest⟩ := escapes_ensure_bind.1 h
      rw [Bool.and_eq_true, isText_iff, isText_iff] at htexts
      obtain ⟨rfl, rfl⟩ := htexts
      obtain ⟨duration, hduration, hrest⟩ := (escapes_item_bind hkeys hdurationField).1 hrest
      refine ⟨fields, duration, rfl, ⟨hkeys, hname, hstatus, hduration⟩, ?_⟩
      refine (escapes_boundedNumber_bind.1 hrest).imp_right ?_
      rintro ⟨number, hnumber, h⟩
      obtain ⟨details, hdetails, h⟩ := (escapes_item_bind hkeys hdetailsField).1 h
      refine ⟨⟨number, hnumber⟩, ?_⟩
      split at h
      · rename_i details
        exact ⟨details, hdetails, (escapes_qualityOperationCoverage hthreshold).1 h⟩
      · simp [ParseException.caught] at h
    · rintro ⟨fields', duration, heq, header, h⟩
      obtain rfl : fields = fields' := by simpa using heq
      have hkeys := header.keys
      refine escapes_ensure_bind.2 ⟨hkeys, (escapes_item_bind hkeys (by decide)).2 ⟨_, header.operation, ?_⟩⟩
      refine (escapes_item_bind hkeys (by decide)).2 ⟨_, header.status, escapes_ensure_bind.2 ⟨by simp [isText], ?_⟩⟩
      refine (escapes_item_bind hkeys hdurationField).2 ⟨duration, header.duration, escapes_boundedNumber_bind.2 ?_⟩
      refine h.imp_right ?_
      rintro ⟨⟨number, hnumber⟩, details, hdetails, h⟩
      exact ⟨number, hnumber, (escapes_item_bind hkeys hdetailsField).2
        ⟨_, hdetails, (escapes_qualityOperationCoverage hthreshold).2 h⟩⟩
  · rename_i hobj
    refine iff_of_false (by simp [ParseException.caught]) ?_
    rintro ⟨fields, _, rfl, -⟩
    exact hobj fields rfl

/-- The details of an operation that the report may have. -/
def DetailsAccepted (name : String) (details : List (String × Value Binary64)) : Prop :=
  if name = "coverage" then
    hasKeys details coverageFields = true ∧
      ∃ threshold percent, getField details "coverage_threshold" = some threshold ∧ numericValue threshold = some 85 ∧
        getField details "coverage_percent" = some percent ∧ Within percent qualityCoverageThreshold maxCoveragePercent
  else name = "diagnostics" → details = []

/-- An operation that the report may have. -/
def OperationAccepted (name : String) (operation : Value Binary64) : Prop :=
  ∃ fields duration details, operation = .obj fields ∧ OperationHeader name fields duration ∧
    Within duration 0 maxDurationSeconds ∧ getField fields "details" = some (.obj details) ∧
      DetailsAccepted name details

theorem qualityOperationCoverage_accepts {details : List (String × Value Binary64)} {threshold : Value Binary64}
    (hthreshold : numericValue threshold = some 85) :
    (∃ coverage, qualityOperationCoverage name details threshold = .ok coverage) ↔ DetailsAccepted name details := by
  unfold qualityOperationCoverage DetailsAccepted
  split
  · simp only [except_bind_ok, ensure_ok, item_ok, except_pure_ok]
    constructor
    · rintro ⟨_, _, hkeys, t, ht, number, hnumber, _, -, percent, hpercent, measured, hmeasured, -⟩
      exact ⟨hkeys, t, percent, ht, (threshold_ok.1 hnumber).2, hpercent, measured, hmeasured⟩
    · rintro ⟨hkeys, t, percent, ht, h85, hpercent, measured, hmeasured⟩
      exact ⟨_, (), hkeys, t, ht, 85, threshold_ok.2 ⟨rfl, h85⟩, (), equalsNumber_threshold hthreshold, percent,
        hpercent, measured, hmeasured, rfl⟩
  · split
    · rename_i hdiagnostics
      refine iff_of_false (by simp) fun h => hdiagnostics.2 (h hdiagnostics.1)
    · rename_i hdiagnostics
      refine iff_of_true ⟨none, rfl⟩ fun hname => ?_
      by_contra hdetails
      exact hdiagnostics ⟨hname, hdetails⟩

theorem qualityOperation_accepts {threshold operation : Value Binary64}
    (hthreshold : numericValue threshold = some 85) :
    (∃ coverage, qualityOperation threshold name operation = .ok coverage) ↔ OperationAccepted name operation := by
  unfold qualityOperation OperationAccepted
  split
  · rename_i fields
    simp only [except_bind_ok, ensure_ok, item_ok, Bool.and_eq_true, isText_iff]
    constructor
    · rintro ⟨coverage, _, hkeys, _, hname, _, hstatus, _, ⟨rfl, rfl⟩, duration, hduration, number, hnumber, v,
        hdetails, h⟩
      split at h
      · rename_i details
        exact ⟨fields, duration, details, rfl, ⟨hkeys, hname, hstatus, hduration⟩, ⟨number, hnumber⟩, hdetails,
          (qualityOperationCoverage_accepts hthreshold).1 ⟨coverage, h⟩⟩
      · cases h
    · rintro ⟨fields', duration, details, heq, header, ⟨number, hnumber⟩, hdetails, h⟩
      obtain rfl : fields = fields' := by simpa using heq
      obtain ⟨coverage, h⟩ := (qualityOperationCoverage_accepts hthreshold).2 h
      exact ⟨coverage, (), header.keys, _, header.operation, _, header.status, (), ⟨rfl, rfl⟩, duration,
        header.duration, number, hnumber, _, hdetails, h⟩
  · rename_i hobj
    refine iff_of_false (by simp) ?_
    rintro ⟨fields, _, _, rfl, -⟩
    exact hobj fields rfl

/-- After operations that the report may have, one gets to a number that no float can hold. -/
inductive OperationsOverflow : List String → List (Value Binary64) → Prop
  | here {name : String} {operation : Value Binary64} (names : List String) (operations : List (Value Binary64)) :
      OperationOverflows name operation → OperationsOverflow (name :: names) (operation :: operations)
  | later {name : String} {operation : Value Binary64} {names : List String} {operations : List (Value Binary64)} :
      OperationAccepted name operation → OperationsOverflow names operations →
        OperationsOverflow (name :: names) (operation :: operations)

theorem escapes_qualityLoop {threshold : Value Binary64} (hthreshold : numericValue threshold = some 85)
    (names : List String) (operations : List (Value Binary64)) (start : Option ℚ) :
    Escapes (qualityLoop threshold names operations start) ↔ OperationsOverflow names operations := by
  induction names generalizing operations start with
  | nil =>
    refine iff_of_false (by simp [qualityLoop]) ?_
    intro h
    cases h
  | cons name names ih =>
    cases operations with
    | nil =>
      refine iff_of_false (by simp [qualityLoop]) ?_
      intro h
      cases h
    | cons operation operations =>
      rw [qualityLoop, escapes_bind, escapes_qualityOperation hthreshold]
      constructor
      · rintro (h | ⟨coverage, hok, h⟩)
        · exact .here _ _ h
        · exact .later ((qualityOperation_accepts hthreshold).1 ⟨coverage, hok⟩) ((ih _ _).1 h)
      · intro h
        cases h with
        | here _ _ h => exact .inl h
        | later hok h =>
          obtain ⟨coverage, hok⟩ := (qualityOperation_accepts hthreshold).2 hok
          exact .inr ⟨coverage, hok, (ih _ _).2 h⟩

/-- A quality report gets to a number that no float can hold before anything else is wrong with it. -/
def SummaryOverflows (summary : List (String × Value Binary64)) : Prop :=
  hasKeys summary summaryFields = true ∧ getField summary "profile" = some (.str "quality") ∧
    getField summary "status" = some (.str "passed") ∧
      ∃ threshold, getField summary "coverage_threshold" = some threshold ∧ (Oversized threshold ∨
        numericValue threshold = some 85 ∧ ∃ duration, getField summary "duration_seconds" = some duration ∧
          (Oversized duration ∨ Within duration 0 maxDurationSeconds ∧
            ∃ operations, getField summary "operations" = some (.arr operations) ∧
              operations.length = qualityOperations.length ∧ OperationsOverflow qualityOperations operations))

theorem escapes_qualitySummary {summary : List (String × Value Binary64)} :
    Escapes (qualitySummary summary) ↔ SummaryOverflows summary := by
  have hthresholdField : "coverage_threshold" ∈ summaryFields := by decide
  have hdurationField : "duration_seconds" ∈ summaryFields := by decide
  have hoperationsField : "operations" ∈ summaryFields := by decide
  unfold qualitySummary SummaryOverflows
  constructor
  · intro h
    obtain ⟨hkeys, h⟩ := escapes_ensure_bind.1 h
    obtain ⟨profile, hprofile, h⟩ := (escapes_item_bind hkeys (by decide)).1 h
    obtain ⟨status, hstatus, h⟩ := (escapes_item_bind hkeys (by decide)).1 h
    obtain ⟨htexts, hrest⟩ := escapes_ensure_bind.1 h
    rw [Bool.and_eq_true, isText_iff, isText_iff] at htexts
    rw [htexts.1] at hprofile
    rw [htexts.2] at hstatus
    obtain ⟨threshold, hthreshold, h⟩ := (escapes_item_bind hkeys hthresholdField).1 hrest
    refine ⟨hkeys, hprofile, hstatus, threshold, hthreshold, (escapes_boundedNumber_bind.1 h).imp_right ?_⟩
    rintro ⟨number, hnumber, h⟩
    obtain ⟨-, h85⟩ := threshold_ok.1 hnumber
    obtain ⟨-, h⟩ := escapes_ensure_bind.1 h
    obtain ⟨duration, hduration, h⟩ := (escapes_item_bind hkeys hdurationField).1 h
    refine ⟨h85, duration, hduration, (escapes_boundedNumber_bind.1 h).imp_right ?_⟩
    rintro ⟨seconds, hseconds, h⟩
    obtain ⟨operations, hoperations, h⟩ := (escapes_item_bind hkeys hoperationsField).1 h
    refine ⟨⟨seconds, hseconds⟩, ?_⟩
    split at h
    · rename_i operations
      obtain ⟨hlen, h⟩ := escapes_ensure_bind.1 h
      refine ⟨operations, hoperations, by simpa using hlen, ?_⟩
      rcases escapes_bind.1 h with h | ⟨coverage, -, h⟩
      · exact (escapes_qualityLoop h85 _ _ _).1 h
      · exfalso
        split at h
        · simp [ParseException.caught] at h
        · rcases escapes_bind.1 h with h | ⟨_, -, h⟩
          · exact not_escapes_coverageMake _ h
          · exact not_escapes_make _ h
    · simp [ParseException.caught] at h
  · rintro ⟨hkeys, hprofile, hstatus, threshold, hthreshold, h⟩
    refine escapes_ensure_bind.2 ⟨hkeys, (escapes_item_bind hkeys (by decide)).2 ⟨_, hprofile, ?_⟩⟩
    refine (escapes_item_bind hkeys (by decide)).2 ⟨_, hstatus, escapes_ensure_bind.2 ⟨by simp [isText], ?_⟩⟩
    refine (escapes_item_bind hkeys hthresholdField).2 ⟨threshold, hthreshold, escapes_boundedNumber_bind.2 ?_⟩
    refine h.imp_right ?_
    rintro ⟨h85, duration, hduration, h⟩
    refine ⟨85, threshold_ok.2 ⟨rfl, h85⟩, escapes_ensure_bind.2 ⟨by simp [qualityCoverageThreshold], ?_⟩⟩
    refine (escapes_item_bind hkeys hdurationField).2 ⟨duration, hduration, escapes_boundedNumber_bind.2 ?_⟩
    refine h.imp_right ?_
    rintro ⟨⟨seconds, hseconds⟩, operations, hoperations, hlen, h⟩
    refine ⟨seconds, hseconds, (escapes_item_bind hkeys hoperationsField).2 ⟨_, hoperations, ?_⟩⟩
    exact escapes_ensure_bind.2 ⟨by simpa using hlen, escapes_bind.2 (.inl ((escapes_qualityLoop h85 _ _ _).2 h))⟩

/-! ## The report -/

/-- The text nests deeper than the interpreter follows, before any error of its syntax. -/
def TooDeep (I : Interpreter) (s : List Char) : Prop :=
  s.head? ≠ some (Char.ofNat 0xFEFF) ∧
    JsonText.Nests (jsonDecoder I) I.recursionLimit (JsonText.skipWhitespace s)

theorem jsonDecoder_shallow (I : Interpreter) : (jsonDecoder I).Shallow := ⟨fun _ => raises_ok, fun _ => raises_ok⟩

theorem escapes_jsonReport {bytes : List UInt8} :
    Escapes (jsonReport I bytes) ↔ ∃ s, Utf8.strict bytes = some s ∧ TooDeep I s := by
  have hdeep := JsonText.loads_recursion (jsonDecoder_shallow I)
  unfold jsonReport TooDeep
  cases hs : Utf8.strict bytes with
  | none => simp [ParseException.caught]
  | some s =>
    simp only [Option.some.injEq, exists_eq_left']
    rw [show I.recursionLimit = (jsonDecoder I).recursionLimit from rfl, ← hdeep]
    split
    · rename_i e he
      rw [he]
      cases e <;> simp [jsonException, ParseException.caught]
    · rename_i fields hfields
      simp [hfields]
    · rename_i v hv hobj
      simp [hobj, ParseException.caught]

theorem jsonReport_ok {bytes : List UInt8} {summary : List (String × Value Binary64)} :
    jsonReport I bytes = .ok summary ↔
      ∃ s, Utf8.strict bytes = some s ∧ JsonText.loads (jsonDecoder I) s = .ok (.obj summary) := by
  unfold jsonReport
  cases hs : Utf8.strict bytes with
  | none => simp
  | some s =>
    simp only [Option.some.injEq, exists_eq_left']
    split
    · rename_i e he
      simp [he]
    · rename_i fields hfields
      simp [hfields]
    · rename_i v hv hobj
      simp only [reduceCtorEq, false_iff, hobj]
      rintro heq
      exact hv summary (Except.ok.inj heq)

/-- A report that is text, and that nests too deep or gets to a number that no float can hold. -/
def ReportEscapes (I : Interpreter) (bytes : List UInt8) : Prop :=
  ∃ s, Utf8.strict bytes = some s ∧ (TooDeep I s ∨
    ∃ summary, JsonText.loads (jsonDecoder I) s = .ok (.obj summary) ∧ SummaryOverflows summary)

theorem containedRegularFile_ok {report : Option (List UInt8)} {n : ℕ} {bytes : List UInt8} :
    containedRegularFile report n = .ok bytes ↔ report = some bytes ∧ bytes.length ≤ n := by
  unfold containedRegularFile
  cases report with
  | none => simp
  | some content =>
    by_cases hn : n < content.length
    · simp only [hn, if_true, reduceCtorEq, Option.some.injEq, false_iff, not_and]
      rintro rfl
      omega
    · simp only [hn, if_false, Except.ok.injEq, Option.some.injEq]
      exact ⟨fun h => ⟨h, h ▸ Nat.le_of_not_lt hn⟩, And.left⟩

theorem not_escapes_containedRegularFile (report : Option (List UInt8)) (n : ℕ) :
    ¬ Escapes (containedRegularFile report n) := by
  unfold containedRegularFile
  split
  · simp [ParseException.caught]
  · split <;> simp [ParseException.caught]

theorem escapes_parseQuality {n : ℕ} : Escapes (parseQuality I output n) ↔ output.commandSucceeded = true ∧
    ∃ bytes, output.checkout = some (some bytes) ∧ bytes.length ≤ min n maxQualitySummaryBytes ∧
      ReportEscapes I bytes := by
  unfold parseQuality
  split
  · rename_i report hcommand hcheckout
    simp only [qualitySummaryResult, escapes_bind, not_escapes_containedRegularFile, false_or,
      containedRegularFile_ok, escapes_jsonReport, jsonReport_ok, escapes_qualitySummary, hcommand, hcheckout,
      true_and, Option.some.injEq, ReportEscapes]
    refine exists_congr fun bytes => ?_
    rw [and_assoc]
    refine and_congr_right fun _ => and_congr_right fun _ => ?_
    constructor
    · rintro (⟨s, hs, h⟩ | ⟨summary, ⟨s, hs, hload⟩, h⟩)
      · exact ⟨s, hs, .inl h⟩
      · exact ⟨s, hs, .inr ⟨summary, hload, h⟩⟩
    · rintro ⟨s, hs, h | ⟨summary, hload, h⟩⟩
      · exact .inl ⟨s, hs, h⟩
      · exact .inr ⟨summary, ⟨s, hs, hload⟩, h⟩
  · rename_i hother
    refine iff_of_false (by simp [ParseException.caught]) ?_
    rintro ⟨hcommand, bytes, hcheckout, -⟩
    exact hother _ hcommand hcheckout

/-! ## The parser -/

/-- The step is a quality summary whose command succeeded, its contract is valid, and its report, within its bounds,
is one whose exception escapes. -/
def EscapingReport (I : Interpreter) (kind : ParserKind) (output : StepOutput) (declared : Option ResultContract) :
    Prop :=
  kind = .qualitySummaryV1 ∧
    (∀ contract, declared = some contract → validatedResultContract contract kind = .ok ()) ∧
      output.commandSucceeded = true ∧ ∃ bytes n, output.checkout = some (some bytes) ∧ parsedBytes declared = .ok n ∧
        bytes.length ≤ min n maxQualitySummaryBytes ∧ ReportEscapes I bytes

theorem escapes_parseKind {n : ℕ} : Escapes (parseKind I kind output n) ↔
    kind = .qualitySummaryV1 ∧ Escapes (parseQuality I output n) := by
  cases kind with
  | pytest | pytestCoverage => exact iff_of_false (not_escapes_parsePytest n) (by simp)
  | coverage => exact iff_of_false (not_escapes_parseCoverage n) (by simp)
  | qualitySummaryV1 => exact (and_iff_right rfl).symm
  | securityAudit | dependencyAudit | dependencyHealth | criticalCoverage | secretScan =>
    exact iff_of_false (not_escapes_parseAudit n) (by simp)

theorem parsedBytes_ok {declared : Option ResultContract}
    (hvalid : ∀ contract, declared = some contract → validatedResultContract contract kind = .ok ()) :
    ∃ n, parsedBytes declared = .ok n := by
  cases declared with
  | none => exact ⟨_, rfl⟩
  | some contract =>
    obtain ⟨valid⟩ := validatedResultContract_ok (hvalid contract rfl)
    refine ⟨valid.maximumBytes.toNat, ?_⟩
    simp only [parsedBytes, except_bind_ok, get_ok]
    exact ⟨_, valid.bytes_get, _, rfl, rfl⟩

theorem escapes_parseDeclared {declared : Option ResultContract} :
    Escapes (parseDeclared I kind output declared) ↔ EscapingReport I kind output declared := by
  have hcontract : ∃ x : ParseM Unit, ¬ Escapes x ∧
      (x = .ok () ↔ ∀ contract, declared = some contract → validatedResultContract contract kind = .ok ()) ∧
      parseDeclared I kind output declared = x >>= fun _ => parsedBytes declared >>= fun n =>
        parseKind I kind output n >>= fun parsed => enforceResultContract parsed declared := by
    cases declared with
    | none => exact ⟨return (), escapes_pure, iff_of_true rfl (by simp), rfl⟩
    | some contract => exact ⟨validatedResultContract contract kind, not_escapes_validated, by simp, rfl⟩
  obtain ⟨x, hno, hok, hdeclared⟩ := hcontract
  rw [hdeclared]
  unfold EscapingReport
  constructor
  · intro h
    rcases escapes_bind.1 h with h | ⟨_, hx, h⟩
    · exact absurd h hno
    have hvalid := hok.1 hx
    obtain ⟨n, hn⟩ := parsedBytes_ok hvalid
    rcases escapes_bind.1 h with h | ⟨n', hn', h⟩
    · rw [hn] at h
      exact absurd h escapes_ok
    rcases escapes_bind.1 h with h | ⟨parsed, -, h⟩
    · obtain ⟨hkind, h⟩ := escapes_parseKind.1 h
      obtain ⟨hcommand, bytes, hcheckout, hlen, hreport⟩ := escapes_parseQuality.1 h
      exact ⟨hkind, hvalid, hcommand, bytes, n', hcheckout, hn', hlen, hreport⟩
    · exact absurd h (not_escapes_enforce hvalid parsed)
  · rintro ⟨hkind, hvalid, hcommand, bytes, n, hcheckout, hn, hlen, hreport⟩
    refine escapes_bind.2 (.inr ⟨(), hok.2 hvalid, escapes_bind.2 (.inr ⟨n, hn, escapes_bind.2 (.inl ?_)⟩)⟩)
    exact escapes_parseKind.2 ⟨hkind, escapes_parseQuality.2 ⟨hcommand, bytes, hcheckout, hlen, hreport⟩⟩

theorem parserFailure_make (kind : ParserKind) : (parserFailure kind).make = .ok (parserFailure kind) := by
  refine make_ok.2 ⟨?_, rfl⟩
  simp only [parserFailure, ParsedResult.validShape]
  decide

/-- **A result is returned exactly if the report is not an escaping one**: a parsed result, or the failed parser
without tests, coverage or audit. -/
theorem parseResult_returns_iff {declared : Option ResultContract} :
    (∃ r, parseResult I kind output declared = .ok r ∧ (r.status = .parsed ∨ r = parserFailure kind)) ↔
      ¬ EscapingReport I kind output declared := by
  rw [← escapes_parseDeclared]
  unfold parseResult
  split
  · rename_i parsed hparsed
    refine iff_of_true ⟨parsed, rfl, .inl ?_⟩ (by rw [hparsed]; exact escapes_ok)
    simp only [parseDeclared, except_bind_ok] at hparsed
    obtain ⟨_, hvalid, _, -, r, hr, henforced⟩ := hparsed
    have hsame : parsed = r := by
      cases declared with
      | none => exact (Except.ok.inj henforced).symm
      | some contract => exact (meetsContract_of_enforced hvalid (parseKind_ok hr) henforced).1
    rw [hsame]
    exact (parseKind_ok hr).status
  · rename_i e he
    rw [he, escapes_error]
    cases hcaught : e.caught with
    | true => exact iff_of_true ⟨_, parserFailure_make kind, .inr rfl⟩ (by simp)
    | false => exact iff_of_false (by simp) (by simp)

/-! ## A report that nests too deep -/

theorem nests_brackets (d : JsonText.Decoder Binary64) {n m : ℕ} (h : n < m) :
    JsonText.Nests d n (List.replicate m '[') := by
  obtain ⟨m, rfl⟩ : ∃ k, m = k + 1 := ⟨m - 1, by omega⟩
  induction n generalizing m with
  | zero => exact ⟨'[', List.replicate m '[', rfl, .inl rfl⟩
  | succ n ih =>
    obtain ⟨m, rfl⟩ : ∃ k, m = k + 1 := ⟨m - 1, by omega⟩
    exact .inl ⟨List.replicate (m + 1) '[', rfl, .here (ih m (by omega))⟩

/-- A successful step whose report is 1001 opening brackets. -/
def deepOutput : StepOutput := ⟨some [], some [], true, some (some (List.replicate 1001 91))⟩

theorem deepOutput_escapes : EscapingReport plainInterpreter .qualitySummaryV1 deepOutput none := by
  refine ⟨rfl, by simp, rfl, _, maxParseBytes, rfl, rfl, ?_, List.replicate 1001 '[', ?_, .inl ⟨?_, ?_⟩⟩
  · rw [List.length_replicate]
    decide
  · rw [Utf8.strict_ascii fun b hb => by rw [List.eq_of_mem_replicate hb]; decide, List.map_replicate]
    rfl
  · simp
  · exact @nests_brackets _ 1000 1001 (by decide)

/-- The exception of `json.loads` leaves the parser. -/
theorem deep_report_raises :
    ∃ e, parseResult plainInterpreter .qualitySummaryV1 deepOutput none = .error e ∧ e.caught = false := by
  obtain ⟨e, he, hcaught⟩ := escapes_parseDeclared.2 deepOutput_escapes
  refine ⟨e, ?_, hcaught⟩
  unfold parseResult
  rw [he]
  simp [hcaught]

end Switchboard
