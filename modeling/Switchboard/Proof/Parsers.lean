import Switchboard.Proof.PytestCounts

/-!
# Results that satisfy their contract

The thresholds of a contract are enforced on the parts that a result has. The validation of the
contract makes sure that the parser of its kind fills the parts that it sets thresholds on.

* `ValidContract`: what `_validated_result_contract` has checked.
* `parseKind_ok`: which parts the parser of a kind fills.
* `boundedNumber_ok`: the numbers of a report within their bounds.
* `parseResult_contract`: a parsed result meets its contract.
-/

namespace Switchboard

open PyText Transaction
open JsonText (Value)

variable {I : Interpreter} {kind : ParserKind} {contract : ResultContract} {output : StepOutput} {r : ParsedResult}

/-! ## Valid contracts -/

theorem get_ok {name : String} {v : Json} : contract.get name = .ok v ↔ lookup contract name = some v := by
  unfold ResultContract.get
  cases lookup contract name <;> simp

/-- What `_validated_result_contract` has checked of the fields that are enforced later. -/
structure ValidContract (contract : ResultContract) (kind : ParserKind) where
  maximumBytes : ℤ
  maximumRecords : ℤ
  minimumCoverage : Json
  minimumTests : Json
  failures : List Json
  bytes_get : lookup contract "maximum_parsed_bytes" = some (.int maximumBytes)
  records_get : lookup contract "maximum_parsed_records" = some (.int maximumRecords)
  coverage_get : lookup contract "minimum_coverage_percent" = some minimumCoverage
  tests_get : lookup contract "minimum_test_count" = some minimumTests
  failures_get : lookup contract "failure_conditions" = some (.arr failures)
  coverage_int : minimumCoverage = .null ∨ ∃ m, minimumCoverage = .int m
  tests_int : minimumTests = .null ∨ ∃ m, minimumTests = .int m
  supported : ∀ v ∈ failures, ∃ name ∈ resultContractFailures kind, v = .str name
  coverage_kind : minimumCoverage = .null ∨ kind ∈ [.coverage, .pytestCoverage, .qualitySummaryV1]
  tests_kind : minimumTests = .null ∨ kind ∈ [.pytest, .pytestCoverage]

theorem isNone_iff {v : Json} : isNone v = true ↔ v = .null := by
  cases v <;> simp [isNone]

theorem isIntBetween_iff {low high : ℤ} {v : Json} :
    isIntBetween low high v = true ↔ ∃ i, v = .int i ∧ low ≤ i ∧ i ≤ high := by
  cases v <;> simp [isIntBetween]

theorem isStr_iff {v : Json} {s : String} : isStr v s = true ↔ v = .str s := by
  cases v <;> simp [isStr]

theorem isTextListIn_iff {names : List String} {v : Json} :
    isTextListIn names v = true ↔ ∃ items, v = .arr items ∧ ∀ v ∈ items, ∃ name ∈ names, v = .str name := by
  cases v <;> simp [isTextListIn, isStr_iff]

theorem declares_iff {failures : List Json} {name : String} : declares failures name = true ↔ .str name ∈ failures := by
  simp [declares, isStr_iff]

theorem validatedResultContract_ok (h : validatedResultContract contract kind = .ok ()) :
    Nonempty (ValidContract contract kind) := by
  simp only [validatedResultContract, except_bind_ok, ensure_ok, get_ok, Bool.and_eq_true, Bool.or_eq_true,
    decide_eq_true_eq, isNone_iff, isIntBetween_iff, isTextListIn_iff] at h
  obtain ⟨_, -, _, -, _, -, _, -, _, -, _, -, bytes, hbytes, records, hrecords, _, ⟨⟨m, rfl, -⟩, ⟨n, rfl, -⟩⟩, coverage,
    hcoverage, tests, htests, _, hcoverageInt, _, -, _, htestsInt, _, -, failures, hfailures, _, -, _, -, _,
    ⟨items, rfl, hsupported⟩, _, -, _, hcoverageKind, htestsKind⟩ := h
  exact ⟨{
    maximumBytes := m
    maximumRecords := n
    minimumCoverage := coverage
    minimumTests := tests
    failures := items
    bytes_get := hbytes
    records_get := hrecords
    coverage_get := hcoverage
    tests_get := htests
    failures_get := hfailures
    coverage_int := hcoverageInt.imp_right fun h => h.imp fun _ hi => hi.1
    tests_int := htestsInt.imp_right fun h => h.imp fun _ hi => hi.1
    supported := hsupported
    coverage_kind := hcoverageKind
    tests_kind := htestsKind }⟩

/-! ## The parts of a result -/

theorem make_ok : r.make = .ok r' ↔ r.validShape = true ∧ r = r' := by
  simp only [ParsedResult.make, except_bind_ok, ensure_ok, except_pure_ok]
  constructor
  · rintro ⟨_, h⟩
    exact h
  · intro h
    exact ⟨(), h⟩

/-- The result of a parser that did not fail, of the given kind and with the parts of that kind. -/
structure ParsedAs (kind : ParserKind) (r : ParsedResult) : Prop where
  parser : r.parser = kind
  status : r.status = .parsed
  shape : r.validShape = true

theorem parsedAs_of_make {r' : ParsedResult} (h : r.make = .ok r') (hparser : r.parser = kind)
    (hstatus : r.status = .parsed) : ParsedAs kind r' := by
  obtain ⟨hshape, rfl⟩ := make_ok.1 h
  exact ⟨hparser, hstatus, hshape⟩

theorem parsePytest_ok {n : ℕ} (h : parsePytest I kind output n = .ok r) : ParsedAs kind r := by
  simp only [parsePytest, except_bind_ok] at h
  obtain ⟨s, -, tests, -, h⟩ := h
  split at h
  · obtain ⟨measured, -, h⟩ := except_bind_ok.1 h
    obtain ⟨_, -, h⟩ := except_bind_ok.1 h
    exact parsedAs_of_make h rfl rfl
  · obtain ⟨measured, -, h⟩ := except_bind_ok.1 h
    obtain ⟨_, -, h⟩ := except_bind_ok.1 h
    exact parsedAs_of_make h rfl rfl

theorem parseCoverage_ok {n : ℕ} (h : parseCoverage I output n = .ok r) : ParsedAs .coverage r := by
  simp only [parseCoverage, except_bind_ok] at h
  obtain ⟨s, -, measured, -, _, -, h⟩ := h
  exact parsedAs_of_make h rfl rfl

theorem parseAudit_ok {n : ℕ} (h : parseAudit kind output n = .ok r) : ParsedAs kind r := by
  simp only [parseAudit, except_bind_ok] at h
  obtain ⟨s, -, _, -, audit, -, h⟩ := h
  exact parsedAs_of_make h rfl rfl

theorem qualitySummary_ok {summary : List (String × Value Binary64)} (h : qualitySummary summary = .ok r) :
    ParsedAs .qualitySummaryV1 r := by
  simp only [qualitySummary, except_bind_ok] at h
  obtain ⟨_, -, _, -, _, -, _, -, _, -, _, -, _, -, _, -, _, -, operations, -, h⟩ := h
  split at h
  · simp only [except_bind_ok] at h
    obtain ⟨_, -, _, -, h⟩ := h
    split at h
    · cases h
    · obtain ⟨_, -, h⟩ := except_bind_ok.1 h
      exact parsedAs_of_make h rfl rfl
  · cases h

theorem parseQuality_ok {n : ℕ} (h : parseQuality I output n = .ok r) : output.commandSucceeded = true ∧
    ∃ bytes summary, output.checkout = some (some bytes) ∧ jsonReport I bytes = .ok summary ∧
      qualitySummary summary = .ok r := by
  unfold parseQuality at h
  split at h
  · rename_i report hcommand hcheckout
    simp only [qualitySummaryResult, except_bind_ok] at h
    obtain ⟨bytes, hbytes, summary, hsummary, h⟩ := h
    unfold containedRegularFile at hbytes
    cases report with
    | none => cases hbytes
    | some content =>
      simp only at hbytes
      split at hbytes
      · cases hbytes
      · cases hbytes
        exact ⟨hcommand, bytes, summary, hcheckout, hsummary, h⟩
  · cases h

/-- **Each parser fills the parts of its kind.** -/
theorem parseKind_ok {n : ℕ} (h : parseKind I kind output n = .ok r) : ParsedAs kind r := by
  cases kind with
  | pytest | pytestCoverage => exact parsePytest_ok h
  | coverage => exact parseCoverage_ok h
  | qualitySummaryV1 =>
    obtain ⟨-, bytes, summary, -, -, h⟩ := parseQuality_ok h
    exact qualitySummary_ok h
  | securityAudit | dependencyAudit | dependencyHealth | criticalCoverage | secretScan => exact parseAudit_ok h

theorem ParsedAs.tests (h : ParsedAs kind r) (hkind : kind ∈ [.pytest, .pytestCoverage]) : ∃ tests, r.tests = some tests := by
  have hshape := h.shape
  rw [← h.parser] at hkind
  rw [← Option.isSome_iff_exists]
  simp only [List.mem_cons, List.not_mem_nil, or_false] at hkind
  rcases hkind with hk | hk <;> simp_all [ParsedResult.validShape, h.status]

theorem ParsedAs.coverage (h : ParsedAs kind r) (hkind : kind ∈ [.coverage, .pytestCoverage, .qualitySummaryV1]) :
    ∃ coverage, r.coverage = some coverage := by
  have hshape := h.shape
  rw [← h.parser] at hkind
  rw [← Option.isSome_iff_exists]
  simp only [List.mem_cons, List.not_mem_nil, or_false] at hkind
  rcases hkind with hk | hk | hk <;> simp_all [ParsedResult.validShape, h.status]

/-! ## Thresholds and conditions -/

/-- What a contract asks of a result. -/
structure MeetsContract (contract : ResultContract) (r : ParsedResult) : Prop where
  records : ∀ tests, r.tests = some tests →
    ∃ maximum : ℤ, lookup contract "maximum_parsed_records" = some (.int maximum) ∧ tests.total ≤ maximum
  minimumTests : ∀ v, lookup contract "minimum_test_count" = some v → v ≠ .null →
    ∃ (minimum : ℤ) (tests : ParsedTestCounts), v = .int minimum ∧ r.tests = some tests ∧ minimum ≤ tests.total
  minimumCoverage : ∀ v, lookup contract "minimum_coverage_percent" = some v → v ≠ .null →
    ∃ (minimum : ℤ) (coverage : ParsedCoverage),
      v = .int minimum ∧ r.coverage = some coverage ∧ minimum ≤ coverage.measuredPercent
  testFailure : ∀ failures, lookup contract "failure_conditions" = some (.arr failures) →
    .str "test-failure" ∈ failures → ∃ tests, r.tests = some tests ∧ tests.failed = 0 ∧ tests.errors = 0
  audits : ∀ failures, lookup contract "failure_conditions" = some (.arr failures) →
    (∃ condition ∈ auditConditions, .str condition ∈ failures) →
      ∃ audit, r.audit = some audit ∧ audit.passed = true ∧ audit.findings = 0

theorem assertInt_int {i j : ℤ} : assertInt (.int i) = .ok j ↔ i = j := by simp [assertInt]

theorem enforceThresholds_tests {maximum : ℤ} (h : enforceThresholds r contract maximum = .ok ()) {tests : ParsedTestCounts}
    (htests : r.tests = some tests) : tests.total ≤ maximum ∧ ∀ minimum : ℤ,
      lookup contract "minimum_test_count" = some (.int minimum) → minimum ≤ tests.total := by
  simp only [enforceThresholds, htests, except_bind_ok, ensure_ok, decide_eq_true_eq, get_ok] at h
  obtain ⟨_, ⟨_, hmax, v, hv, hmin⟩, -⟩ := h
  refine ⟨hmax, fun minimum hlookup => ?_⟩
  obtain rfl : v = .int minimum := Option.some.inj (hv.symm.trans hlookup)
  simp only [isNone, Bool.false_eq_true, if_false, except_bind_ok, assertInt_int, ensure_ok, decide_eq_true_eq] at hmin
  obtain ⟨_, rfl, hmin⟩ := hmin
  exact hmin

theorem enforceThresholds_coverage {maximum : ℤ} (h : enforceThresholds r contract maximum = .ok ())
    {coverage : ParsedCoverage} (hcoverage : r.coverage = some coverage) (minimum : ℤ)
    (hlookup : lookup contract "minimum_coverage_percent" = some (.int minimum)) :
    minimum ≤ coverage.measuredPercent := by
  simp only [enforceThresholds, hcoverage, except_bind_ok, ensure_ok, get_ok] at h
  obtain ⟨_, -, _, ⟨v, hv, hmin⟩, -⟩ := h
  obtain rfl : v = .int minimum := Option.some.inj (hv.symm.trans hlookup)
  simp only [isNone, Bool.false_eq_true, if_false, except_bind_ok, assertInt_int, ensure_ok, decide_eq_true_eq] at hmin
  obtain ⟨_, rfl, hmin⟩ := hmin
  exact hmin

theorem assertList_arr {items items' : List Json} : assertList (.arr items) = .ok items' ↔ items = items' := by
  simp [assertList]

theorem enforceFailures_ok {failures : List Json} (h : enforceFailures r contract = .ok ())
    (hlookup : lookup contract "failure_conditions" = some (.arr failures)) :
    (.str "test-failure" ∈ failures → ∀ tests, r.tests = some tests → tests.failed = 0 ∧ tests.errors = 0) ∧
      ((∃ condition ∈ auditConditions, .str condition ∈ failures) →
        ∃ audit, r.audit = some audit ∧ audit.passed = true ∧ audit.findings = 0) := by
  simp only [enforceFailures, except_bind_ok, ensure_ok, get_ok] at h
  obtain ⟨v, hv, items, hitems, _, htests, haudit⟩ := h
  obtain rfl : v = .arr failures := Option.some.inj (hv.symm.trans hlookup)
  obtain rfl := assertList_arr.1 hitems
  constructor
  · intro hdeclared tests heq
    have hd := declares_iff.2 hdeclared
    simpa [hd, heq] using htests
  · rintro ⟨condition, hcondition, hdeclared⟩
    have hd : auditConditions.any (declares failures) = true :=
      List.any_eq_true.2 ⟨condition, hcondition, declares_iff.2 hdeclared⟩
    cases ha : r.audit with
    | none => simp [hd, ha] at haudit
    | some audit => exact ⟨audit, rfl, by simpa [hd, ha] using haudit⟩

/-- **An enforced contract is met**, because the parser of its kind has filled the parts it speaks of. -/
theorem meetsContract_of_enforced (hvalid : validatedResultContract contract kind = .ok ()) (hparsed : ParsedAs kind r)
    {r' : ParsedResult} (h : enforceResultContract r (some contract) = .ok r') : r' = r ∧ MeetsContract contract r := by
  obtain ⟨valid⟩ := validatedResultContract_ok hvalid
  simp only [enforceResultContract, except_bind_ok, ensure_ok, get_ok, except_pure_ok] at h
  obtain ⟨v, hv, maximum, hmaximum, _, -, _, hthresholds, _, hfailures, rfl⟩ := h
  obtain rfl : v = .int valid.maximumRecords := Option.some.inj (hv.symm.trans valid.records_get)
  obtain rfl := assertInt_int.1 hmaximum
  obtain ⟨hnofailure, haudits⟩ := enforceFailures_ok hfailures valid.failures_get
  have hunique : ∀ {failures}, lookup contract "failure_conditions" = some (.arr failures) → failures = valid.failures := by
    intro failures hlookup
    simpa using hlookup.symm.trans valid.failures_get
  refine ⟨rfl, ?_, ?_, ?_, ?_, ?_⟩
  · intro tests htests
    exact ⟨_, valid.records_get, (enforceThresholds_tests hthresholds htests).1⟩
  · intro v hlookup hnull
    obtain rfl : v = valid.minimumTests := Option.some.inj (hlookup.symm.trans valid.tests_get)
    obtain ⟨minimum, hminimum⟩ := valid.tests_int.resolve_left hnull
    obtain ⟨tests, htests⟩ := hparsed.tests (valid.tests_kind.resolve_left hnull)
    exact ⟨minimum, tests, hminimum, htests,
      (enforceThresholds_tests hthresholds htests).2 minimum (hminimum ▸ valid.tests_get)⟩
  · intro v hlookup hnull
    obtain rfl : v = valid.minimumCoverage := Option.some.inj (hlookup.symm.trans valid.coverage_get)
    obtain ⟨minimum, hminimum⟩ := valid.coverage_int.resolve_left hnull
    obtain ⟨coverage, hcoverage⟩ := hparsed.coverage (valid.coverage_kind.resolve_left hnull)
    exact ⟨minimum, coverage, hminimum, hcoverage,
      enforceThresholds_coverage hthresholds hcoverage minimum (hminimum ▸ valid.coverage_get)⟩
  · intro failures hlookup hdeclared
    obtain rfl := hunique hlookup
    -- only the two pytest parsers may declare the condition
    have hkind : kind ∈ [ParserKind.pytest, .pytestCoverage] := by
      obtain ⟨name, hname, heq⟩ := valid.supported _ hdeclared
      obtain rfl : "test-failure" = name := by simpa using heq
      revert hname
      cases kind <;> simp [resultContractFailures]
    obtain ⟨tests, htests⟩ := hparsed.tests hkind
    exact ⟨tests, htests, hnofailure hdeclared tests htests⟩
  · intro failures hlookup hdeclared
    obtain rfl := hunique hlookup
    exact haudits hdeclared

/-! ## Numbers of a report -/

/-- The number that a value is. -/
def numericValue : Value Binary64 → Option ℚ
  | .int i => some i
  | .float (.finite q) => some q
  | _ => none

theorem inBounds_ok {number : Binary64} {minimum maximum q : ℚ} (h : inBounds number minimum maximum = .ok q) :
    number = .finite q ∧ minimum ≤ q ∧ q ≤ maximum := by
  unfold inBounds at h
  split at h
  · split at h
    · rename_i hbounds
      obtain rfl := Except.ok.inj h
      exact ⟨rfl, hbounds⟩
    · cases h
  · cases h

/-- A number within small positive bounds is the number of the report. -/
theorem boundedNumber_ok {v : Value Binary64} {minimum maximum q : ℚ} (h : boundedNumber v minimum maximum = .ok q)
    (hpos : 0 < minimum) (hsmall : maximum < 2 ^ 53) : numericValue v = some q ∧ minimum ≤ q := by
  unfold boundedNumber at h
  split at h
  · split at h
    · rename_i number hnumber
      obtain ⟨rfl, hmin, hmax⟩ := inBounds_ok h
      have := Binary64.ofInt_between hnumber (lt_of_lt_of_le hpos hmin) (lt_of_le_of_lt hmax hsmall)
      exact ⟨congrArg some this.symm, hmin⟩
    · cases h
  · obtain ⟨rfl, hmin, -⟩ := inBounds_ok h
    exact ⟨rfl, hmin⟩
  · cases h

/-! ## The quality summary -/

theorem item_ok {fields : List (String × Value Binary64)} {name : String} {v : Value Binary64} :
    item fields name = .ok v ↔ getField fields name = some v := by
  unfold item
  cases getField fields name <;> simp

theorem isText_iff {F : Type} {v : Value F} {s : String} : isText v s = true ↔ v = .str s := by
  cases v <;> simp [isText]

/-- An operation of the report with the expected name that has passed. -/
def OperationPassed (name : String) (operation : Value Binary64) : Prop :=
  ∃ fields, operation = .obj fields ∧ getField fields "operation" = some (.str name) ∧
    getField fields "status" = some (.str "passed")

/-- The coverage operation of the report, with its coverage. -/
def CoverageOperation (operation : Value Binary64) (percent : ℚ) : Prop :=
  ∃ fields details value, operation = .obj fields ∧ getField fields "operation" = some (.str "coverage") ∧
    getField fields "details" = some (.obj details) ∧ getField details "coverage_percent" = some value ∧
      numericValue value = some percent

theorem qualityOperationCoverage_some {name : String} {details : List (String × Value Binary64)}
    {threshold : Value Binary64} {percent : ℚ}
    (h : qualityOperationCoverage name details threshold = .ok (some percent)) :
    name = "coverage" ∧ 85 ≤ percent ∧
      ∃ value, getField details "coverage_percent" = some value ∧ numericValue value = some percent := by
  unfold qualityOperationCoverage at h
  split at h
  · rename_i hname
    simp only [except_bind_ok, except_pure_ok, item_ok, Option.some.injEq] at h
    obtain ⟨_, -, _, -, _, -, _, -, value, hvalue, _, hmeasured, rfl⟩ := h
    have hsmall : ((maxCoveragePercent : ℤ) : ℚ) < 2 ^ 53 := by norm_num [maxCoveragePercent]
    obtain ⟨hnumeric, hmin⟩ := boundedNumber_ok hmeasured (by norm_num [qualityCoverageThreshold]) hsmall
    exact ⟨hname, hmin, value, hvalue, hnumeric⟩
  · split at h <;> cases h

theorem qualityOperation_ok {name : String} {operation threshold : Value Binary64} {coverage : Option ℚ}
    (h : qualityOperation threshold name operation = .ok coverage) : OperationPassed name operation ∧
      ∀ percent, coverage = some percent → 85 ≤ percent ∧ CoverageOperation operation percent := by
  unfold qualityOperation at h
  split at h
  · rename_i fields
    simp only [except_bind_ok, item_ok, ensure_ok, Bool.and_eq_true, isText_iff] at h
    obtain ⟨_, -, _, hname, _, hstatus, _, ⟨rfl, rfl⟩, _, -, _, -, details, hdetails, h⟩ := h
    refine ⟨⟨fields, rfl, hname, hstatus⟩, ?_⟩
    rintro percent rfl
    split at h
    · rename_i details
      obtain ⟨rfl, hmin, value, hvalue, hnumeric⟩ := qualityOperationCoverage_some h
      exact ⟨hmin, fields, details, value, rfl, hname, hdetails, hvalue, hnumeric⟩
    · cases h
  · cases h

/-- The loop has passed every operation, and its coverage is that of one of them. -/
theorem qualityLoop_ok {threshold : Value Binary64} {names : List String} {operations : List (Value Binary64)}
    {start coverage : Option ℚ} (hlen : operations.length = names.length)
    (h : qualityLoop threshold names operations start = .ok coverage) :
    List.Forall₂ OperationPassed names operations ∧ (coverage = start ∨
      ∃ percent, coverage = some percent ∧ 85 ≤ percent ∧ ∃ operation ∈ operations, CoverageOperation operation percent) := by
  induction names generalizing operations start with
  | nil =>
    obtain rfl : operations = [] := by simpa using hlen
    exact ⟨.nil, .inl (Except.ok.inj h).symm⟩
  | cons name names ih =>
    cases operations with
    | nil => simp at hlen
    | cons operation operations =>
      simp only [qualityLoop, except_bind_ok] at h
      obtain ⟨measured, hoperation, h⟩ := h
      obtain ⟨hpassed, hmeasured⟩ := qualityOperation_ok hoperation
      obtain ⟨hall, hcoverage⟩ := ih (by simpa using hlen) h
      refine ⟨.cons hpassed hall, ?_⟩
      rcases hcoverage with heq | ⟨percent, heq, hmin, operation', hmem, hcov⟩
      · cases measured with
        | none => exact .inl heq
        | some percent =>
          obtain ⟨hmin, hcov⟩ := hmeasured percent rfl
          exact .inr ⟨percent, heq, hmin, operation, List.mem_cons_self, hcov⟩
      · exact .inr ⟨percent, heq, hmin, operation', List.mem_cons_of_mem _ hmem, hcov⟩

/-- What is behind a parsed quality summary. -/
structure QualityPassed (I : Interpreter) (output : StepOutput) (r : ParsedResult) : Prop where
  succeeded : output.commandSucceeded = true
  report : ∃ bytes summary operations, output.checkout = some (some bytes) ∧ jsonReport I bytes = .ok summary ∧
    getField summary "operations" = some (.arr operations) ∧
      List.Forall₂ OperationPassed qualityOperations operations ∧
        ∃ coverage operation, r.coverage = some coverage ∧ operation ∈ operations ∧
          CoverageOperation operation coverage.measuredPercent ∧ 85 ≤ coverage.measuredPercent

theorem coverageMake_ok {q : ℚ} {coverage : ParsedCoverage} (h : ParsedCoverage.make (.finite q) = .ok coverage) :
    coverage.measuredPercent = q := by
  unfold ParsedCoverage.make at h
  simp only at h
  split at h
  · cases h
    rfl
  · cases h

theorem qualitySummary_passed {summary : List (String × Value Binary64)} (h : qualitySummary summary = .ok r) :
    ∃ operations, getField summary "operations" = some (.arr operations) ∧
      List.Forall₂ OperationPassed qualityOperations operations ∧
        ∃ coverage operation, r.coverage = some coverage ∧ operation ∈ operations ∧
          CoverageOperation operation coverage.measuredPercent ∧ 85 ≤ coverage.measuredPercent := by
  simp only [qualitySummary, except_bind_ok, item_ok] at h
  obtain ⟨_, -, _, -, _, -, _, -, threshold, -, _, -, _, -, _, -, _, -, value, hvalue, h⟩ := h
  split at h
  · rename_i operations
    simp only [except_bind_ok, ensure_ok, beq_iff_eq] at h
    obtain ⟨_, hlen, coveragePercent, hloop, h⟩ := h
    obtain ⟨hall, hcoverage⟩ := qualityLoop_ok hlen hloop
    refine ⟨operations, hvalue, hall, ?_⟩
    split at h
    · cases h
    · rename_i percent
      obtain ⟨coverage, hmake, h⟩ := except_bind_ok.1 h
      obtain ⟨-, rfl⟩ := make_ok.1 h
      obtain ⟨percent', heq, hmin, operation, hmem, hcov⟩ := hcoverage.resolve_left (by simp)
      obtain rfl : percent = percent' := Option.some.inj heq
      have hpercent := coverageMake_ok hmake
      exact ⟨coverage, operation, rfl, hmem, hpercent ▸ hcov, hpercent ▸ hmin⟩
  · cases h

/-! ## The parsed result -/

theorem parseResult_parsed {declared : Option ResultContract} (h : parseResult I kind output declared = .ok r)
    (hstatus : r.status = .parsed) : parseDeclared I kind output declared = .ok r := by
  unfold parseResult at h
  split at h
  · rename_i parsed hparsed
    rw [hparsed, Except.ok.inj h]
  · split at h
    · obtain ⟨-, rfl⟩ := make_ok.1 h
      cases hstatus
    · cases h

/-- **A parsed result meets its contract**: thresholds and failure conditions hold of it, and a quality summary rests
on a report whose operations are the inventory, all passed. -/
theorem parseResult_contract {declared : Option ResultContract} (h : parseResult I kind output declared = .ok r)
    (hstatus : r.status = .parsed) :
    (∀ contract, declared = some contract → MeetsContract contract r) ∧
      (kind = .qualitySummaryV1 → QualityPassed I output r) := by
  have hdeclared := parseResult_parsed h hstatus
  simp only [parseDeclared, except_bind_ok] at hdeclared
  obtain ⟨_, hvalid, bytes, -, parsed, hparsed, henforced⟩ := hdeclared
  have hsame : r = parsed ∧ ∀ contract, declared = some contract → MeetsContract contract r := by
    cases declared with
    | none => exact ⟨(Except.ok.inj henforced).symm, by simp⟩
    | some contract =>
      obtain ⟨rfl, hmeets⟩ := meetsContract_of_enforced hvalid (parseKind_ok hparsed) henforced
      refine ⟨rfl, fun contract' heq => ?_⟩
      obtain rfl := Option.some.inj heq
      exact hmeets
  obtain ⟨rfl, hmeets⟩ := hsame
  refine ⟨hmeets, ?_⟩
  rintro rfl
  obtain ⟨hsucceeded, content, summary, hcheckout, hreport, hsummary⟩ := parseQuality_ok hparsed
  obtain ⟨operations, hoperations⟩ := qualitySummary_passed hsummary
  exact ⟨hsucceeded, content, summary, operations, hcheckout, hreport, hoperations⟩

/-- A contract of a test run. -/
def testContract : ResultContract :=
  [("failure_conditions", .arr [.str "test-failure"]), ("maximum_parsed_bytes", .int 1048576),
    ("maximum_parsed_records", .int 1000), ("minimum_coverage_percent", .null), ("minimum_test_count", .int 1),
    ("parser_kind", .str "pytest"), ("required_summary_fields", .arr [.str "tests"]), ("source", .str "stdout"),
    ("source_path", .null)]

/-- The bytes of `3 passed`. -/
def passedOutput : List UInt8 := [51, 32, 112, 97, 115, 115, 101, 100]

def passedResult : ParsedResult :=
  { parser := .pytest, status := .parsed, tests := some ⟨3, 0, 0, 0, 0, 0, 3, by decide, rfl⟩ }

theorem parseResult_contract_passed :
    (∀ contract, some testContract = some contract → MeetsContract contract passedResult) ∧
      (ParserKind.pytest = .qualitySummaryV1 →
        QualityPassed plainInterpreter ⟨some passedOutput, some [], true, none⟩ passedResult) :=
  parseResult_contract (by decide +kernel) rfl

end Switchboard
