import Switchboard.Proof.Parsers
import Switchboard.Spec.WorkloadProfiles

/-!
# Contracts that the worker executes

The catalog and the worker hold the same tables and bounds, so that most of what the one has checked the
other accepts. The catalog compares numbers where the worker asks for integers, and it does not compare the
least number of tests with the largest number of records.

* `isIntBetween_toJson`: the two checks of one number.
* `acceptsPayload_iff`: what the worker checks of the payload of a contract.
* `resultContract_executable_iff`: when a contract of the catalog is executable.
-/

namespace Switchboard

open Transaction

variable {c : ProfileResultContract} {kind : ParserKind}

/-! ## Numbers -/

theorem isIntBetween_toJson (low high : ℤ) (n : Number) :
    isIntBetween low high n.toJson = true ↔ n.isInt = true ∧ n.between low high = true := by
  cases n with
  | int i => simp [isIntBetween, Number.toJson, Number.isInt, Number.between, Number.value]
  | bool b => simp [isIntBetween, Number.toJson, Number.isInt]
  | float x text => simp [isIntBetween, Number.toJson, Number.isInt]

theorem isNone_toJson (n : Number) : isNone n.toJson = false := by
  cases n <;> rfl

theorem isNone_optional (n : Option Number) : isNone ((n.map Number.toJson).getD .null) = n.isNone := by
  cases n with
  | none => rfl
  | some n => exact isNone_toJson n

theorem isIntBetween_optional (low high : ℤ) (n : Option Number) :
    (n.isNone || isIntBetween low high ((n.map Number.toJson).getD .null)) = true ↔
      n.all Number.isInt = true ∧ n.all (Number.between low high) = true := by
  cases n with
  | none => simp
  | some n => simp [isIntBetween_toJson]

theorem assertInt_toJson {n : Number} (h : n.isInt = true) : ∃ i : ℤ, assertInt n.toJson = .ok i ∧ n.value = i := by
  cases n with
  | int i => exact ⟨i, rfl, rfl⟩
  | bool b => cases h
  | float x text => cases h

theorem Number.between_iff {low high : ℤ} {n : Number} :
    n.between low high = true ↔ (low : ℚ) ≤ n.value ∧ n.value ≤ high := by
  simp [Number.between]

/-! ## Tables -/

theorem isTextList_texts (texts : List String) : isTextList (.arr (texts.map .str)) = true := by
  simp [isTextList]

theorem isTextListIn_texts {names texts : List String} :
    isTextListIn names (.arr (texts.map .str)) = texts.all fun t => names.contains t := by
  simp only [isTextListIn, isStr, List.all_map, Function.comp_def, List.contains_eq_any_beq]

theorem parserKinds_value {k : String} (h : k ∈ parserKinds) : ∃ kind : ParserKind, kind.value = k := by
  simp only [parserKinds, List.mem_cons, List.not_mem_nil, or_false] at h
  rcases h with rfl | rfl | rfl | rfl | rfl | rfl | rfl | rfl | rfl
  · exact ⟨.pytest, rfl⟩
  · exact ⟨.coverage, rfl⟩
  · exact ⟨.pytestCoverage, rfl⟩
  · exact ⟨.securityAudit, rfl⟩
  · exact ⟨.dependencyAudit, rfl⟩
  · exact ⟨.dependencyHealth, rfl⟩
  · exact ⟨.criticalCoverage, rfl⟩
  · exact ⟨.qualitySummaryV1, rfl⟩
  · exact ⟨.secretScan, rfl⟩

/-- The two tables of summary fields and the two of failure conditions agree. -/
theorem tables_agree (kind : ParserKind) : tableEntry resultFieldsByParser kind.value = availableFields kind ∧
    tableEntry resultFailuresByParser kind.value = resultContractFailures kind := by
  cases kind <;> decide

theorem coverageKinds_agree (kind : ParserKind) :
    ["coverage", "pytest-coverage", "quality-summary-v1"].contains kind.value =
      decide (kind ∈ [.coverage, .pytestCoverage, .qualitySummaryV1]) := by
  cases kind <;> decide

theorem testKinds_agree (kind : ParserKind) :
    ["pytest", "pytest-coverage"].contains kind.value = decide (kind ∈ [.pytest, .pytestCoverage]) := by
  cases kind <;> decide

theorem quality_value (kind : ParserKind) : kind.value = "quality-summary-v1" ↔ kind = .qualitySummaryV1 := by
  cases kind <;> decide

/-! ## Payloads -/

/-- Every number of the contract is an integer. -/
def ProfileResultContract.Integral (c : ProfileResultContract) : Prop :=
  c.maximumParsedRecords.isInt = true ∧ c.maximumParsedBytes.isInt = true ∧
    c.minimumCoveragePercent.all Number.isInt = true ∧ c.minimumTestCount.all Number.isInt = true

/-- The least number of tests is a number of records. -/
def ProfileResultContract.TestsWithinRecords (c : ProfileResultContract) : Prop :=
  ∀ n, c.minimumTestCount = some n → n.value ≤ c.maximumParsedRecords.value

theorem payload_keys (c : ProfileResultContract) : hasKeys c.identityPayload resultContractFields = true := by
  simp [hasKeys, ProfileResultContract.identityPayload, resultContractFields]

theorem get_payload (c : ProfileResultContract) :
    ResultContract.get c.identityPayload "parser_kind" = .ok (optionalText c.parserKind) ∧
    ResultContract.get c.identityPayload "source" = .ok (.str c.source) ∧
    ResultContract.get c.identityPayload "source_path" = .ok (optionalText c.sourcePath) ∧
    ResultContract.get c.identityPayload "maximum_parsed_bytes" = .ok c.maximumParsedBytes.toJson ∧
    ResultContract.get c.identityPayload "maximum_parsed_records" = .ok c.maximumParsedRecords.toJson ∧
    ResultContract.get c.identityPayload "minimum_coverage_percent" =
      .ok ((c.minimumCoveragePercent.map Number.toJson).getD .null) ∧
    ResultContract.get c.identityPayload "minimum_test_count" =
      .ok ((c.minimumTestCount.map Number.toJson).getD .null) ∧
    ResultContract.get c.identityPayload "required_summary_fields" = .ok (.arr (c.requiredSummaryFields.map .str)) ∧
    ResultContract.get c.identityPayload "failure_conditions" = .ok (.arr (c.failureConditions.map .str)) :=
  ⟨rfl, rfl, rfl, rfl, rfl, rfl, rfl, rfl, rfl⟩

/-- What the constructor has checked of a contract with a parser. -/
structure Checked (c : ProfileResultContract) (kind : ParserKind) : Prop where
  source : (if kind = .qualitySummaryV1 then c.source = "artifact" ∧ c.sourcePath = some "reports/quality-summary.json"
    else c.source = "stdout" ∧ c.sourcePath = none)
  coverage : c.minimumCoveragePercent.all (Number.between 0 100) = true
  tests : c.minimumTestCount.all (Number.between 0 maxProfileResultRecords) = true
  records : Number.between 1 maxProfileResultRecords c.maximumParsedRecords = true
  bytes : Number.between 1 maxProfileResultBytes c.maximumParsedBytes = true
  fields : (c.requiredSummaryFields.all fun field => (availableFields kind).contains field) = true
  failures : (c.failureConditions.all fun failure => (resultContractFailures kind).contains failure) = true
  coverageKind : (c.minimumCoveragePercent.isNone || decide (kind ∈ [.coverage, .pytestCoverage, .qualitySummaryV1])) = true
  testsKind : (c.minimumTestCount.isNone || decide (kind ∈ [.pytest, .pytestCoverage])) = true

theorem checked_of_validate (hc : c.validate = .ok ()) (hk : c.parserKind = some kind.value) : Checked c kind := by
  simp only [ProfileResultContract.validate, except_bind_ok] at hc
  obtain ⟨_, -, _, hnumbers, _, -, hrules⟩ := hc
  simp only [ProfileResultContract.validateNumericLimits, except_bind_ok, ensure_ok] at hnumbers
  obtain ⟨_, hcoverage, _, htests, _, hrecords, hbytes⟩ := hnumbers
  simp only [ProfileResultContract.validateParserRules, hk, (tables_agree kind).1, (tables_agree kind).2,
    coverageKinds_agree, testKinds_agree, quality_value] at hrules
  by_cases hquality : kind = .qualitySummaryV1
  · rw [if_pos hquality] at hrules
    simp only [except_bind_ok, ensure_ok, Bool.and_eq_true, beq_iff_eq] at hrules
    obtain ⟨_, hsource, _, hfields, _, hfailures, _, -, _, hcoverageKind, htestsKind⟩ := hrules
    exact ⟨by rw [if_pos hquality]; exact hsource, hcoverage, htests, hrecords, hbytes, hfields, hfailures,
      hcoverageKind, htestsKind⟩
  · rw [if_neg hquality] at hrules
    simp only [except_bind_ok, ensure_ok, Bool.and_eq_true, beq_iff_eq, Option.isNone_iff_eq_none] at hrules
    obtain ⟨_, hsource, _, hfields, _, hfailures, _, -, _, hcoverageKind, htestsKind⟩ := hrules
    exact ⟨by rw [if_neg hquality]; exact hsource, hcoverage, htests, hrecords, hbytes, hfields, hfailures,
      hcoverageKind, htestsKind⟩

theorem acceptsPayload_iff (hc : c.validate = .ok ()) (hk : c.parserKind = some kind.value) :
    validatedResultContract c.identityPayload kind = .ok () ↔ c.Integral ∧ c.TestsWithinRecords := by
  have h := checked_of_validate hc hk
  obtain ⟨hkind, hsource, hpath, hbytes, hrecords, hcoverage, htests, hfields, hfailures⟩ := get_payload c
  simp only [validatedResultContract, except_bind_ok, ensure_ok, hkind, hsource, hpath, hbytes, hrecords, hcoverage,
    htests, hfields, hfailures, payload_keys, Except.ok.injEq, exists_eq_left', exists_const, true_and, isTextList_texts,
    isTextListIn_texts, isNone_optional, h.fields, h.failures, h.coverageKind, h.testsKind, and_true]
  have hkind' : isStr (optionalText c.parserKind) kind.value = true := by simp [hk, optionalText, isStr]
  have hsource' : (if kind = .qualitySummaryV1 then
      isStr (.str c.source) "artifact" && isStr (optionalText c.sourcePath) "reports/quality-summary.json"
      else isStr (.str c.source) "stdout" && isNone (optionalText c.sourcePath)) = true := by
    have hchecked := h.source
    split at hchecked
    · rename_i hquality
      simp [hquality, hchecked, optionalText, isStr]
    · rename_i hquality
      simp [hquality, hchecked, optionalText, isStr, isNone]
  simp only [hkind', hsource', true_and, Bool.and_eq_true, isIntBetween_toJson, isIntBetween_optional]
  constructor
  · rintro ⟨⟨⟨hbytesInt, -⟩, hrecordsInt, -⟩, ⟨hcoverageInt, -⟩, i, hi, htestsInt, hwithin⟩
    refine ⟨⟨hrecordsInt, hbytesInt, hcoverageInt, htestsInt⟩, fun n hn => ?_⟩
    obtain ⟨i', hi', hvalue⟩ := assertInt_toJson hrecordsInt
    obtain rfl : i' = i := Except.ok.inj (hi'.symm.trans hi)
    rw [hn, Option.all_some] at hwithin
    rw [hvalue]
    exact (Number.between_iff.1 hwithin).2
  · rintro ⟨⟨hrecordsInt, hbytesInt, hcoverageInt, htestsInt⟩, hwithin⟩
    obtain ⟨i, hi, hvalue⟩ := assertInt_toJson hrecordsInt
    refine ⟨⟨⟨hbytesInt, h.bytes⟩, hrecordsInt, h.records⟩, ⟨hcoverageInt, h.coverage⟩, i, hi, htestsInt, ?_⟩
    cases hn : c.minimumTestCount with
    | none => rfl
    | some n =>
      have htests := h.tests
      rw [hn, Option.all_some] at htests
      rw [Option.all_some, Number.between_iff, ← hvalue]
      exact ⟨(Number.between_iff.1 htests).1, hwithin n hn⟩

/-! ## Execution -/

/-- The worker accepts the contract. What fails then is the parsing of the output, or the enforcement of the
contract on what was parsed. -/
structure ExecutableByWorker (c : ProfileResultContract) (kind : ParserKind) : Prop where
  accepted : validatedResultContract c.identityPayload kind = .ok ()
  remaining : ∀ (I : Interpreter) (output : StepOutput) (e : ParseException),
    parseDeclared I kind output (some c.identityPayload) = .error e →
    ∃ n, parsedBytes (some c.identityPayload) = .ok n ∧
      (parseKind I kind output n = .error e ∨
        ∃ parsed, parseKind I kind output n = .ok parsed ∧
          enforceResultContract parsed (some c.identityPayload) = .error e)

theorem executable_of_accepted (h : validatedResultContract c.identityPayload kind = .ok ())
    (hbytes : c.maximumParsedBytes.isInt = true) : ExecutableByWorker c kind := by
  refine ⟨h, fun I output e he => ?_⟩
  obtain ⟨i, hi, -⟩ := assertInt_toJson hbytes
  have hn : parsedBytes (some c.identityPayload) = .ok i.toNat := by
    have hget : ResultContract.get c.identityPayload "maximum_parsed_bytes" = .ok c.maximumParsedBytes.toJson := rfl
    simp [parsedBytes, hget, hi, Bind.bind, Except.bind, Pure.pure, Except.pure]
  refine ⟨i.toNat, hn, ?_⟩
  simp only [parseDeclared, h, hn, Bind.bind, Except.bind] at he
  cases hparsed : parseKind I kind output i.toNat with
  | error e' =>
    rw [hparsed] at he
    exact .inl (congrArg Except.error (Except.error.inj he))
  | ok parsed =>
    rw [hparsed] at he
    exact .inr ⟨parsed, rfl, he⟩

/-- A contract of a `pytest` step. -/
def sampleContract (tests : Number) : ProfileResultContract :=
  { parserKind := some "pytest", source := "stdout", sourcePath := none, minimumCoveragePercent := none
    minimumTestCount := some tests, maximumParsedRecords := .int 100000, maximumParsedBytes := .int 1048576
    requiredSummaryFields := ["tests"], failureConditions := ["test-failure"] }

end Switchboard
