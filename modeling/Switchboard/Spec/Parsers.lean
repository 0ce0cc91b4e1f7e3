import Switchboard.Lib.Binary64
import Switchboard.Lib.PyText
import Switchboard.Lib.Tx
import Switchboard.Lib.Utf8
import Switchboard.Spec.Json
import Mathlib.Data.List.Infix
import Mathlib.Algebra.Order.Ring.Unbundled.Rat

/-!
# Parsers of declared results

`parsers.py`: what the worker reads of the output of a reviewed step. The kind of the
parser and its contract come from the trusted manifest; the two log streams and the
report come from the program under test.

* `pytestCounts`, `coverage`: the text of the two streams.
* `qualitySummaryResult`: the report of the quality gate.
* `validatedResultContract`, `enforceResultContract`: the contract of a step.
* `parseResult`: the result, with what its handler does not catch.
-/

namespace Switchboard

open PyText Matcher Transaction
open JsonText (Value)

/-! ## What parsing raises and returns -/

inductive ParserKind
  | pytest | coverage | pytestCoverage | securityAudit | dependencyAudit | dependencyHealth | criticalCoverage
  | secretScan | qualitySummaryV1
  deriving DecidableEq, Repr

def ParserKind.value : ParserKind → String
  | pytest => "pytest"
  | coverage => "coverage"
  | pytestCoverage => "pytest-coverage"
  | securityAudit => "security-audit"
  | dependencyAudit => "dependency-audit"
  | dependencyHealth => "dependency-health"
  | criticalCoverage => "critical-coverage"
  | secretScan => "secret-scan"
  | qualitySummaryV1 => "quality-summary-v1"

inductive ParseException
  | osError
  | unicodeError
  | valueError
  | keyError
  | assertionError
  | overflowError
  | recursionError
  deriving DecidableEq, Repr

/-- `except (OSError, UnicodeError, ValueError)`. -/
def ParseException.caught : ParseException → Bool
  | osError | unicodeError | valueError => true
  | _ => false

abbrev ParseM := Except ParseException

/-- What the parsers rely on of the interpreter. -/
structure Interpreter where
  chars : CharTable
  /-- How deep a JSON text may nest. -/
  recursionLimit : ℕ

/-- `sys.get_int_max_str_digits()`. -/
def maximumDigits : ℕ := 4300

/-- The bound of every count of `evidence.py`. -/
def maxResultRecords : ℕ := 10000000

/-- `ParsedTestCounts`. -/
structure ParsedTestCounts where
  passed : ℕ
  failed : ℕ
  skipped : ℕ
  errors : ℕ
  xfailed : ℕ
  xpassed : ℕ
  total : ℕ
  bounded : total ≤ maxResultRecords
  consistent : total = passed + failed + skipped + errors + xfailed + xpassed
  deriving DecidableEq

/-- `ParsedCoverage`, without the line counts that no parser sets. -/
structure ParsedCoverage where
  measuredPercent : ℚ
  nonnegative : 0 ≤ measuredPercent
  atMost : measuredPercent ≤ 100
  deriving DecidableEq

inductive AuditKind
  | security | dependency | quality
  deriving DecidableEq, Repr

/-- `AuditSummary`. -/
structure AuditSummary where
  kind : AuditKind
  passed : Bool
  tool : String
  findings : ℕ
  bounded : findings ≤ maxResultRecords
  deriving DecidableEq

inductive ParseStatus
  | parsed | parserFailed
  deriving DecidableEq, Repr

/-- `ParsedResult`. -/
structure ParsedResult where
  parser : ParserKind
  status : ParseStatus
  tests : Option ParsedTestCounts := none
  coverage : Option ParsedCoverage := none
  audit : Option AuditSummary := none
  failureReason : Option String := none
  deriving DecidableEq

def auditParsers : List ParserKind :=
  [.securityAudit, .dependencyAudit, .dependencyHealth, .criticalCoverage, .secretScan]

/-- `ParsedResult.validate_shape`. -/
def ParsedResult.validShape (r : ParsedResult) : Bool :=
  match r.status with
  | .parserFailed =>
    r.tests.isNone && r.coverage.isNone && r.audit.isNone && (r.failureReason.any fun reason => !reason.isEmpty)
  | .parsed =>
    r.failureReason.isNone && (r.tests.isSome || r.coverage.isSome || r.audit.isSome) &&
      match r.parser with
      | .pytest => r.tests.isSome && r.coverage.isNone && r.audit.isNone
      | .coverage => r.coverage.isSome && r.tests.isNone && r.audit.isNone
      | .pytestCoverage => r.tests.isSome && r.coverage.isSome && r.audit.isNone
      | .qualitySummaryV1 =>
        r.tests.isNone && r.coverage.isSome && (r.audit.any fun a => a.kind == .quality && a.tool == "quality-gate")
      | _ => r.audit.isSome && r.tests.isNone && r.coverage.isNone

/-- The constructor of `ParsedResult`. -/
def ParsedResult.make (r : ParsedResult) : ParseM ParsedResult := do
  ensure r.validShape .valueError
  return r

/-! ## Log streams -/

def maxParseBytes : ℕ := 1024 * 1024

/-- `path.open("rb")` and `handle.read(n)`; `none` is a file that cannot be read. -/
def readLog (file : Option (List UInt8)) (n : ℕ) : ParseM (List UInt8) :=
  match file with
  | none => .error .osError
  | some bytes => .ok (bytes.take n)

/-- `_combined`. -/
def combined (stdout stderr : Option (List UInt8)) (maximumBytes : ℕ) : ParseM (List Char) := do
  let out ← readLog stdout (maximumBytes + 1)
  let remaining := maximumBytes + 1 - out.length
  let err ← if remaining = 0 then pure [] else readLog stderr remaining
  ensure (decide (out.length + err.length ≤ maximumBytes)) .valueError
  return Utf8.replace out ++ '\n' :: Utf8.replace err

/-! ## Counts -/

/-- The keys of `_PYTEST_COUNTS`. -/
inductive CountKind
  | passed | failed | skipped | errors | xfailed | xpassed
  deriving DecidableEq, Repr

def CountKind.all : List CountKind := [.passed, .failed, .skipped, .errors, .xfailed, .xpassed]

/-- What follows the number in the phrase of a kind. -/
def CountKind.word : CountKind → Matcher
  | passed => text " passed".toList
  | failed => text " failed".toList
  | skipped => text " skipped".toList
  | errors => (text " errors".toList).orElse (text " error".toList)
  | xfailed => text " xfailed".toList
  | xpassed => text " xpassed".toList

variable (I : Interpreter)

/-- `\d+`. -/
def digits : Matcher := (one I.chars.isDigit).andThen (many I.chars.isDigit)

/-- `_PYTEST_COUNTS`. The greedy `errors` gives way to `error` only where the next character is an `s`, and then
there is no word boundary. -/
def countPattern (k : CountKind) : Pattern :=
  { behind := fun _ => false
    body := (digits I).andThen (k.word.andThen (notNext I.chars.isWord)) }

/-- `int` of a text of decimal digits. -/
def intOfText (s : List Char) : ParseM ℕ :=
  if maximumDigits < s.length then .error .valueError
  else .ok (s.foldl (fun n c => n * 10 + (I.chars.decimal c).getD 0) 0)

/-- The group `count` of a match. -/
def countGroup (m : List Char) : List Char := m.takeWhile I.chars.isDigit

/-- The count of a kind: that of its last match, or zero. -/
def pytestCount (k : CountKind) (s : List Char) : ParseM ℕ :=
  match ((countPattern I k).finditer s).getLast? with
  | none => .ok 0
  | some m => intOfText I (countGroup I m)

/-- The constructor of `ParsedTestCounts`. -/
def ParsedTestCounts.make (count : CountKind → ℕ) (total : ℕ) : ParseM ParsedTestCounts :=
  if hbounded : total ≤ maxResultRecords then
    if hconsistent : total = count .passed + count .failed + count .skipped + count .errors + count .xfailed +
        count .xpassed then
      .ok ⟨count .passed, count .failed, count .skipped, count .errors, count .xfailed, count .xpassed, total,
        hbounded, hconsistent⟩
    else .error .valueError
  else .error .valueError

/-- `_pytest_counts`. -/
def pytestCounts (s : List Char) : ParseM (Option ParsedTestCounts) := do
  let passed ← pytestCount I .passed s
  let failed ← pytestCount I .failed s
  let skipped ← pytestCount I .skipped s
  let errors ← pytestCount I .errors s
  let xfailed ← pytestCount I .xfailed s
  let xpassed ← pytestCount I .xpassed s
  let total := passed + failed + skipped + errors + xfailed + xpassed
  if total = 0 then return none
  else do
    let counts ← ParsedTestCounts.make (fun
      | .passed => passed
      | .failed => failed
      | .skipped => skipped
      | .errors => errors
      | .xfailed => xfailed
      | .xpassed => xpassed) total
    return some counts

/-! ## Coverage -/

/-- `\d+(?:\.\d+)?%`. -/
def percentPattern : Pattern :=
  { behind := fun _ => false
    body := (digits I).andThen
      (((text ['.']).andThen ((digits I).andThen (text ['%']))).orElse (text ['%'])) }

/-- A decimal digit as an ASCII digit, any other character as it is. -/
def asciiDigit (c : Char) : Char :=
  match I.chars.decimal c with
  | some n => Char.ofNat (48 + n)
  | none => c

/-- An ASCII letter in lower case. No other character has one of the letters of `line coverage` as its lower case. -/
def lowerAscii (c : Char) : Char := if 'A' ≤ c && c ≤ 'Z' then Char.ofNat (c.toNat + 32) else c

/-- The constructor of `ParsedCoverage`. -/
def ParsedCoverage.make : Binary64 → ParseM ParsedCoverage
  | .finite q => if h : 0 ≤ q ∧ q ≤ 100 then .ok ⟨q, h.1, h.2⟩ else .error .valueError
  | _ => .error .valueError

/-- A line that states coverage. -/
def statesCoverage (line : List Char) : Bool :=
  "TOTAL".toList.isPrefixOf line || decide ("line coverage".toList <:+: line.map lowerAscii)

/-- `_coverage` on the lines from the last one on. -/
def coverageOf : List (List Char) → ParseM (Option ParsedCoverage)
  | [] => .ok none
  | line :: lines =>
    let normalized := strip line
    if statesCoverage normalized then
      match ((percentPattern I).finditer normalized).head? with
      | none => coverageOf lines
      | some m => do
        let coverage ← ParsedCoverage.make (Binary64.ofLiteral (m.dropLast.map (asciiDigit I)))
        return some coverage
    else coverageOf lines

/-- `_coverage`. -/
def coverage (s : List Char) : ParseM (Option ParsedCoverage) := coverageOf I (splitlines s).reverse

/-! ## Reports -/

/-- The bytes of `_contained_regular_file`; `none` is a file that cannot be opened safely, or that changes
while it is read. -/
def containedRegularFile (file : Option (List UInt8)) (maximumBytes : ℕ) : ParseM (List UInt8) :=
  match file with
  | none => .error .valueError
  | some bytes => if maximumBytes < bytes.length then .error .valueError else .ok bytes

/-- `json.loads` with its defaults. -/
def jsonDecoder : JsonText.Decoder Binary64 :=
  { parseFloat := Binary64.ofLiteral
    parseConstant := fun s => .ok (Binary64.ofConstant s)
    objectPairs := fun pairs => .ok (JsonText.dictOf pairs)
    recursionLimit := I.recursionLimit
    maximumDigits := maximumDigits }

def jsonException : JsonText.Error → ParseException
  | .decode | .value => .valueError
  | .recursion => .recursionError

/-- `_json_report` on the bytes of the report. -/
def jsonReport (bytes : List UInt8) : ParseM (List (String × Value Binary64)) :=
  match Utf8.strict bytes with
  | none => .error .unicodeError
  | some s =>
    match JsonText.loads (jsonDecoder I) s with
    | .error e => .error (jsonException e)
    | .ok (.obj fields) => .ok fields
    | .ok _ => .error .valueError

/-- The item of a mapping. -/
def getField {F : Type} (fields : List (String × Value F)) (name : String) : Option (Value F) :=
  (fields.find? fun f => f.1 == name).map Prod.snd

/-- `fields[name]`. -/
def item (fields : List (String × Value Binary64)) (name : String) : ParseM (Value Binary64) :=
  match getField fields name with
  | some v => .ok v
  | none => .error .keyError

/-- `set(fields) == {...}`. -/
def hasKeys {α : Type} (fields : List (String × α)) (names : List String) : Bool :=
  (fields.all fun f => decide (f.1 ∈ names)) && names.all fun name => fields.any fun f => f.1 == name

def isText {F : Type} (v : Value F) (s : String) : Bool :=
  match v with
  | .str t => t == s
  | _ => false

/-- `minimum <= number <= maximum`. -/
def inBounds (number : Binary64) (minimum maximum : ℚ) : ParseM ℚ :=
  match number with
  | .finite q => if minimum ≤ q ∧ q ≤ maximum then .ok q else .error .valueError
  | _ => .error .valueError

/-- `_bounded_number`. -/
def boundedNumber (v : Value Binary64) (minimum maximum : ℚ) : ParseM ℚ :=
  match v with
  | .int i =>
    match Binary64.ofInt i with
    | some number => inBounds number minimum maximum
    | none => .error .overflowError
  | .float f => inBounds f minimum maximum
  | _ => .error .valueError

/-- `number == v`. -/
def equalsNumber (number : ℚ) : Value Binary64 → Bool
  | .int i => number == i
  | .bool b => number == if b then 1 else 0
  | .float (.finite q) => number == q
  | _ => false

/-- `_QUALITY_COVERAGE_THRESHOLD`. -/
def qualityCoverageThreshold : ℚ := 85

/-- `_MAX_COVERAGE_PERCENT`. -/
def maxCoveragePercent : ℤ := 100

/-- `_MAX_QUALITY_SUMMARY_BYTES`. -/
def maxQualitySummaryBytes : ℕ := 128 * 1024

def maxDurationSeconds : ℚ := 86400

/-- `_QUALITY_OPERATIONS`. -/
def qualityOperations : List String :=
  ["format-check", "lint", "type", "frontend-install", "frontend-format", "frontend-lint", "frontend-typecheck",
    "frontend-tests", "frontend-build", "repository-safety", "snapshot-store", "workspace-api", "packaged-workspace",
    "helper-surface", "helper-boundary", "helper-compatibility", "bandit", "audit", "binary", "tests", "coverage",
    "docs", "editable-smoke", "wheel", "zipapp", "diagnostics"]

/-- `_quality_operation_coverage`. -/
def qualityOperationCoverage (operationName : String) (details : List (String × Value Binary64))
    (summaryThreshold : Value Binary64) : ParseM (Option ℚ) :=
  if operationName = "coverage" then do
    ensure (hasKeys details ["coverage_percent", "coverage_threshold"]) .valueError
    let threshold ← item details "coverage_threshold"
    let operationThreshold ← boundedNumber threshold qualityCoverageThreshold qualityCoverageThreshold
    ensure (equalsNumber operationThreshold summaryThreshold) .valueError
    let percent ← item details "coverage_percent"
    let measured ← boundedNumber percent qualityCoverageThreshold maxCoveragePercent
    return some measured
  else if operationName = "diagnostics" ∧ details ≠ [] then .error .valueError
  else return none

def operationFields : List String := ["operation", "status", "duration_seconds", "details"]

/-- The body of the loop over the operations of a report. -/
def qualityOperation (summaryThreshold : Value Binary64) (expectedName : String) (operation : Value Binary64) :
    ParseM (Option ℚ) :=
  match operation with
  | .obj fields => do
    ensure (hasKeys fields operationFields) .valueError
    let name ← item fields "operation"
    let status ← item fields "status"
    ensure (isText name expectedName && isText status "passed") .valueError
    let duration ← item fields "duration_seconds"
    let _ ← boundedNumber duration 0 maxDurationSeconds
    let details ← item fields "details"
    match details with
    | .obj details => qualityOperationCoverage expectedName details summaryThreshold
    | _ => .error .valueError
  | _ => .error .valueError

/-- The loop: the coverage of the last operation that has one. -/
def qualityLoop (summaryThreshold : Value Binary64) : List String → List (Value Binary64) → Option ℚ → ParseM (Option ℚ)
  | name :: names, operation :: operations, coveragePercent => do
    let operationCoverage ← qualityOperation summaryThreshold name operation
    qualityLoop summaryThreshold names operations (operationCoverage.or coveragePercent)
  | _, _, coveragePercent => .ok coveragePercent

def summaryFields : List String := ["profile", "status", "coverage_threshold", "operations", "duration_seconds"]

/-- `_quality_summary_result` on the fields of the report. -/
def qualitySummary (summary : List (String × Value Binary64)) : ParseM ParsedResult := do
  ensure (hasKeys summary summaryFields) .valueError
  let profile ← item summary "profile"
  let status ← item summary "status"
  ensure (isText profile "quality" && isText status "passed") .valueError
  let threshold ← item summary "coverage_threshold"
  let number ← boundedNumber threshold qualityCoverageThreshold qualityCoverageThreshold
  ensure (number == qualityCoverageThreshold) .valueError
  let duration ← item summary "duration_seconds"
  let _ ← boundedNumber duration 0 maxDurationSeconds
  let operations ← item summary "operations"
  match operations with
  | .arr operations =>
    ensure (operations.length == qualityOperations.length) .valueError
    let coveragePercent ← qualityLoop threshold qualityOperations operations none
    match coveragePercent with
    | none => .error .valueError
    | some percent => do
      let coverage ← ParsedCoverage.make (.finite percent)
      ParsedResult.make
        { parser := .qualitySummaryV1, status := .parsed, coverage := some coverage
          audit := some ⟨.quality, true, "quality-gate", 0, Nat.zero_le _⟩ }
  | _ => .error .valueError

/-- `_quality_summary_result`. -/
def qualitySummaryResult (report : Option (List UInt8)) (maximumBytes : ℕ) : ParseM ParsedResult := do
  let bytes ← containedRegularFile report (min maximumBytes maxQualitySummaryBytes)
  let summary ← jsonReport I bytes
  qualitySummary summary

/-! ## Contracts -/

/-- The reviewed descriptor of a step. -/
abbrev ResultContract := List (String × Json)

/-- `result_contract[name]`. -/
def ResultContract.get (contract : ResultContract) (name : String) : ParseM Json :=
  match lookup contract name with
  | some v => .ok v
  | none => .error .keyError

/-- `_RESULT_CONTRACT_FIELDS`. -/
def resultContractFields : List String :=
  ["failure_conditions", "maximum_parsed_bytes", "maximum_parsed_records", "minimum_coverage_percent",
    "minimum_test_count", "parser_kind", "required_summary_fields", "source", "source_path"]

/-- `_RESULT_CONTRACT_FAILURES`. -/
def resultContractFailures : ParserKind → List String
  | .dependencyAudit => ["dependency-vulnerability"]
  | .dependencyHealth => ["dependency-health"]
  | .pytest => ["test-failure"]
  | .pytestCoverage => ["coverage-threshold", "test-failure"]
  | .qualitySummaryV1 => ["coverage-threshold", "quality-operation-failure"]
  | .secretScan => ["baseline-validation"]
  | _ => []

/-- The summary fields that a parser can be required to fill. -/
def availableFields : ParserKind → List String
  | .pytest => ["tests"]
  | .coverage => ["coverage"]
  | .pytestCoverage => ["coverage", "tests"]
  | .qualitySummaryV1 => ["coverage-threshold", "diagnostics", "operations", "profile", "status"]
  | .dependencyAudit | .dependencyHealth | .secretScan => ["audit"]
  | _ => []

def isStr (v : Json) (s : String) : Bool :=
  match v with
  | .str t => t == s
  | _ => false

def isNone (v : Json) : Bool :=
  match v with
  | .null => true
  | _ => false

/-- An `int`, but no `bool`, between two bounds. -/
def isIntBetween (low high : ℤ) (v : Json) : Bool :=
  match v with
  | .int i => decide (low ≤ i ∧ i ≤ high)
  | _ => false

/-- A list of texts, each in the given list. -/
def isTextListIn (names : List String) (v : Json) : Bool :=
  match v with
  | .arr items => items.all fun v => names.any fun name => isStr v name
  | _ => false

/-- A list of texts. -/
def isTextList (v : Json) : Bool :=
  match v with
  | .arr items => items.all fun v => match v with | .str _ => true | _ => false
  | _ => false

/-- `isinstance(v, int)`, asserted. -/
def assertInt (v : Json) : ParseM ℤ :=
  match v with
  | .int i => .ok i
  | .bool b => .ok (if b then 1 else 0)
  | _ => .error .assertionError

/-- `isinstance(v, list)`, asserted. -/
def assertList (v : Json) : ParseM (List Json) :=
  match v with
  | .arr items => .ok items
  | _ => .error .assertionError

def maxQualityCoverageBytes : ℤ := 2 * 1024 * 1024

/-- `_validated_result_contract` on a contract. -/
def validatedResultContract (contract : ResultContract) (kind : ParserKind) : ParseM Unit := do
  ensure (hasKeys contract resultContractFields) .valueError
  let parserKind ← contract.get "parser_kind"
  ensure (isStr parserKind kind.value) .valueError
  let source ← contract.get "source"
  let sourcePath ← contract.get "source_path"
  ensure (if kind = .qualitySummaryV1 then
      isStr source "artifact" && isStr sourcePath "reports/quality-summary.json"
    else isStr source "stdout" && isNone sourcePath) .valueError
  let maximumBytes ← contract.get "maximum_parsed_bytes"
  let maximumRecords ← contract.get "maximum_parsed_records"
  ensure (isIntBetween 1 maxQualityCoverageBytes maximumBytes && isIntBetween 1 maxResultRecords maximumRecords)
    .valueError
  let minimumCoverage ← contract.get "minimum_coverage_percent"
  let minimumTests ← contract.get "minimum_test_count"
  ensure (isNone minimumCoverage || isIntBetween 0 maxCoveragePercent minimumCoverage) .valueError
  let records ← assertInt maximumRecords
  ensure (isNone minimumTests || isIntBetween 0 records minimumTests) .valueError
  let fields ← contract.get "required_summary_fields"
  let failures ← contract.get "failure_conditions"
  ensure (isTextList fields) .valueError
  ensure (isTextList failures) .valueError
  ensure (isTextListIn (resultContractFailures kind) failures) .valueError
  ensure (isTextListIn (availableFields kind) fields) .valueError
  ensure (isNone minimumCoverage || decide (kind ∈ [.coverage, .pytestCoverage, .qualitySummaryV1])) .valueError
  ensure (isNone minimumTests || decide (kind ∈ [.pytest, .pytestCoverage])) .valueError

/-- Whether a condition is declared. -/
def declares (failures : List Json) (name : String) : Bool := failures.any fun v => isStr v name

/-- The conditions under which an audit must have passed without findings. -/
def auditConditions : List String := ["dependency-health", "dependency-vulnerability", "baseline-validation"]

/-- The first half of `_enforce_result_contract`: thresholds. -/
def enforceThresholds (parsed : ParsedResult) (contract : ResultContract) (maximumRecords : ℤ) : ParseM Unit := do
  (match parsed.tests with
    | none => return ()
    | some tests => do
      ensure (decide ((tests.total : ℤ) ≤ maximumRecords)) .valueError
      let minimumTests ← contract.get "minimum_test_count"
      if isNone minimumTests then return ()
      else do
        let minimum ← assertInt minimumTests
        ensure (decide (minimum ≤ tests.total)) .valueError)
  (match parsed.coverage with
    | none => return ()
    | some coverage => do
      let minimumCoverage ← contract.get "minimum_coverage_percent"
      if isNone minimumCoverage then return ()
      else do
        let minimum ← assertInt minimumCoverage
        ensure (decide ((minimum : ℚ) ≤ coverage.measuredPercent)) .valueError)
  ensure (parsed.audit.all fun audit => decide ((audit.findings : ℤ) ≤ maximumRecords)) .valueError

/-- The second half: failure conditions. -/
def enforceFailures (parsed : ParsedResult) (contract : ResultContract) : ParseM Unit := do
  let conditions ← contract.get "failure_conditions"
  let failures ← assertList conditions
  ensure (!(declares failures "test-failure" && parsed.tests.any fun tests =>
    decide (tests.failed ≠ 0) || decide (tests.errors ≠ 0))) .valueError
  ensure (!((auditConditions.any (declares failures)) &&
    !parsed.audit.any fun audit => audit.passed && decide (audit.findings = 0))) .valueError

/-- `_enforce_result_contract`. -/
def enforceResultContract (parsed : ParsedResult) : Option ResultContract → ParseM ParsedResult
  | none => .ok parsed
  | some contract => do
    let maximum ← contract.get "maximum_parsed_records"
    let maximumRecords ← assertInt maximum
    ensure (!(decide (parsed.parser = .qualitySummaryV1) && decide (maximumRecords < qualityOperations.length)))
      .valueError
    enforceThresholds parsed contract maximumRecords
    enforceFailures parsed contract
    return parsed

/-! ## The parser -/

/-- What a step leaves to parse. The report is that of the checkout, if there is a checkout. -/
structure StepOutput where
  stdout : Option (List UInt8)
  stderr : Option (List UInt8)
  commandSucceeded : Bool
  checkout : Option (Option (List UInt8))

def banditManagerError : List Char := "[manager]\tERROR\t".toList

/-- `s.count(part)`, after `skip` more characters of the last occurrence. -/
def countOf (part : List Char) : ℕ → List Char → ℕ
  | _, [] => 0
  | skip + 1, _ :: cs => countOf part skip cs
  | 0, c :: cs => if part.isPrefixOf (c :: cs) then 1 + countOf part (part.length - 1) cs else countOf part 0 cs

/-- The kind and the tool of an audit. -/
def auditIdentity : ParserKind → AuditKind × String
  | .securityAudit => (.security, "bandit")
  | .secretScan => (.security, "secret-scan")
  | .dependencyAudit => (.dependency, "pip-audit")
  | .dependencyHealth => (.dependency, "pip")
  | _ => (.quality, "critical-coverage")

/-- The constructor of `AuditSummary`. -/
def AuditSummary.make (kind : ParserKind) (passed : Bool) (findings : ℕ) : ParseM AuditSummary :=
  if h : findings ≤ maxResultRecords then .ok ⟨(auditIdentity kind).1, passed, (auditIdentity kind).2, findings, h⟩
  else .error .valueError

/-- The `pytest` parsers. -/
def parsePytest (kind : ParserKind) (output : StepOutput) (maximumBytes : ℕ) : ParseM ParsedResult := do
  let s ← combined output.stdout output.stderr (min maximumBytes maxParseBytes)
  let tests ← pytestCounts I s
  let measured ← if kind = .pytestCoverage then coverage I s else pure none
  ensure (!(tests.isNone || (decide (kind = .pytestCoverage) && measured.isNone))) .valueError
  ParsedResult.make { parser := kind, status := .parsed, tests := tests, coverage := measured }

/-- The `coverage` parser. -/
def parseCoverage (output : StepOutput) (maximumBytes : ℕ) : ParseM ParsedResult := do
  let s ← combined output.stdout output.stderr (min maximumBytes maxParseBytes)
  let measured ← coverage I s
  ensure measured.isSome .valueError
  ParsedResult.make { parser := .coverage, status := .parsed, coverage := measured }

/-- The parser of the quality report. -/
def parseQuality (output : StepOutput) (maximumBytes : ℕ) : ParseM ParsedResult :=
  match output.commandSucceeded, output.checkout with
  | true, some report => qualitySummaryResult I report maximumBytes
  | _, _ => .error .valueError

/-- The audit parsers. -/
def parseAudit (kind : ParserKind) (output : StepOutput) (maximumBytes : ℕ) : ParseM ParsedResult := do
  let s ← combined output.stdout output.stderr (min maximumBytes maxParseBytes)
  ensure (!(decide (kind = .securityAudit) && decide (banditManagerError <:+: s))) .valueError
  let findings := if output.commandSucceeded then 0 else max 1 (countOf ">> Issue:".toList 0 s)
  let audit ← AuditSummary.make kind output.commandSucceeded findings
  ParsedResult.make { parser := kind, status := .parsed, audit := some audit }

/-- The parser of a kind. -/
def parseKind (kind : ParserKind) (output : StepOutput) (maximumBytes : ℕ) : ParseM ParsedResult :=
  match kind with
  | .pytest | .pytestCoverage => parsePytest I kind output maximumBytes
  | .coverage => parseCoverage I output maximumBytes
  | .qualitySummaryV1 => parseQuality I output maximumBytes
  | .securityAudit | .dependencyAudit | .dependencyHealth | .criticalCoverage | .secretScan =>
    parseAudit kind output maximumBytes

/-- How many bytes the contract lets a parser read. -/
def parsedBytes : Option ResultContract → ParseM ℕ
  | none => .ok maxParseBytes
  | some contract => do
    let maximum ← contract.get "maximum_parsed_bytes"
    let bytes ← assertInt maximum
    return bytes.toNat

/-- The `try` block of `parse_result`. -/
def parseDeclared (kind : ParserKind) (output : StepOutput) (contract : Option ResultContract) :
    ParseM ParsedResult := do
  (match contract with
    | some contract => validatedResultContract contract kind
    | none => return ())
  let maximumBytes ← parsedBytes contract
  let parsed ← parseKind I kind output maximumBytes
  enforceResultContract parsed contract

/-- The result of a failed parser. -/
def parserFailure (kind : ParserKind) : ParsedResult :=
  { parser := kind, status := .parserFailed, failureReason := some "declared_result_unavailable" }

/-- `parse_result`. -/
def parseResult (kind : ParserKind) (output : StepOutput) (contract : Option ResultContract) : ParseM ParsedResult :=
  match parseDeclared I kind output contract with
  | .ok parsed => .ok parsed
  | .error e => if e.caught then (parserFailure kind).make else .error e

end Switchboard
