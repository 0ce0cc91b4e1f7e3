import Switchboard.Spec.StepEvidence
import Switchboard.Spec.Worker

/-!
# Result summaries

`_summary` of the worker: the summary of a run, whose captured streams are cut until its serialisation fits.

* `SummaryStep.fields`, `ResultSummary.fields`: the dictionaries, in the order of their keys.
* `searchCut`: the binary search for the longest streams that fit, which cuts the summary at each probe.
* `resultSummary`: `_summary`.
* `uncutSummary`, `emptiedSummary`: the longest and the shortest summary of the same results.
-/

namespace Switchboard

/-- `RESULT_SUMMARY_LIMIT`. -/
def resultSummaryLimit : ℕ := 8000

/-- `StepResult`, as far as the summary reads it. -/
structure SummarisedResult extends CapturedOutput where
  stepId : String
  status : TerminalStatus
  exitCode : Option ℤ
  /-- The text of the duration, rounded to milliseconds. -/
  durationSeconds : FloatText
  stdoutLog : String
  stderrLog : String
  environmentSummary : List (String × String)
  terminalReason : Option String

/-- A step of a summary. -/
structure SummaryStep where
  id : String
  status : TerminalStatus
  exitCode : Option ℤ
  durationSeconds : FloatText
  stdout : List Char
  stderr : List Char
  truncated : Bool
  logs : List String
  environment : List (String × String)
  terminalReason : Option String

def optionalJson {α : Type} (encode : α → Json) (value : Option α) : Json := value.elim .null encode

def SummaryStep.fields (step : SummaryStep) : List (String × Json) :=
  [("id", .str step.id),
   ("status", .str step.status.value),
   ("exit_code", optionalJson .int step.exitCode),
   ("duration_seconds", .float step.durationSeconds),
   ("stdout", .str (String.ofList step.stdout)),
   ("stderr", .str (String.ofList step.stderr)),
   ("truncated", .bool step.truncated),
   ("logs", .arr (step.logs.map .str)),
   ("environment", .obj (step.environment.map fun entry => (entry.1, .str entry.2))),
   ("terminal_reason", optionalJson .str step.terminalReason)]

/-- The summary of a run, its flag set once the summary has been cut. -/
structure ResultSummary where
  checkedOutSha : String
  steps : List SummaryStep
  resultSummaryTruncated : Bool

def ResultSummary.fields (summary : ResultSummary) : List (String × Json) :=
  [("checked_out_sha", .str summary.checkedOutSha), ("steps", .arr (summary.steps.map fun step => .obj step.fields))] ++
    if summary.resultSummaryTruncated then [("result_summary_truncated", .bool true)] else []

/-- `_serialize_summary`. -/
def ResultSummary.serialize (summary : ResultSummary) : List Char := serializeSummary summary.fields

def summaryStep (result : SummarisedResult) : SummaryStep :=
  { id := result.stepId
    status := result.status
    exitCode := result.exitCode
    durationSeconds := result.durationSeconds
    stdout := result.stdoutSummary
    stderr := result.stderrSummary
    truncated := result.summariesTruncated
    logs := ["logs/" ++ result.stdoutLog, "logs/" ++ result.stderrLog]
    environment := result.environmentSummary
    terminalReason := result.terminalReason }

/-- `compact`, for one step. -/
def SummaryStep.cut (limit : ℕ) (step : SummaryStep) (result : SummarisedResult) : SummaryStep :=
  { step with
    stdout := result.stdoutSummary.take limit
    stderr := result.stderrSummary.take limit
    truncated := result.summariesTruncated || decide (limit < result.stdoutSummary.length) ||
      decide (limit < result.stderrSummary.length) }

/-- `compact`. -/
def ResultSummary.compact (results : List SummarisedResult) (limit : ℕ) (summary : ResultSummary) : ResultSummary :=
  { summary with steps := List.zipWith (SummaryStep.cut limit) summary.steps results }

/-- The search for the longest streams that fit: the bound it ends with, and the summary as the last probe left it. -/
def searchCut (results : List SummarisedResult) (summary : ResultSummary) (low high : ℕ) : ℕ × ResultSummary :=
  if low < high then
    let candidate := (low + high + 1) / 2
    let probe := summary.compact results candidate
    if probe.serialize.length ≤ resultSummaryLimit then searchCut results probe candidate high
    else searchCut results probe low (candidate - 1)
  else (low, summary)
termination_by high - low

/-- `largest`: the length of the longest stream. -/
def largestStream (summary : ResultSummary) : ℕ :=
  (summary.steps.flatMap fun step => [step.stdout.length, step.stderr.length]).foldl max 0

/-- `RuntimeError("required result metadata exceeds worker summary limit")`. -/
def summaryExceedsLimit : PyException := ⟨"RuntimeError", false⟩

/-- `_summary`. -/
def resultSummary (order : AssignedWorkOrder) (results : List SummarisedResult) : Except PyException ResultSummary :=
  let summary : ResultSummary :=
    { checkedOutSha := order.spec.commitSha, steps := results.map summaryStep, resultSummaryTruncated := false }
  if summary.serialize.length ≤ resultSummaryLimit then .ok summary
  else
    let flagged := { summary with resultSummaryTruncated := true }
    let (low, probed) := searchCut results flagged 0 (largestStream flagged)
    let compacted := probed.compact results low
    if compacted.serialize.length > resultSummaryLimit then .error summaryExceedsLimit else .ok compacted

/-! ## What the metadata takes -/

/-- The summary that nothing is cut from. -/
def uncutSummary (order : AssignedWorkOrder) (results : List SummarisedResult) : ResultSummary :=
  { checkedOutSha := order.spec.commitSha, steps := results.map summaryStep, resultSummaryTruncated := false }

/-- The summary with every stream emptied. -/
def emptiedSummary (order : AssignedWorkOrder) (results : List SummarisedResult) : ResultSummary :=
  { checkedOutSha := order.spec.commitSha
    steps := results.map fun result =>
      { summaryStep result with
        stdout := []
        stderr := []
        truncated :=
          result.summariesTruncated || decide (result.stdoutSummary ≠ []) || decide (result.stderrSummary ≠ []) }
    resultSummaryTruncated := true }

end Switchboard
