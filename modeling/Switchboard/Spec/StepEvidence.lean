import Switchboard.Spec.Schemas

/-!
# Step evidence

`_step_evidence` of the worker: the captured output of a step, sanitised and cut, as the
summary of its evidence. The other fields of a step come from the manifest and the clock.

* `summaryOf`: the summary of one step.
* `StepSummary.make`: what `StepEvidence` checks of it.
* `stepEvidence`: the evidence of all steps.
-/

namespace Switchboard

open Transaction

variable (P : Platform)

/-- What a step has captured of its output. -/
structure CapturedOutput where
  stdoutSummary : List Char
  stderrSummary : List Char
  summariesTruncated : Bool

/-- What the evidence of a step keeps of it. -/
structure StepSummary where
  summary : List Char
  summaryTruncated : Bool

def stepEvidenceSummaryLimit : ℕ := 4096

/-- The text that is sanitised: the captured streams that are not empty, one after the other. -/
def CapturedOutput.joined (result : CapturedOutput) : List Char :=
  List.intercalate ['\n'] ([result.stdoutSummary, result.stderrSummary].filter fun item => !item.isEmpty)

/-- `sanitized_summary`. -/
def CapturedOutput.sanitized (result : CapturedOutput) : List Char := sanitizeRemoteText result.joined

def summaryOf (result : CapturedOutput) : StepSummary :=
  { summary := result.sanitized.take stepEvidenceSummaryLimit
    summaryTruncated :=
      result.summariesTruncated || decide (stepEvidenceSummaryLimit < result.sanitized.length) }

/-- The constructor of `StepEvidence`: the text policy of every evidence model, then the bound of the field. -/
def StepSummary.make (s : StepSummary) : Except InputError StepSummary := do
  validateNoAbsoluteLocalPath P (String.ofList s.summary)
  ensure (decide (s.summary.length ≤ stepEvidenceSummaryLimit)) (.field "summary")
  return s

/-- `_step_evidence`. -/
def stepEvidence (results : List CapturedOutput) : Except InputError (List StepSummary) :=
  results.mapM fun result => (summaryOf result).make P

end Switchboard
