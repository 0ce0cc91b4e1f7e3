import Switchboard.Spec.Evidence
import Switchboard.Spec.GitHub
import Switchboard.Spec.Registry
import Switchboard.Spec.Parsers

/-!
# The managed comment

`rendering.py`: the Markdown that is published for a request, from the request and the evidence of its run.

* `EvidenceDocument`: the evidence with the parsed results of its steps.
* `managedCommentLines`, `renderManagedComment`: the lines, and the bounded text.
* `publishedComment`: what `_publish_claimed` renders for the head that it has resolved.
-/

namespace Switchboard

open PyText Transaction

/-! ## Evidence -/

/-- `ExecutionEvidence` with the `parsed_result` of each of its steps. -/
structure EvidenceDocument extends ExecutionEvidence where
  parsedResults : List (Option ParsedResult)

namespace EvidenceDocument

/-- The results of the steps that were parsed, in their order. -/
def parsed (evidence : EvidenceDocument) : List ParsedResult :=
  (evidence.parsedResults.filterMap id).filter fun r => r.status == .parsed

/-- `audits`. -/
def audits (evidence : EvidenceDocument) : List AuditSummary := evidence.parsed.filterMap ParsedResult.audit

end EvidenceDocument

/-- `_first_audit`. -/
def firstAudit (audits : List AuditSummary) (kind : AuditKind) : Option AuditSummary :=
  audits.find? fun audit => audit.kind == kind

/-! ## Lines -/

def markerVersion : String := "v1"

def switchboardCommentVersion : String := "1"

def maxRenderedCommentBytes : ℕ := 12 * 1024

/-- `_HEX_64.fullmatch`. -/
def hex64 (value : String) : Bool :=
  value.toList.all (fun c => isAsciiDigit c || (decide ('a' ≤ c) && decide (c ≤ 'f'))) && decide (value.length = 64)

/-- `_REASON.fullmatch`. -/
def reasonCode : String → Bool := shaped keyChar (fun c => keyChar c || ['_', '.', ':', '-'].contains c) 64

/-- The marker of `managed_comment_marker`, behind its check. -/
def commentMarker (idempotencyKey : String) : String :=
  "<!-- switchboard-validation:" ++ markerVersion ++ ":" ++ idempotencyKey ++ " -->"

/-- `managed_comment_marker`. -/
def managedCommentMarker (idempotencyKey : String) : Except InputError String := do
  ensure (hex64 idempotencyKey) (.value "invalid managed comment identity")
  return commentMarker idempotencyKey

/-- `f"{percent:.2f}"` of a percentage. -/
def fixedPercent (percent : ℚ) : String :=
  let hundredths := (Binary64.roundHalfEven (percent * 100)).toNat
  toString (hundredths / 100) ++ "." ++ toString (hundredths / 10 % 10) ++ toString (hundredths % 10)

/-- A line with a value in code format. -/
def fieldLine (title value : String) : String := "- " ++ title ++ ": `" ++ value ++ "`"

def testsLine (tests : ParsedTestCounts) : String :=
  fieldLine "Tests" (toString tests.passed ++ " passed, " ++ toString tests.failed ++ " failed, " ++
    toString tests.skipped ++ " skipped, " ++ toString tests.errors ++ " errors")

def coverageLine (coverage : ParsedCoverage) : String :=
  fieldLine "Measured coverage" (fixedPercent coverage.measuredPercent ++ "%")

def auditLine (title : String) (audit : AuditSummary) : String :=
  fieldLine title ((if audit.passed then "passed" else "failed") ++ "; " ++ toString audit.findings ++ " findings")

/-- The lines on the request and on the run. -/
def identityLines (request : GitHubValidationRequest) (evidence : EvidenceDocument)
    (decision safeReason terminalReason : String) : List String :=
  [commentMarker request.identity.idempotencyKey, "## Switchboard validation", "",
    fieldLine "Switchboard comment schema" switchboardCommentVersion,
    fieldLine "Repository / PR" (request.identity.repositoryFullName ++ "` `#" ++
      toString request.identity.pullRequestNumber),
    fieldLine "Exact tested SHA" request.identity.headSha,
    fieldLine "Manifest" (request.identity.manifestName ++ "@" ++ request.identity.manifestVersion) ++ " (`" ++
      request.identity.manifestDigest ++ "`)",
    fieldLine "Terminal status" evidence.terminalStatus.toRun.value, fieldLine "Terminal reason" terminalReason,
    fieldLine "Execution provenance" "fresh", fieldLine "Evidence fingerprint" evidence.fingerprint,
    fieldLine "Head decision" decision ++ " (`" ++ safeReason ++ "`)"]

/-- The lines on what was parsed: each the first of its kind. -/
def resultLines (evidence : EvidenceDocument) : List String :=
  ((evidence.parsed.filterMap ParsedResult.tests).head?.map testsLine).toList ++
    ((evidence.parsed.filterMap ParsedResult.coverage).head?.map coverageLine).toList ++
    ((firstAudit evidence.audits .security).map (auditLine "Security audit")).toList ++
    ((firstAudit evidence.audits .dependency).map (auditLine "Dependency audit")).toList

def safeReasonOf (decisionReason : String) : String :=
  if reasonCode decisionReason then decisionReason else "github_publication_failed"

def terminalReasonOf (evidence : EvidenceDocument) : String :=
  match evidence.terminalReason with
  | some reason => if reason ≠ "" ∧ reasonCode reason then reason else evidence.terminalStatus.toRun.value
  | none => evidence.terminalStatus.toRun.value

/-- The variable `lines` of `render_managed_comment`. -/
def managedCommentLines (request : GitHubValidationRequest) (evidence : EvidenceDocument)
    (decision decisionReason : String) : List String :=
  identityLines request evidence decision (safeReasonOf decisionReason) (terminalReasonOf evidence) ++
    resultLines evidence ++ ["", "Full logs and artifact bytes remain local to the trusted worker."]

/-- `render_managed_comment`. -/
def renderManagedComment (request : GitHubValidationRequest) (evidence : EvidenceDocument)
    (decision decisionReason : String) : Except InputError String := do
  ensure (["current", "stale"].contains decision) (.value "invalid publication decision")
  let _ ← managedCommentMarker request.identity.idempotencyKey
  let rendered := "\n".intercalate (managedCommentLines request evidence decision decisionReason)
  ensure (decide (rendered.utf8ByteSize ≤ maxRenderedCommentBytes)) (.value "managed comment exceeds bounded size")
  return rendered

/-! ## Publication -/

/-- The decision of `_publish_claimed` and its reason, for the head commit that it has resolved. -/
def headDecision (requested : String) (resolved : Option String) : String × String :=
  match resolved with
  | none => ("stale", "github_head_unavailable")
  | some head => if head = requested then ("current", "github_pr_resolved") else ("stale", "github_head_changed")

/-- The body that `_publish_claimed` renders. -/
def publishedComment (request : GitHubValidationRequest) (evidence : EvidenceDocument) (resolvedHead : Option String) :
    Except InputError String :=
  let (decision, decisionReason) := headDecision request.identity.headSha resolvedHead
  renderManagedComment request evidence decision decisionReason

end Switchboard
