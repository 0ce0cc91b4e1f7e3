import Switchboard.Lib.Try
import Switchboard.Proof.PublicationClaims
import Switchboard.Proof.Reuse
import Switchboard.Spec.Rendering

/-!
# What the managed comment says of the evidence

The comment names one decision about the reuse of evidence and, for each kind of audit, the first one that was
parsed.

* `provenance_mem`: the line on the provenance is a constant.
* `audit_mem`: an audit line is about the first audit of its kind.
* `renderManagedComment_truthful_iff`: when a comment states its evidence truthfully.
-/

namespace Switchboard

open Transaction

variable {request : GitHubValidationRequest} {evidence : EvidenceDocument} {decision decisionReason line : String}
  {audits : List AuditSummary} {kind : AuditKind} {title value : String}

/-! ## How lines start -/

/-- A line starts with this text. -/
def OpensWith (opening line : String) : Prop := opening.toList <+: line.toList

theorem OpensWith.append {opening a : String} (h : OpensWith opening a) (b : String) :
    OpensWith opening (a ++ b) := by
  unfold OpensWith
  rw [String.toList_append]
  exact h.trans (List.prefix_append _ _)

theorem opensWith_fieldLine (title value : String) : OpensWith ("- " ++ title ++ ": `") (fieldLine title value) := by
  have hself : OpensWith ("- " ++ title ++ ": `") ("- " ++ title ++ ": `") := List.prefix_rfl
  exact (hself.append value).append "`"

/-- A line has one way to start. -/
theorem OpensWith.unique {p q : String} (hp : OpensWith p line) (hq : OpensWith q line)
    (hpq : ¬ p.toList <+: q.toList ∧ ¬ q.toList <+: p.toList) : False :=
  (List.prefix_or_prefix_of_prefix hp hq).elim hpq.1 hpq.2

theorem fieldLine_injective {value value' : String} (h : fieldLine title value = fieldLine title value') :
    value = value' := by
  have hchars := congrArg String.toList h
  simp only [fieldLine, String.toList_append] at hchars
  exact String.toList_injective (List.append_cancel_left (List.append_cancel_right hchars))

/-- How the lines start that are neither on the provenance nor on an audit. -/
def otherOpenings : List String :=
  ["<!-- switchboard-validation:", "## Switchboard validation", "- Switchboard comment schema: `",
    "- Repository / PR: `", "- Exact tested SHA: `", "- Manifest: `", "- Terminal status: `", "- Terminal reason: `",
    "- Evidence fingerprint: `", "- Head decision: `", "- Tests: `", "- Measured coverage: `", "Full logs"]

/-- A line that says nothing about the provenance or an audit. -/
def OtherLine (line : String) : Prop := line = "" ∨ ∃ opening ∈ otherOpenings, OpensWith opening line

theorem otherLine_field (title value : String) (h : ("- " ++ title ++ ": `") ∈ otherOpenings) :
    OtherLine (fieldLine title value) := .inr ⟨_, h, opensWith_fieldLine title value⟩

/-- **The other lines are not taken for one on the provenance or an audit.** -/
theorem OtherLine.not_field (h : OtherLine line)
    (htitle : title ∈ ["Execution provenance", "Security audit", "Dependency audit"]) :
    line ≠ fieldLine title value := by
  rintro rfl
  have hfield := opensWith_fieldLine title value
  have hapart : ∀ title ∈ ["Execution provenance", "Security audit", "Dependency audit"],
      ∀ opening ∈ otherOpenings, ¬ opening.toList <+: ("- " ++ title ++ ": `").toList ∧
        ¬ ("- " ++ title ++ ": `").toList <+: opening.toList := by decide +kernel
  rcases h with hempty | ⟨opening, hopening, hstarts⟩
  · have hlength := congrArg (fun s => s.toList.length) hempty
    simp [fieldLine] at hlength
  · exact hstarts.unique hfield (hapart title htitle opening hopening)

theorem mem_identityLines {safeReason terminalReason : String}
    (h : line ∈ identityLines request evidence decision safeReason terminalReason) :
    line = fieldLine "Execution provenance" "fresh" ∨ OtherLine line := by
  simp only [identityLines, List.mem_cons, List.not_mem_nil, or_false] at h
  rcases h with rfl | rfl | rfl | rfl | rfl | rfl | rfl | rfl | rfl | rfl | rfl | rfl
  · have hself : OpensWith "<!-- switchboard-validation:" "<!-- switchboard-validation:" := List.prefix_rfl
    exact .inr (.inr ⟨_, by decide, (((hself.append markerVersion).append ":").append _).append " -->"⟩)
  · exact .inr (.inr ⟨"## Switchboard validation", by decide, List.prefix_rfl⟩)
  · exact .inr (.inl rfl)
  · exact .inr (otherLine_field _ _ (by decide))
  · exact .inr (otherLine_field _ _ (by decide))
  · exact .inr (otherLine_field _ _ (by decide))
  · exact .inr (.inr ⟨_, by decide, (((opensWith_fieldLine "Manifest" _).append " (`").append _).append "`)"⟩)
  · exact .inr (otherLine_field _ _ (by decide))
  · exact .inr (otherLine_field _ _ (by decide))
  · exact .inl rfl
  · exact .inr (otherLine_field _ _ (by decide))
  · exact .inr (.inr ⟨_, by decide, (((opensWith_fieldLine "Head decision" _).append " (`").append _).append "`)"⟩)

/-- The title of the line on an audit of this kind. -/
def auditTitle : AuditKind → Option String
  | .security => some "Security audit"
  | .dependency => some "Dependency audit"
  | .quality => none

theorem mem_resultLines (h : line ∈ resultLines evidence) :
    OtherLine line ∨ ∃ kind title audit, auditTitle kind = some title ∧
      firstAudit evidence.audits kind = some audit ∧ line = auditLine title audit := by
  simp only [resultLines, List.mem_append, Option.mem_toList, Option.map_eq_some_iff] at h
  rcases h with ((⟨tests, -, rfl⟩ | ⟨coverage, -, rfl⟩) | ⟨audit, haudit, rfl⟩) | ⟨audit, haudit, rfl⟩
  · exact .inl (otherLine_field _ _ (by decide))
  · exact .inl (otherLine_field _ _ (by decide))
  · exact .inr ⟨.security, _, audit, rfl, haudit, rfl⟩
  · exact .inr ⟨.dependency, _, audit, rfl, haudit, rfl⟩

theorem mem_managedCommentLines (h : line ∈ managedCommentLines request evidence decision decisionReason) :
    OtherLine line ∨ line = fieldLine "Execution provenance" "fresh" ∨
      ∃ kind title audit, auditTitle kind = some title ∧ firstAudit evidence.audits kind = some audit ∧
        line = auditLine title audit := by
  unfold managedCommentLines at h
  rcases List.mem_append.1 h with h | h
  · rcases List.mem_append.1 h with h | h
    · exact (mem_identityLines h).elim (fun h => .inr (.inl h)) .inl
    · exact (mem_resultLines h).elim .inl fun h => .inr (.inr h)
  · simp only [List.mem_cons, List.not_mem_nil, or_false] at h
    rcases h with rfl | rfl
    · exact .inl (.inl rfl)
    · exact .inl (.inr ⟨"Full logs", by decide, by unfold OpensWith; decide⟩)

/-- Lines on different things are different. -/
theorem fieldLine_apart {title' value' : String}
    (htitles : ¬ ("- " ++ title ++ ": `").toList <+: ("- " ++ title' ++ ": `").toList ∧
      ¬ ("- " ++ title' ++ ": `").toList <+: ("- " ++ title ++ ": `").toList) :
    fieldLine title value ≠ fieldLine title' value' := by
  intro h
  have hstarts := opensWith_fieldLine title' value'
  rw [← h] at hstarts
  exact (opensWith_fieldLine title value).unique hstarts htitles

theorem auditTitle_apart {kind' : AuditKind} {title' : String} (h : auditTitle kind = some title)
    (h' : auditTitle kind' = some title') (hne : kind ≠ kind') : fieldLine title value ≠ fieldLine title' line := by
  cases kind <;> cases kind' <;> cases h <;> cases h' <;>
    first | exact absurd rfl hne | exact fieldLine_apart (by decide)

/-- **The line on the provenance is a constant.** -/
theorem provenance_mem : fieldLine "Execution provenance" value ∈
    managedCommentLines request evidence decision decisionReason ↔ value = "fresh" := by
  constructor
  · intro h
    rcases mem_managedCommentLines h with hother | hline | ⟨kind, title, audit, htitle, -, hline⟩
    · exact absurd rfl (hother.not_field (by decide))
    · exact fieldLine_injective hline
    · have hapart : fieldLine "Execution provenance" value ≠ auditLine title audit := by
        cases kind <;> cases htitle <;> exact fieldLine_apart (by decide)
      exact absurd hline hapart
  · rintro rfl
    refine List.mem_append_left _ (List.mem_append_left _ ?_)
    simp [identityLines]

/-- **An audit line is about the first audit of its kind.** -/
theorem audit_mem (htitle : auditTitle kind = some title) : fieldLine title value ∈
    managedCommentLines request evidence decision decisionReason ↔
      ∃ audit, firstAudit evidence.audits kind = some audit ∧ fieldLine title value = auditLine title audit := by
  constructor
  · intro h
    rcases mem_managedCommentLines h with hother | hline | ⟨kind', title', audit, htitle', haudit, hline⟩
    · cases kind <;> cases htitle <;> exact absurd rfl (hother.not_field (by decide))
    · have hapart : fieldLine title value ≠ fieldLine "Execution provenance" "fresh" := by
        cases kind <;> cases htitle <;> exact fieldLine_apart (by decide)
      exact absurd hline hapart
    · by_cases hkind : kind = kind'
      · subst hkind
        obtain rfl : title = title' := Option.some.inj (htitle.symm.trans htitle')
        exact ⟨audit, haudit, hline⟩
      · exact absurd hline (auditTitle_apart htitle htitle' hkind)
  · rintro ⟨audit, haudit, hline⟩
    rw [hline]
    refine List.mem_append_left _ (List.mem_append_right _ ?_)
    unfold resultLines
    cases kind <;> cases htitle <;> simp [haudit]

/-! ## Truth -/

/-- An audit that a step has parsed. -/
def ParsedAudit (evidence : EvidenceDocument) (audit : AuditSummary) : Prop :=
  ∃ r, some r ∈ evidence.parsedResults ∧ r.status = .parsed ∧ r.audit = some audit

theorem mem_audits {audit : AuditSummary} : audit ∈ evidence.audits ↔ ParsedAudit evidence audit := by
  simp only [EvidenceDocument.audits, EvidenceDocument.parsed, ParsedAudit, List.mem_filterMap, List.mem_filter, id,
    beq_iff_eq, exists_eq_right, and_assoc]

/-- The decision recorded in the evidence, fresh when there is none. -/
def EvidenceDocument.recordedDecision (evidence : EvidenceDocument) : ProvenanceDecision :=
  (evidence.reuseProvenance.map ReuseProvenance.decision).getD .fresh

/-- **The lines of a comment state the evidence truthfully**: the provenance is the recorded decision, and an
audit line says `passed` only if every parsed audit of its kind passed. -/
structure Truthful (lines : List String) (evidence : EvidenceDocument) : Prop where
  provenance : ∀ value, fieldLine "Execution provenance" value ∈ lines →
    value = evidence.recordedDecision.toDecision.value
  audits : ∀ kind title, auditTitle kind = some title → ∀ findings,
    fieldLine title ("passed; " ++ findings ++ " findings") ∈ lines →
    ∀ audit, ParsedAudit evidence audit → audit.kind = kind → audit.passed = true

/-- The first audit of the kind failed. -/
def FailsFirst (audits : List AuditSummary) (kind : AuditKind) : Prop :=
  ∃ before audit after, audits = before ++ audit :: after ∧ audit.kind = kind ∧ audit.passed = false ∧
    ∀ a ∈ before, a.kind ≠ kind

theorem failsFirst_iff :
    FailsFirst audits kind ↔ ∃ audit, firstAudit audits kind = some audit ∧ audit.passed = false := by
  unfold FailsFirst firstAudit
  simp only [List.find?_eq_some_iff_append, beq_iff_eq, Bool.not_eq_true', beq_eq_false_iff_ne]
  constructor
  · rintro ⟨before, audit, after, hsplit, hkind, hfailed, hbefore⟩
    exact ⟨audit, ⟨hkind, before, after, hsplit, hbefore⟩, hfailed⟩
  · rintro ⟨audit, ⟨hkind, before, after, hsplit, hbefore⟩, hfailed⟩
    exact ⟨before, audit, after, hsplit, hkind, hfailed, hbefore⟩

/-- The line of an audit says `passed` exactly when the audit passed. -/
theorem auditLine_passed {audit : AuditSummary} :
    (∃ findings, fieldLine title ("passed; " ++ findings ++ " findings") = auditLine title audit) ↔
      audit.passed = true := by
  unfold auditLine
  constructor
  · rintro ⟨findings, hline⟩
    by_contra hfailed
    have hvalue := congrArg String.toList (fieldLine_injective hline)
    rw [if_neg hfailed] at hvalue
    simp [String.toList_append] at hvalue
  · intro hpassed
    refine ⟨toString audit.findings, ?_⟩
    rw [if_pos hpassed]
    rfl

theorem firstAudit_parsed {audit : AuditSummary} (h : firstAudit evidence.audits kind = some audit) :
    ParsedAudit evidence audit ∧ audit.kind = kind :=
  ⟨mem_audits.1 (List.mem_of_find?_eq_some h), by simpa using List.find?_some h⟩

/-- What the line of one kind of audit says is true exactly when all of them passed, or the first one failed. -/
theorem audits_told_iff (htitle : auditTitle kind = some title) :
    (∀ findings, fieldLine title ("passed; " ++ findings ++ " findings") ∈
        managedCommentLines request evidence decision decisionReason →
      ∀ audit, ParsedAudit evidence audit → audit.kind = kind → audit.passed = true) ↔
    (∀ audit, ParsedAudit evidence audit → audit.kind = kind → audit.passed = true) ∨
      FailsFirst evidence.audits kind := by
  rw [failsFirst_iff]
  constructor
  · intro h
    cases hfirst : firstAudit evidence.audits kind with
    | none =>
      refine .inl fun audit haudit hkind => ?_
      have hnone := List.find?_eq_none.1 hfirst audit (mem_audits.2 haudit)
      exact absurd hkind (by simpa using hnone)
    | some first =>
      cases hpassed : first.passed with
      | false => exact .inr ⟨first, rfl, hpassed⟩
      | true =>
        have hline : ∃ findings, fieldLine title ("passed; " ++ findings ++ " findings") = auditLine title first :=
          auditLine_passed.2 hpassed
        obtain ⟨findings, hline⟩ := hline
        exact .inl (h findings ((audit_mem htitle).2 ⟨first, hfirst, hline⟩))
  · rintro (hall | ⟨first, hfirst, hfailed⟩) findings hmem
    · exact hall
    · obtain ⟨audit, haudit, hline⟩ := (audit_mem htitle).1 hmem
      obtain rfl : audit = first := Option.some.inj (haudit.symm.trans hfirst)
      rw [auditLine_passed.1 ⟨findings, hline⟩] at hfailed
      cases hfailed

theorem renderManagedComment_ok {body : String}
    (h : renderManagedComment request evidence decision decisionReason = .ok body) :
    body = "\n".intercalate (managedCommentLines request evidence decision decisionReason) := by
  unfold renderManagedComment at h
  simp only [except_bind_ok, except_pure_ok] at h
  obtain ⟨-, -, -, -, -, -, rfl⟩ := h
  rfl

/-- **A comment states its evidence truthfully exactly when nothing but a fresh execution is recorded, and of the
security and of the dependency audits all passed or the first one failed.** -/
theorem renderManagedComment_truthful_iff {body : String}
    (h : renderManagedComment request evidence decision decisionReason = .ok body) :
    body = "\n".intercalate (managedCommentLines request evidence decision decisionReason) ∧
      (Truthful (managedCommentLines request evidence decision decisionReason) evidence ↔
        (∀ provenance, evidence.reuseProvenance = some provenance → provenance.decision = .fresh) ∧
          ∀ kind, kind ∈ [AuditKind.security, .dependency] →
            (∀ audit, ParsedAudit evidence audit → audit.kind = kind → audit.passed = true) ∨
              FailsFirst evidence.audits kind) := by
  refine ⟨renderManagedComment_ok h, ?_⟩
  have hprovenance : (∀ value, fieldLine "Execution provenance" value ∈
        managedCommentLines request evidence decision decisionReason →
          value = evidence.recordedDecision.toDecision.value) ↔
      ∀ provenance, evidence.reuseProvenance = some provenance → provenance.decision = .fresh := by
    simp only [provenance_mem, forall_eq, EvidenceDocument.recordedDecision]
    cases evidence.reuseProvenance with
    | none => simp [ProvenanceDecision.toDecision, ReuseDecision.value]
    | some provenance =>
      cases hdecision : provenance.decision <;>
        simp [hdecision, ProvenanceDecision.toDecision, ReuseDecision.value]
  constructor
  · rintro ⟨hline, haudits⟩
    refine ⟨hprovenance.1 hline, fun kind hkind => ?_⟩
    have htitle : ∃ title, auditTitle kind = some title := by
      cases kind <;> first | exact ⟨_, rfl⟩ | exact absurd hkind (by decide)
    obtain ⟨title, htitle⟩ := htitle
    exact (audits_told_iff htitle).1 (haudits kind title htitle)
  · rintro ⟨hfresh, haudits⟩
    refine ⟨hprovenance.2 hfresh, fun kind title htitle => (audits_told_iff htitle).2 (haudits kind ?_)⟩
    cases kind <;> first | decide | cases htitle

/-! ## Two audits -/

def auditResult (parser : ParserKind) (kind : AuditKind) (passed : Bool) : Option ParsedResult :=
  some
    { parser := parser, status := .parsed
      audit := some ⟨kind, passed, "audit", if passed then 0 else 1, by split <;> decide⟩ }

def auditedRequest : GitHubValidationRequest :=
  { sampleRequest with
    identity := { sampleRequest.identity with
      idempotencyKey := "0123456789abcdef0123456789abcdef0123456789abcdef0123456789abcdef" } }

/-- The evidence of a run with a secret scan behind its security audit. -/
def auditedEvidence (decision : ProvenanceDecision) (scanPassed : Bool) : EvidenceDocument :=
  { sampleEvidence 1 1
      { decision := decision, reason := "reuse", reuseIdentityHash := "identity"
        sourceRunId := if decision = .reused then some 1 else none
        sourceEvidenceFingerprint := if decision = .reused then some "evidence" else none } with
    parsedResults := [auditResult .securityAudit .security true, auditResult .secretScan .security scanPassed] }

/-- What is published of it when the head has not moved. -/
def auditedComment (decision : ProvenanceDecision) (scanPassed : Bool) : Except InputError String :=
  renderManagedComment auditedRequest (auditedEvidence decision scanPassed) "current" "github_pr_resolved"

def auditedLines (decision : ProvenanceDecision) (scanPassed : Bool) : List String :=
  managedCommentLines auditedRequest (auditedEvidence decision scanPassed) "current" "github_pr_resolved"

theorem auditedComment_rendered (decision : ProvenanceDecision) (scanPassed : Bool) :
    ∃ body, auditedComment decision scanPassed = .ok body := by
  refine returns_of_isSome ?_
  cases decision <;> cases scanPassed <;> decide +kernel

theorem freshEvidence_truthful :
    ∃ body, auditedComment .fresh true = .ok body ∧
      Truthful (auditedLines .fresh true) (auditedEvidence .fresh true) := by
  obtain ⟨body, hbody⟩ := auditedComment_rendered .fresh true
  refine ⟨body, hbody, (renderManagedComment_truthful_iff hbody).2.2 ⟨?_, fun kind _ => .inl ?_⟩⟩
  · rintro provenance hprovenance
    obtain rfl := Option.some.inj hprovenance
    rfl
  · intro audit haudit _
    have hall : ∀ a ∈ (auditedEvidence .fresh true).audits, a.passed = true := by decide
    exact hall audit (mem_audits.2 haudit)

/-- A reused run is called fresh, and the failure of the second security audit is not told. -/
theorem comment_untruthful :
    (∃ body, auditedComment .reused true = .ok body) ∧
      ¬ Truthful (auditedLines .reused true) (auditedEvidence .reused true) ∧
      (∃ body, auditedComment .fresh false = .ok body) ∧
      ¬ Truthful (auditedLines .fresh false) (auditedEvidence .fresh false) := by
  refine ⟨auditedComment_rendered _ _, fun h => ?_, auditedComment_rendered _ _, fun h => ?_⟩
  · have hvalue := h.provenance "fresh" (provenance_mem.2 rfl)
    exact absurd hvalue (by decide)
  · have hfirst : ∃ first, firstAudit (auditedEvidence .fresh false).audits .security = some first ∧
        first.passed = true := ⟨⟨.security, true, "audit", 0, by decide⟩, rfl, rfl⟩
    obtain ⟨first, hfirst, hpassed⟩ := hfirst
    have hline : ∃ findings, fieldLine "Security audit" ("passed; " ++ findings ++ " findings") =
        auditLine "Security audit" first := auditLine_passed.2 hpassed
    obtain ⟨findings, hline⟩ := hline
    have htold := h.audits .security "Security audit" rfl findings ((audit_mem rfl).2 ⟨first, hfirst, hline⟩)
    have hscan := htold ⟨.security, false, "audit", 1, by decide⟩
      ⟨{ parser := .secretScan, status := .parsed, audit := some ⟨.security, false, "audit", 1, by decide⟩ },
        by simp [auditedEvidence, auditResult], rfl, rfl⟩ rfl
    cases hscan

end Switchboard
