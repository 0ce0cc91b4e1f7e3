import Switchboard.Spec.Summary

/-!
# The cut of a result summary

The serialisation of a summary is not monotone in the cut, since a longer text may be replaced by a short mark. The
search keeps only that its lower bound is zero or fits.

* `compact_of_aligned`: a cut does not depend on the cuts before it.
* `searchCut_spec`: the bound that the search ends with is zero or fits.
* `resultSummary_correct`: what `_summary` returns, and when it raises.
-/

namespace Switchboard

variable {order : AssignedWorkOrder} {results : List SummarisedResult} {summary : ResultSummary} {step : SummaryStep}
  {result : SummarisedResult} {limit low high : ℕ}

/-- The step is that of a result, its streams and its flag apart. -/
def SameStep (step : SummaryStep) (result : SummarisedResult) : Prop :=
  { step with stdout := [], stderr := [], truncated := false } =
    { summaryStep result with stdout := [], stderr := [], truncated := false }

/-- A summary whose steps are those of the results, their streams and flags apart. -/
def Aligned (results : List SummarisedResult) (summary : ResultSummary) : Prop :=
  List.Forall₂ SameStep summary.steps results

/-- The summary with every stream cut to a length. -/
def cutTo (results : List SummarisedResult) (limit : ℕ) (summary : ResultSummary) : ResultSummary :=
  { summary with steps := results.map fun result => (summaryStep result).cut limit result }

theorem cut_sameStep (h : SameStep step result) : step.cut limit result = (summaryStep result).cut limit result := by
  unfold SameStep at h
  cases step
  simp only [SummaryStep.mk.injEq, true_and] at h
  obtain ⟨rfl, rfl, rfl, rfl, rfl, rfl, rfl⟩ := h
  rfl

/-- **A cut does not depend on the cuts before it.** -/
theorem compact_of_aligned (h : Aligned results summary) : summary.compact results limit = cutTo results limit summary := by
  obtain ⟨sha, steps, flag⟩ := summary
  unfold ResultSummary.compact cutTo
  congr 1
  unfold Aligned at h
  dsimp only at h ⊢
  induction h with
  | nil => rfl
  | cons hstep _ ih => rw [List.zipWith_cons_cons, List.map_cons, cut_sameStep hstep, ih]

theorem aligned_cutTo (summary : ResultSummary) : Aligned results (cutTo results limit summary) := by
  unfold Aligned cutTo
  dsimp only
  induction results with
  | nil => exact .nil
  | cons result results ih => exact .cons rfl ih

/-- **The bound that the search ends with is zero or fits**, and the cuts of its probes leave no trace. -/
theorem searchCut_spec (high : ℕ) (haligned : Aligned results summary)
    (hlow : low = 0 ∨ (cutTo results low summary).serialize.length ≤ resultSummaryLimit) :
    Aligned results (searchCut results summary low high).2 ∧
      (∀ limit, cutTo results limit (searchCut results summary low high).2 = cutTo results limit summary) ∧
      ((searchCut results summary low high).1 = 0 ∨
        (cutTo results (searchCut results summary low high).1 summary).serialize.length ≤ resultSummaryLimit) := by
  induction hgap : high - low using Nat.strong_induction_on generalizing summary low high with
  | _ gap ih =>
    unfold searchCut
    by_cases hrange : low < high
    · rw [if_pos hrange]
      dsimp only
      rw [compact_of_aligned haligned]
      have hprobe : Aligned results (cutTo results ((low + high + 1) / 2) summary) := aligned_cutTo summary
      by_cases hfits : (cutTo results ((low + high + 1) / 2) summary).serialize.length ≤ resultSummaryLimit
      · rw [if_pos hfits]
        exact ih (high - (low + high + 1) / 2) (by omega) _ hprobe (.inr hfits) rfl
      · rw [if_neg hfits]
        exact ih ((low + high + 1) / 2 - 1 - low) (by omega) _ hprobe hlow rfl
    · rw [if_neg hrange]
      exact ⟨haligned, fun _ => rfl, hlow⟩

/-! ## The summary -/

/-- What a summary says of a step. -/
structure Summarises (step : SummaryStep) (result : SummarisedResult) : Prop where
  stdout : step.stdout <+: result.stdoutSummary
  stderr : step.stderr <+: result.stderrSummary
  others : step = { summaryStep result with stdout := step.stdout, stderr := step.stderr, truncated := step.truncated }
  truncated : step.truncated = true ↔
    result.summariesTruncated = true ∨ step.stdout ≠ result.stdoutSummary ∨ step.stderr ≠ result.stderrSummary

theorem Summarises.uncut (result : SummarisedResult) : Summarises (summaryStep result) result := by
  refine ⟨List.prefix_rfl, List.prefix_rfl, rfl, ?_⟩
  simp [summaryStep]

theorem take_ne_iff {text : List Char} : text.take limit ≠ text ↔ limit < text.length := by
  rw [ne_eq, List.take_eq_self_iff, not_le]

theorem Summarises.cut (limit : ℕ) (result : SummarisedResult) :
    Summarises ((summaryStep result).cut limit result) result := by
  refine ⟨List.take_prefix _ _, List.take_prefix _ _, rfl, ?_⟩
  unfold SummaryStep.cut
  dsimp only
  rw [take_ne_iff, take_ne_iff, Bool.or_eq_true, Bool.or_eq_true, decide_eq_true_iff, decide_eq_true_iff, or_assoc]

theorem summarises_map {f : SummarisedResult → SummaryStep} (h : ∀ result, Summarises (f result) result)
    (results : List SummarisedResult) : List.Forall₂ Summarises (results.map f) results := by
  induction results with
  | nil => exact .nil
  | cons result results ih => exact .cons (h result) ih

theorem cutTo_zero (results : List SummarisedResult) :
    cutTo results 0 ⟨order.spec.commitSha, results.map summaryStep, true⟩ = emptiedSummary order results := by
  unfold cutTo emptiedSummary
  congr 1
  apply List.map_congr_left
  intro result _
  unfold SummaryStep.cut
  simp only [List.take_zero, List.length_pos_iff]

/-- The summary is not cut, or every stream is cut to one length, which is zero or fits. -/
theorem resultSummary_cases (order : AssignedWorkOrder) (results : List SummarisedResult) :
    ((uncutSummary order results).serialize.length ≤ resultSummaryLimit ∧
        resultSummary order results = .ok (uncutSummary order results)) ∨
      ∃ limit, (limit = 0 ∨
          (cutTo results limit ⟨order.spec.commitSha, results.map summaryStep, true⟩).serialize.length ≤
            resultSummaryLimit) ∧
        resultSummary order results =
          if (cutTo results limit ⟨order.spec.commitSha, results.map summaryStep, true⟩).serialize.length >
              resultSummaryLimit then .error summaryExceedsLimit
          else .ok (cutTo results limit ⟨order.spec.commitSha, results.map summaryStep, true⟩) := by
  have haligned : Aligned results ⟨order.spec.commitSha, results.map summaryStep, true⟩ := by
    unfold Aligned
    dsimp only
    induction results with
    | nil => exact .nil
    | cons result results ih => exact .cons rfl ih
  obtain ⟨hprobed, hcuts, hbound⟩ := searchCut_spec
    (largestStream ⟨order.spec.commitSha, results.map summaryStep, true⟩) haligned (.inl (Eq.refl 0))
  unfold resultSummary
  dsimp only
  split
  · rename_i hfits
    exact .inl ⟨hfits, rfl⟩
  · refine .inr ⟨_, hbound, ?_⟩
    rw [compact_of_aligned hprobed, hcuts]

/-- **What `_summary` returns, and when it raises.** The function is total, so that the search ends. -/
theorem resultSummary_correct (order : AssignedWorkOrder) (results : List SummarisedResult) :
    (∃ summary, resultSummary order results = .ok summary ∧ summary.serialize.length ≤ resultSummaryLimit ∧
        summary.checkedOutSha = order.spec.commitSha ∧ List.Forall₂ Summarises summary.steps results) ∨
      (resultSummary order results = .error summaryExceedsLimit ∧
        resultSummaryLimit < (emptiedSummary order results).serialize.length) := by
  rcases resultSummary_cases order results with ⟨hfits, hr⟩ | ⟨limit, hbound, hr⟩
  · exact .inl ⟨_, hr, hfits, rfl, summarises_map Summarises.uncut results⟩
  · rw [hr]
    split
    · -- the search has ended at zero, since every other bound fits
      rename_i hexceeds
      rcases hbound with rfl | hfits
      · rw [cutTo_zero] at hexceeds
        exact .inr ⟨rfl, hexceeds⟩
      · exact absurd hfits (not_le.2 hexceeds)
    · rename_i hfits
      exact .inl ⟨_, rfl, not_lt.1 hfits, rfl, summarises_map (Summarises.cut _) results⟩

/-! ## What the metadata takes

The streams and the flags of the steps apart, every cut of a summary has the same text. Emptied streams are the
shortest, and a set flag is shorter than one that is not. -/

/-- The first document is not longer than the second. -/
def Shorter (v w : Json) : Prop := (dumps (normalize v)).length ≤ (dumps (normalize w)).length

theorem Shorter.refl (v : Json) : Shorter v v := le_refl _

theorem Shorter.arr {items items' : List Json} (h : List.Forall₂ Shorter items items') :
    Shorter (.arr items) (.arr items') := by
  have htail : ∀ {items items' : List Json}, List.Forall₂ Shorter items items' →
      (dumpsItems (normalizeItems items)).length ≤ (dumpsItems (normalizeItems items')).length := by
    intro items items' h
    induction h with
    | nil => exact le_refl _
    | cons hitem _ ih =>
      unfold Shorter at hitem
      simp only [normalizeItems, dumpsItems, List.length_cons, List.length_append]
      omega
  cases h with
  | nil => exact .refl _
  | cons hitem hitems =>
    have hrest := htail hitems
    unfold Shorter at hitem ⊢
    simp only [normalize, normalizeItems, dumps, List.length_cons, List.length_append]
    omega

theorem Shorter.obj {fields fields' : List (String × Json)}
    (h : List.Forall₂ (fun f g => f.1 = g.1 ∧ Shorter f.2 g.2) fields fields') : Shorter (.obj fields) (.obj fields') := by
  have htail : ∀ {fields fields' : List (String × Json)},
      List.Forall₂ (fun f g => f.1 = g.1 ∧ Shorter f.2 g.2) fields fields' →
      (dumpsFields (normalizeFields fields)).length ≤ (dumpsFields (normalizeFields fields')).length := by
    intro fields fields' h
    induction h with
    | nil => exact le_refl _
    | @cons f g _ _ hfield _ ih =>
      obtain ⟨name, v⟩ := f
      obtain ⟨name', w⟩ := g
      obtain ⟨hname, hvalue⟩ := hfield
      unfold Shorter at hvalue
      dsimp only at hname hvalue
      subst hname
      simp only [normalizeFields, dumpsFields, List.length_cons, List.length_append]
      omega
  cases h with
  | nil => exact .refl _
  | @cons f g _ _ hfield hfields =>
    obtain ⟨name, v⟩ := f
    obtain ⟨name', w⟩ := g
    obtain ⟨hname, hvalue⟩ := hfield
    have hrest := htail hfields
    unfold Shorter at hvalue ⊢
    dsimp only at hname hvalue
    subst hname
    simp only [normalize, normalizeFields, dumps, List.length_cons, List.length_append]
    omega

theorem Shorter.emptyText (text : List Char) : Shorter (.str (String.ofList [])) (.str (String.ofList text)) := by
  have hempty : sanitizeRemoteText (String.ofList []).toList = [] := by decide +kernel
  unfold Shorter
  simp only [normalize, dumps, hempty, jsonString, List.length_cons, List.length_append]
  simp [escapeText]

theorem Shorter.flag {b b' : Bool} (h : b' = true → b = true) : Shorter (.bool b) (.bool b') := by
  unfold Shorter
  cases b' with
  | true => rw [h rfl]
  | false => cases b <;> decide

/-- The emptied streams of a step take no more than its cut streams. -/
theorem emptied_shorter (limit : ℕ) (result : SummarisedResult) :
    Shorter (.obj ((summaryStep result).cut 0 result).fields) (.obj ((summaryStep result).cut limit result).fields) := by
  have hflag : ((summaryStep result).cut limit result).truncated = true →
      ((summaryStep result).cut 0 result).truncated = true := by
    intro hcut
    unfold SummaryStep.cut at hcut ⊢
    simp only [Bool.or_eq_true, decide_eq_true_iff] at hcut ⊢
    exact hcut.imp (Or.imp_right fun h => Nat.zero_lt_of_lt h) fun h => Nat.zero_lt_of_lt h
  refine Shorter.obj ?_
  unfold SummaryStep.fields
  refine .cons ⟨rfl, .refl _⟩ (.cons ⟨rfl, .refl _⟩ (.cons ⟨rfl, .refl _⟩ (.cons ⟨rfl, .refl _⟩ ?_)))
  refine .cons ⟨rfl, .emptyText _⟩ (.cons ⟨rfl, .emptyText _⟩ (.cons ⟨rfl, .flag hflag⟩ ?_))
  exact .cons ⟨rfl, .refl _⟩ (.cons ⟨rfl, .refl _⟩ (.cons ⟨rfl, .refl _⟩ .nil))

theorem cutTo_zero_shortest (order : AssignedWorkOrder) (results : List SummarisedResult) (limit : ℕ) :
    (emptiedSummary order results).serialize.length ≤
      (cutTo results limit ⟨order.spec.commitSha, results.map summaryStep, true⟩).serialize.length := by
  rw [← cutTo_zero]
  refine Shorter.obj ?_
  unfold ResultSummary.fields cutTo
  refine List.rel_append (.cons ⟨rfl, .refl _⟩ (.cons ⟨rfl, Shorter.arr ?_⟩ .nil)) (.cons ⟨rfl, .refl _⟩ .nil)
  dsimp only
  induction results with
  | nil => exact .nil
  | cons result results ih => exact .cons (emptied_shorter limit result) ih

/-- **`_summary` returns exactly if the summary fits uncut or with every stream emptied.** -/
theorem resultSummary_returns_iff (order : AssignedWorkOrder) (results : List SummarisedResult) :
    (∃ summary, resultSummary order results = .ok summary) ↔
      (uncutSummary order results).serialize.length ≤ resultSummaryLimit ∨
        (emptiedSummary order results).serialize.length ≤ resultSummaryLimit := by
  constructor
  · rintro ⟨summary, hsummary⟩
    rcases resultSummary_cases order results with ⟨hfits, -⟩ | ⟨limit, -, hr⟩
    · exact .inl hfits
    · rw [hr] at hsummary
      split at hsummary
      · cases hsummary
      · rename_i hfits
        exact .inr (le_trans (cutTo_zero_shortest order results limit) (not_lt.1 hfits))
  · rintro (hfits | hfits)
    · refine ⟨uncutSummary order results, ?_⟩
      unfold resultSummary
      exact if_pos hfits
    · rcases resultSummary_correct order results with ⟨summary, hr, -⟩ | ⟨-, hexceeds⟩
      · exact ⟨summary, hr⟩
      · exact absurd hfits (not_le.2 hexceeds)

/-- What the names of the fields take, with their quotes, colons and commas. -/
def namesLength (fields : List (String × Json)) : ℕ := (fields.map fun f => f.1.toList.length + 4).sum

theorem length_le_jsonString (text : List Char) : text.length + 2 ≤ (jsonString text).length := by
  have hescaped : text.length ≤ (escapeText text).length := by
    unfold escapeText
    induction text with
    | nil => exact le_refl _
    | cons c text ih =>
      have hc : 1 ≤ (escapeChar c).length := by
        unfold escapeChar
        split
        · simp
        · split
          · split <;> simp
          · simp
      rw [List.flatMap_cons, List.length_append, List.length_cons]
      omega
  unfold jsonString
  simp only [List.length_cons, List.length_append, List.length_nil]
  omega

theorem namesLength_le_dumpsFields (fields : List (String × Json)) :
    namesLength fields ≤ (dumpsFields (normalizeFields fields)).length := by
  induction fields with
  | nil => exact le_refl _
  | cons f fields ih =>
    obtain ⟨name, value⟩ := f
    have hname := length_le_jsonString name.toList
    unfold namesLength at ih ⊢
    simp only [normalizeFields, dumpsFields, List.map_cons, List.sum_cons, List.length_cons, List.length_append]
    omega

theorem namesLength_le_dumps {fields : List (String × Json)} (h : fields ≠ []) :
    namesLength fields + 1 ≤ (dumps (normalize (.obj fields))).length := by
  obtain ⟨⟨name, value⟩, fields, rfl⟩ := List.exists_cons_of_ne_nil h
  have hname := length_le_jsonString name.toList
  have hfields := namesLength_le_dumpsFields fields
  unfold namesLength at hfields ⊢
  simp only [normalize, normalizeFields, dumps, List.map_cons, List.sum_cons, List.length_cons, List.length_append,
    List.length_nil]
  omega

/-- The names of its fields alone give a step 125 characters. -/
theorem step_length (step : SummaryStep) : 125 ≤ (dumps (normalize (.obj step.fields))).length := by
  have hne : step.fields ≠ [] := by
    unfold SummaryStep.fields
    exact List.cons_ne_nil _ _
  have hnames : namesLength step.fields = 124 := by
    unfold namesLength SummaryStep.fields
    simp only [List.map_cons, List.map_nil]
    decide
  have hlength := namesLength_le_dumps hne
  omega

theorem steps_length (steps : List SummaryStep) :
    125 * steps.length ≤ (dumps (normalize (.arr (steps.map fun step => .obj step.fields)))).length := by
  have htail : ∀ steps : List SummaryStep, 125 * steps.length ≤
      (dumpsItems (normalizeItems (steps.map fun step => .obj step.fields))).length := by
    intro steps
    induction steps with
    | nil => exact le_refl _
    | cons step steps ih =>
      have hstep := step_length step
      simp only [List.map_cons, normalizeItems, dumpsItems, List.length_cons, List.length_append]
      omega
  cases steps with
  | nil => exact Nat.zero_le _
  | cons step steps =>
    have hstep := step_length step
    have hsteps := htail steps
    simp only [List.map_cons, normalize, normalizeItems, dumps, List.length_cons, List.length_append] at hstep ⊢
    omega

/-- **64 steps have no summary that fits**, whatever they have written. -/
theorem steps_exceed (summary : ResultSummary) (h : 64 ≤ summary.steps.length) :
    resultSummaryLimit < summary.serialize.length := by
  have hsteps := steps_length summary.steps
  unfold ResultSummary.serialize serializeSummary ResultSummary.fields resultSummaryLimit
  simp only [List.cons_append, normalize, normalizeFields, dumps, dumpsFields, List.length_cons, List.length_append]
    at hsteps ⊢
  omega

end Switchboard
