import Switchboard.Proof.CanonicalJson
import Switchboard.Spec.OperatorRuntime

/-!
# The mappings of operator reports

A report is written as a mapping with sorted keys, and read from one. None of the readers depends on the order of the
keys.

* `ofValue_iff`, `ofFields_iff`: the fields that a record is built from.
* `OperatorLifecycleReport.ofFields_ordered`: a report is built from its sorted mapping.
* `validateReportShape_sorted`: a report that has the shape keeps it when its keys are sorted.
* `OperatorLifecycleReport.readable`: the mapping of a report is within the limits of the reader.
-/

namespace Switchboard

open Transaction
open JsonText (Value sorted orderedFields sorted_obj sorted_arr ReadsFloat)

namespace Operator

variable {I : Interpreter} {P : Platform} {floatRepr : Binary64 → List Char} {F : Type}

/-! ## Fields -/

theorem getField_map (g : Value F → Value F) (fields : List (String × Value F)) (name : String) :
    getField (fields.map fun f => (f.1, g f.2)) name = (getField fields name).map g := by
  unfold getField
  induction fields with
  | nil => rfl
  | cons field fields ih =>
    rw [List.map_cons, List.find?_cons, List.find?_cons]
    dsimp only
    split
    · rfl
    · exact ih

theorem getField_some_iff {fields : List (String × Value F)} (hkeys : (fields.map Prod.fst).Nodup)
    {name : String}
    {v : Value F} : getField fields name = some v ↔ (name, v) ∈ fields := by
  unfold getField
  induction fields with
  | nil => simp
  | cons field fields ih =>
    obtain ⟨key, value⟩ := field
    rw [List.map_cons, List.nodup_cons] at hkeys
    rw [List.find?_cons, List.mem_cons]
    by_cases hkey : key = name
    · subst hkey
      have hno : (key, v) ∉ fields := fun hmem => hkeys.1 (List.mem_map.2 ⟨_, hmem, rfl⟩)
      simp [hno, eq_comm]
    · have hne : ¬ (name, v) = (key, value) := fun heq => hkey (congrArg Prod.fst heq).symm
      rw [beq_eq_false_iff_ne.2 hkey, ih hkeys.2]
      simp [hne]

/-- A field of a mapping with sorted keys is the sorted field. -/
theorem getField_ordered {fields : List (String × Value F)} (hkeys : (fields.map Prod.fst).Nodup)
    (name : String) :
    getField (orderedFields fields) name = (getField fields name).map sorted := by
  have hordered := (JsonText.names_orderedFields fields).nodup_iff.2 hkeys
  have hmapped : ((fields.map fun f => (f.1, sorted f.2)).map Prod.fst).Nodup := by
    rw [List.map_map]
    exact hkeys
  rw [← getField_map]
  ext v
  rw [getField_some_iff hordered, getField_some_iff hmapped, (JsonText.orderedFields_perm fields).mem_iff]

/-- The keys of a mapping do not depend on the order of its fields. -/
theorem hasKeys_ordered (fields : List (String × Value F)) (names : List String) :
    hasKeys (orderedFields fields) names = hasKeys fields names := by
  have hkeys : ∀ {α : Type} (fs : List (String × α)), hasKeys fs names =
      ((fs.map Prod.fst).all (fun key => decide (key ∈ names)) &&
        names.all fun name => (fs.map Prod.fst).any fun key => key == name) := by
    intro α fs
    unfold hasKeys
    rw [List.all_map]
    simp only [List.any_map]
    rfl
  have hperm := JsonText.names_orderedFields fields
  rw [hkeys, hkeys, hperm.all_eq]
  simp only [hperm.any_eq]

theorem typeOf_sorted (v : Value Binary64) : typeOf (sorted v) = typeOf v := by
  cases v with
  | arr items => rw [sorted_arr]; rfl
  | obj fields => rw [sorted_obj]; rfl
  | _ => rfl

/-! ## Records from their fields -/

section readers

variable {fields : List (String × Value Binary64)} {name : String}

theorem strField_iff {t : String} : strField fields name = some t ↔ getField fields name = some (.str t) := by
  unfold strField
  cases getField fields name with
  | none => simp
  | some v => cases v <;> simp

theorem intField_iff {i : ℤ} : intField fields name = some i ↔ getField fields name = some (.int i) := by
  unfold intField
  cases getField fields name with
  | none => simp
  | some v => cases v <;> simp

theorem boolField_iff {b : Bool} : boolField fields name = some b ↔ getField fields name = some (.bool b) := by
  unfold boolField
  cases getField fields name with
  | none => simp
  | some v => cases v <;> simp

theorem optionalIntField_iff {i : Option ℤ} :
    optionalIntField fields name = some i ↔ getField fields name = some (optionalInt i) := by
  unfold optionalIntField
  cases getField fields name with
  | none => simp
  | some v => cases v <;> cases i <;> simp [optionalInt]

theorem optionalStrField_iff {t : Option String} :
    optionalStrField fields name = some t ↔ getField fields name = some (optionalStr t) := by
  unfold optionalStrField
  cases getField fields name with
  | none => simp
  | some v => cases v <;> cases t <;> simp [optionalStr]

theorem durationField_iff {d : Duration} :
    durationField fields name = some d ↔ getField fields name = some d.payload := by
  unfold durationField
  cases getField fields name with
  | none => simp
  | some v => cases v <;> cases d <;> simp [Duration.payload]

theorem itemsField_iff {α : Type} {read : Value Binary64 → Option α} {xs : List α} :
    itemsField fields name read = some xs ↔ ∃ items, getField fields name = some (.arr items) ∧ items.mapM read = some xs := by
  unfold itemsField
  cases getField fields name with
  | none => simp
  | some v => cases v <;> simp

theorem mapM_strItem_iff {items : List (Value Binary64)} {values : List String} :
    items.mapM strItem = some values ↔ items = values.map .str := by
  induction items generalizing values with
  | nil => cases values <;> simp
  | cons item items ih =>
    simp only [List.mapM_cons, Option.bind_eq_bind, Option.bind_eq_some_iff, ih, Option.pure_def, Option.some.injEq]
    constructor
    · rintro ⟨t, ht, rest, rfl, rfl⟩
      cases item <;> cases ht
      rfl
    · intro h
      cases values with
      | nil => cases h
      | cons t values =>
        obtain ⟨rfl, rfl⟩ := List.cons.inj h
        exact ⟨t, rfl, values, rfl, rfl⟩

theorem textsField_iff {values : List String} :
    itemsField fields name strItem = some values ↔ getField fields name = some (texts values) := by
  rw [itemsField_iff]
  constructor
  · rintro ⟨items, hitems, hread⟩
    rw [hitems, mapM_strItem_iff.1 hread]
    rfl
  · intro h
    exact ⟨_, h, mapM_strItem_iff.2 rfl⟩

end readers

/-- A mapping holds the fields of a record, but for those of some names. -/
def Holds (fields : List (String × Value Binary64)) (record : List (String × Value Binary64)) (names : List String) : Prop :=
  ∀ f ∈ record, f.1 ∉ names → getField fields f.1 = some f.2

theorem RuntimeSummary.ofFields_iff {fields : List (String × Value Binary64)} {s : RuntimeSummary} :
    RuntimeSummary.ofFields fields = some s ↔ Holds fields s.fields [] := by
  simp only [RuntimeSummary.ofFields, Option.bind_eq_bind, Option.bind_eq_some_iff, strField_iff, intField_iff,
    Option.pure_def, Option.some.injEq, Holds, RuntimeSummary.fields, List.forall_mem_cons, List.not_mem_nil,
    not_false_eq_true, forall_true_left]
  constructor
  · rintro ⟨_, h1, _, h2, _, h3, _, h4, _, h5, _, h6, _, h7, _, h8, _, h9, _, h10, rfl⟩
    exact ⟨h1, h2, h3, h4, h5, h6, h7, h8, h9, h10, by simp⟩
  · rintro ⟨h1, h2, h3, h4, h5, h6, h7, h8, h9, h10, -⟩
    exact ⟨_, h1, _, h2, _, h3, _, h4, _, h5, _, h6, _, h7, _, h8, _, h9, _, h10, rfl⟩

theorem StepSummary.ofValue_iff {fields : List (String × Value Binary64)} {s : StepSummary} :
    StepSummary.ofValue (.obj fields) = some s ↔ Holds fields s.fields [] := by
  simp only [StepSummary.ofValue, Option.bind_eq_bind, Option.bind_eq_some_iff, strField_iff, durationField_iff,
    Option.pure_def, Option.some.injEq, Holds, StepSummary.fields, List.forall_mem_cons, List.not_mem_nil,
    not_false_eq_true, forall_true_left]
  constructor
  · rintro ⟨_, h1, _, h2, _, h3, rfl⟩
    exact ⟨h1, h2, h3, by simp⟩
  · rintro ⟨h1, h2, h3, -⟩
    exact ⟨_, h1, _, h2, _, h3, rfl⟩

theorem ArtifactSummary.ofValue_iff {fields : List (String × Value Binary64)} {a : ArtifactSummary} :
    ArtifactSummary.ofValue (.obj fields) = some a ↔ Holds fields a.fields [] := by
  simp only [ArtifactSummary.ofValue, Option.bind_eq_bind, Option.bind_eq_some_iff, strField_iff, intField_iff,
    Option.pure_def, Option.some.injEq, Holds, ArtifactSummary.fields, List.forall_mem_cons, List.not_mem_nil,
    not_false_eq_true, forall_true_left]
  constructor
  · rintro ⟨_, h1, _, h2, _, h3, _, h4, rfl⟩
    exact ⟨h1, h2, h3, h4, by simp⟩
  · rintro ⟨h1, h2, h3, h4, -⟩
    exact ⟨_, h1, _, h2, _, h3, _, h4, rfl⟩

/-- The fields of a run that are lists of records. -/
def runLists : List String := ["steps", "artifacts"]

theorem RunSummary.ofValue_iff {fields : List (String × Value Binary64)} {r : RunSummary} :
    RunSummary.ofValue (.obj fields) = some r ↔ Holds fields r.fields runLists ∧
      (∃ items, getField fields "steps" = some (.arr items) ∧ items.mapM StepSummary.ofValue = some r.steps) ∧
      ∃ items, getField fields "artifacts" = some (.arr items) ∧ items.mapM ArtifactSummary.ofValue = some r.artifacts := by
  constructor
  · intro h
    unfold RunSummary.ofValue at h
    obtain ⟨_, h1, h⟩ := Option.bind_eq_some_iff.1 h
    obtain ⟨_, h2, h⟩ := Option.bind_eq_some_iff.1 h
    obtain ⟨_, h3, h⟩ := Option.bind_eq_some_iff.1 h
    obtain ⟨_, h4, h⟩ := Option.bind_eq_some_iff.1 h
    obtain ⟨_, h5, h⟩ := Option.bind_eq_some_iff.1 h
    obtain ⟨_, h6, h⟩ := Option.bind_eq_some_iff.1 h
    obtain ⟨_, h7, h⟩ := Option.bind_eq_some_iff.1 h
    obtain ⟨_, h8, h⟩ := Option.bind_eq_some_iff.1 h
    obtain ⟨_, h9, h⟩ := Option.bind_eq_some_iff.1 h
    obtain ⟨_, h10, h⟩ := Option.bind_eq_some_iff.1 h
    obtain ⟨_, h11, h⟩ := Option.bind_eq_some_iff.1 h
    obtain ⟨_, h12, h⟩ := Option.bind_eq_some_iff.1 h
    obtain ⟨_, h13, h⟩ := Option.bind_eq_some_iff.1 h
    obtain ⟨_, h14, h⟩ := Option.bind_eq_some_iff.1 h
    obtain ⟨_, h15, h⟩ := Option.bind_eq_some_iff.1 h
    obtain ⟨_, h16, h⟩ := Option.bind_eq_some_iff.1 h
    obtain ⟨_, h17, h⟩ := Option.bind_eq_some_iff.1 h
    obtain ⟨_, h18, h⟩ := Option.bind_eq_some_iff.1 h
    obtain ⟨_, h19, h⟩ := Option.bind_eq_some_iff.1 h
    obtain ⟨_, h20, h⟩ := Option.bind_eq_some_iff.1 h
    obtain ⟨_, h21, h⟩ := Option.bind_eq_some_iff.1 h
    obtain ⟨_, h22, h⟩ := Option.bind_eq_some_iff.1 h
    obtain ⟨_, h23, h⟩ := Option.bind_eq_some_iff.1 h
    obtain ⟨_, h24, h⟩ := Option.bind_eq_some_iff.1 h
    obtain ⟨_, h25, h⟩ := Option.bind_eq_some_iff.1 h
    obtain ⟨_, hsteps, h⟩ := Option.bind_eq_some_iff.1 h
    obtain ⟨_, hartifacts, h⟩ := Option.bind_eq_some_iff.1 h
    cases h
    refine ⟨?_, itemsField_iff.1 hsteps, itemsField_iff.1 hartifacts⟩
    simp only [Holds, RunSummary.fields, List.forall_mem_cons]
    simp [runLists, intField_iff.1 h1, intField_iff.1 h2, intField_iff.1 h3, intField_iff.1 h4, strField_iff.1 h5,
      strField_iff.1 h6, strField_iff.1 h7, strField_iff.1 h8, optionalIntField_iff.1 h9, strField_iff.1 h10,
      strField_iff.1 h11, strField_iff.1 h12, strField_iff.1 h13, strField_iff.1 h14, intField_iff.1 h15,
      intField_iff.1 h16, strField_iff.1 h17, intField_iff.1 h18, intField_iff.1 h19, intField_iff.1 h20,
      intField_iff.1 h21, boolField_iff.1 h22, boolField_iff.1 h23, boolField_iff.1 h24, boolField_iff.1 h25]
  · rintro ⟨h, hsteps, hartifacts⟩
    simp only [Holds, RunSummary.fields, List.forall_mem_cons] at h
    simp [runLists] at h
    obtain ⟨h1, h2, h3, h4, h5, h6, h7, h8, h9, h10, h11, h12, h13, h14, h15, h16, h17, h18, h19, h20, h21, h22, h23,
      h24, h25⟩ := h
    simp only [RunSummary.ofValue, itemsField_iff.2 hsteps, itemsField_iff.2 hartifacts, intField_iff.2 h1,
      intField_iff.2 h2, intField_iff.2 h3, intField_iff.2 h4, strField_iff.2 h5,
      strField_iff.2 h6, strField_iff.2 h7, strField_iff.2 h8, optionalIntField_iff.2 h9, strField_iff.2 h10,
      strField_iff.2 h11, strField_iff.2 h12, strField_iff.2 h13, strField_iff.2 h14, intField_iff.2 h15,
      intField_iff.2 h16, strField_iff.2 h17, intField_iff.2 h18, intField_iff.2 h19, intField_iff.2 h20,
      intField_iff.2 h21, boolField_iff.2 h22, boolField_iff.2 h23, boolField_iff.2 h24, boolField_iff.2 h25]
    rfl

/-- The fields of a report that are records. -/
def reportRecords : List String := ["runtime", "runs"]

theorem OperatorLifecycleReport.ofFields_iff {summary : RuntimeSummary} {fields : List (String × Value Binary64)}
    {r : OperatorLifecycleReport} :
    OperatorLifecycleReport.ofFields summary fields = some r ↔ r.runtime = some summary ∧
      Holds fields r.fields reportRecords ∧
      ∃ items, getField fields "runs" = some (.arr items) ∧ items.mapM RunSummary.ofValue = some r.runs := by
  constructor
  · intro h
    unfold OperatorLifecycleReport.ofFields at h
    obtain ⟨_, h1, h⟩ := Option.bind_eq_some_iff.1 h
    obtain ⟨_, h2, h⟩ := Option.bind_eq_some_iff.1 h
    obtain ⟨_, h3, h⟩ := Option.bind_eq_some_iff.1 h
    obtain ⟨_, h4, h⟩ := Option.bind_eq_some_iff.1 h
    obtain ⟨_, h5, h⟩ := Option.bind_eq_some_iff.1 h
    obtain ⟨_, h6, h⟩ := Option.bind_eq_some_iff.1 h
    obtain ⟨_, h7, h⟩ := Option.bind_eq_some_iff.1 h
    obtain ⟨_, h8, h⟩ := Option.bind_eq_some_iff.1 h
    obtain ⟨_, h9, h⟩ := Option.bind_eq_some_iff.1 h
    obtain ⟨_, h10, h⟩ := Option.bind_eq_some_iff.1 h
    obtain ⟨_, hruns, h⟩ := Option.bind_eq_some_iff.1 h
    obtain ⟨_, h12, h⟩ := Option.bind_eq_some_iff.1 h
    obtain ⟨_, h13, h⟩ := Option.bind_eq_some_iff.1 h
    obtain ⟨_, h14, h⟩ := Option.bind_eq_some_iff.1 h
    obtain ⟨_, h15, h⟩ := Option.bind_eq_some_iff.1 h
    obtain ⟨_, h16, h⟩ := Option.bind_eq_some_iff.1 h
    obtain ⟨_, h17, h⟩ := Option.bind_eq_some_iff.1 h
    obtain ⟨_, h18, h⟩ := Option.bind_eq_some_iff.1 h
    obtain ⟨_, h19, h⟩ := Option.bind_eq_some_iff.1 h
    obtain ⟨_, h20, h⟩ := Option.bind_eq_some_iff.1 h
    cases h
    refine ⟨rfl, ?_, itemsField_iff.1 hruns⟩
    simp only [Holds, OperatorLifecycleReport.fields, List.forall_mem_cons]
    simp [reportRecords, intField_iff.1 h1, strField_iff.1 h2, strField_iff.1 h3, textsField_iff.1 h4, textsField_iff.1 h5,
      boolField_iff.1 h6, boolField_iff.1 h7, boolField_iff.1 h8, boolField_iff.1 h9, boolField_iff.1 h10,
      optionalIntField_iff.1 h12, optionalIntField_iff.1 h13, boolField_iff.1 h14, boolField_iff.1 h15,
      boolField_iff.1 h16, boolField_iff.1 h17, intField_iff.1 h18, intField_iff.1 h19,
      optionalStrField_iff.1 h20]
  · rintro ⟨hruntime, h, hruns⟩
    simp only [Holds, OperatorLifecycleReport.fields, List.forall_mem_cons] at h
    simp [reportRecords] at h
    obtain ⟨h1, h2, h3, h4, h5, h6, h7, h8, h9, h10, h12, h13, h14, h15, h16, h17, h18, h19, h20⟩ := h
    simp only [OperatorLifecycleReport.ofFields, itemsField_iff.2 hruns, intField_iff.2 h1, strField_iff.2 h2,
      strField_iff.2 h3, textsField_iff.2 h4, textsField_iff.2 h5,
      boolField_iff.2 h6, boolField_iff.2 h7, boolField_iff.2 h8, boolField_iff.2 h9, boolField_iff.2 h10,
      optionalIntField_iff.2 h12, optionalIntField_iff.2 h13, boolField_iff.2 h14, boolField_iff.2 h15,
      boolField_iff.2 h16, boolField_iff.2 h17, intField_iff.2 h18, intField_iff.2 h19,
      optionalStrField_iff.2 h20, ← hruntime]
    rfl

/-! ## Records with sorted keys -/

theorem holds_self {fields : List (String × Value Binary64)} (hkeys : (fields.map Prod.fst).Nodup)
    (names : List String) :
    Holds fields fields names := fun _ hf _ => (getField_some_iff hkeys).2 hf

theorem Holds.ordered {fields record : List (String × Value Binary64)} {names : List String}
    (h : Holds fields record names) (hkeys : (fields.map Prod.fst).Nodup)
    (hflat : ∀ f ∈ record, f.1 ∉ names → sorted f.2 = f.2) : Holds (orderedFields fields) record names := by
  intro f hf hname
  rw [getField_ordered hkeys, h f hf hname, Option.map_some, hflat f hf hname]

theorem RuntimeSummary.fields_nodup (s : RuntimeSummary) : (s.fields.map Prod.fst).Nodup := by
  simp [RuntimeSummary.fields]

theorem RuntimeSummary.fields_keys (s : RuntimeSummary) :
    hasKeys s.fields (runtimeShape.map Prod.fst) = true := by
  simp [hasKeys, RuntimeSummary.fields, runtimeShape, fromKeys]

theorem StepSummary.fields_nodup (s : StepSummary) :
    (s.fields.map Prod.fst).Nodup := by simp [StepSummary.fields]

theorem ArtifactSummary.fields_nodup (a : ArtifactSummary) : (a.fields.map Prod.fst).Nodup := by
  simp [ArtifactSummary.fields]

theorem RunSummary.fields_nodup (r : RunSummary) : (r.fields.map Prod.fst).Nodup := by simp [RunSummary.fields]

theorem OperatorLifecycleReport.fields_nodup (r : OperatorLifecycleReport) : (r.fields.map Prod.fst).Nodup := by
  simp [OperatorLifecycleReport.fields]

@[simp] theorem sorted_texts (values : List String) : sorted (texts values) = texts values := by
  unfold texts
  rw [sorted_arr, List.map_map]
  rfl

@[simp] theorem sorted_optionalInt (i : Option ℤ) : sorted (optionalInt i) = optionalInt i := by cases i <;> rfl

@[simp] theorem sorted_optionalStr (s : Option String) : sorted (optionalStr s) = optionalStr s := by cases s <;> rfl

@[simp] theorem sorted_duration (d : Duration) : sorted d.payload = d.payload := by cases d <;> rfl

theorem RuntimeSummary.flat (s : RuntimeSummary) :
    ∀ f ∈ s.fields, f.1 ∉ ([] : List String) → sorted f.2 = f.2 := by
  simp [RuntimeSummary.fields, sorted]

theorem StepSummary.flat (s : StepSummary) : ∀ f ∈ s.fields, f.1 ∉ ([] : List String) → sorted f.2 = f.2 := by
  simp [StepSummary.fields, sorted]

theorem ArtifactSummary.flat (a : ArtifactSummary) :
    ∀ f ∈ a.fields, f.1 ∉ ([] : List String) → sorted f.2 = f.2 := by
  simp [ArtifactSummary.fields, sorted]

theorem RunSummary.flat (r : RunSummary) : ∀ f ∈ r.fields, f.1 ∉ runLists → sorted f.2 = f.2 := by
  simp [RunSummary.fields, runLists, sorted]

theorem OperatorLifecycleReport.flat (r : OperatorLifecycleReport) :
    ∀ f ∈ r.fields, f.1 ∉ reportRecords → sorted f.2 = f.2 := by
  simp [OperatorLifecycleReport.fields, reportRecords, sorted]

/-- A list of records that are built from their sorted mappings. -/
theorem mapM_sorted {α : Type} {read : Value Binary64 → Option α} {payload : α → Value Binary64}
    (h : ∀ x, read (sorted (payload x)) = some x) (xs : List α) : ((xs.map payload).map sorted).mapM read = some xs := by
  induction xs with
  | nil => rfl
  | cons x xs ih => rw [List.map_cons, List.map_cons, List.mapM_cons, h, ih]; rfl

/-- A list of records is read from a mapping with sorted keys. -/
theorem items_sorted {α : Type} {read : Value Binary64 → Option α} {payload : α → Value Binary64}
    {fields : List (String × Value Binary64)} {name : String} {xs : List α} (hkeys : (fields.map Prod.fst).Nodup)
    (hfield : (name, .arr (xs.map payload)) ∈ fields) (h : ∀ x, read (sorted (payload x)) = some x) :
    ∃ items, getField (orderedFields fields) name = some (.arr items) ∧ items.mapM read = some xs := by
  refine ⟨(xs.map payload).map sorted, ?_, mapM_sorted h xs⟩
  rw [getField_ordered hkeys, (getField_some_iff hkeys).2 hfield, Option.map_some, sorted_arr]

theorem RuntimeSummary.ofFields_ordered (s : RuntimeSummary) :
    RuntimeSummary.ofFields (orderedFields s.fields) = some s :=
  RuntimeSummary.ofFields_iff.2 ((holds_self s.fields_nodup []).ordered s.fields_nodup s.flat)

theorem StepSummary.ofValue_sorted (s : StepSummary) : StepSummary.ofValue (sorted s.payload) = some s := by
  rw [StepSummary.payload, sorted_obj]
  exact StepSummary.ofValue_iff.2 ((holds_self s.fields_nodup []).ordered s.fields_nodup s.flat)

theorem ArtifactSummary.ofValue_sorted (a : ArtifactSummary) :
    ArtifactSummary.ofValue (sorted a.payload) = some a := by
  rw [ArtifactSummary.payload, sorted_obj]
  exact ArtifactSummary.ofValue_iff.2 ((holds_self a.fields_nodup []).ordered a.fields_nodup a.flat)

theorem RunSummary.ofValue_sorted (r : RunSummary) : RunSummary.ofValue (sorted r.payload) = some r := by
  rw [RunSummary.payload, sorted_obj]
  refine RunSummary.ofValue_iff.2 ⟨(holds_self r.fields_nodup runLists).ordered r.fields_nodup r.flat, ?_, ?_⟩
  · exact items_sorted r.fields_nodup (by simp [RunSummary.fields]) StepSummary.ofValue_sorted
  · exact items_sorted r.fields_nodup (by simp [RunSummary.fields]) ArtifactSummary.ofValue_sorted

/-- **A report is built from its sorted mapping.** -/
theorem OperatorLifecycleReport.ofFields_ordered {r : OperatorLifecycleReport} {summary : RuntimeSummary}
    (h : r.runtime = some summary) : OperatorLifecycleReport.ofFields summary (orderedFields r.fields) = some r := by
  refine OperatorLifecycleReport.ofFields_iff.2
    ⟨h, (holds_self r.fields_nodup reportRecords).ordered r.fields_nodup r.flat, ?_⟩
  exact items_sorted r.fields_nodup (by simp [OperatorLifecycleReport.fields]) RunSummary.ofValue_sorted

/-! ## Shapes with sorted keys -/

/-- The keys of every mapping within a value are distinct. -/
inductive DistinctKeys : Value Binary64 → Prop
  | null : DistinctKeys .null
  | bool (b : Bool) : DistinctKeys (.bool b)
  | int (i : ℤ) : DistinctKeys (.int i)
  | float (x : Binary64) : DistinctKeys (.float x)
  | str (s : String) : DistinctKeys (.str s)
  | arr {items : List (Value Binary64)} (h : ∀ item ∈ items, DistinctKeys item) : DistinctKeys (.arr items)
  | obj {fields : List (String × Value Binary64)} (hkeys : (fields.map Prod.fst).Nodup)
      (h : ∀ f ∈ fields, DistinctKeys f.2) : DistinctKeys (.obj fields)

theorem distinctKeys_of_readable {e : JsonText.Encoder Binary64} {limit : ℕ} {v : Value Binary64}
    (h : JsonText.Readable (recordDecoder I) e limit v) : DistinctKeys v := by
  induction h with
  | null => exact .null
  | bool b => exact .bool b
  | int h => exact .int _
  | float h => exact .float _
  | str s => exact .str s
  | arr h ih => exact .arr ih
  | obj hpairs h ih => exact .obj (JsonText.distinctPairs_ok.1 hpairs).2 ih

theorem shape_ok {value : Value Binary64} {fields : Shape} {items : List (String × Value Binary64)} :
    shape value fields = .ok items ↔ value = .obj items ∧ hasKeys items (fields.map Prod.fst) = true ∧
      ∀ f ∈ fields, ∃ v, getField items f.1 = some v ∧ typeOf v ∈ f.2 := by
  unfold shape
  cases value with
  | obj items' =>
    simp only [except_bind_ok, require, ensure_ok, except_pure_ok, List.all_eq_true, Option.any_eq_true,
      Option.map_eq_some_iff, decide_eq_true_eq, Value.obj.injEq]
    constructor
    · rintro ⟨-, hkeys, -, htypes, rfl⟩
      refine ⟨rfl, hkeys, fun f hf => ?_⟩
      obtain ⟨-, ⟨v, hv, rfl⟩, htype⟩ := htypes f hf
      exact ⟨v, hv, htype⟩
    · rintro ⟨rfl, hkeys, htypes⟩
      refine ⟨(), hkeys, (), fun f hf => ?_, rfl⟩
      obtain ⟨v, hv, htype⟩ := htypes f hf
      exact ⟨typeOf v, ⟨v, hv, rfl⟩, htype⟩
  | _ => simp

theorem shape_sorted {fields : Shape} {items : List (String × Value Binary64)}
    (h : shape (.obj items) fields = .ok items)
    (hkeys : (items.map Prod.fst).Nodup) : shape (sorted (.obj items)) fields = .ok (orderedFields items) := by
  obtain ⟨-, hnames, htypes⟩ := shape_ok.1 h
  rw [sorted_obj]
  refine shape_ok.2 ⟨rfl, ?_, fun f hf => ?_⟩
  · rw [hasKeys_ordered]
    exact hnames
  · obtain ⟨v, hv, htype⟩ := htypes f hf
    refine ⟨sorted v, ?_, ?_⟩
    · rw [getField_ordered hkeys, hv, Option.map_some]
    · rw [typeOf_sorted]
      exact htype

theorem listField_ordered {items : List (String × Value Binary64)} (hkeys : (items.map Prod.fst).Nodup)
    (name : String) :
    listField (orderedFields items) name = (listField items name).map sorted := by
  unfold listField
  rw [getField_ordered hkeys]
  cases getField items name with
  | none => rfl
  | some v =>
    cases v with
    | arr items => rw [Option.map_some, sorted_arr]
    | obj fields => rw [Option.map_some, sorted_obj]; rfl
    | _ => rfl

theorem DistinctKeys.fields {items : List (String × Value Binary64)} (h : DistinctKeys (.obj items)) :
    (items.map Prod.fst).Nodup ∧ ∀ f ∈ items, DistinctKeys f.2 := by
  cases h with
  | obj hkeys h => exact ⟨hkeys, h⟩

theorem DistinctKeys.items {items : List (String × Value Binary64)} (h : DistinctKeys (.obj items))
    {name : String} :
    ∀ item ∈ listField items name, DistinctKeys item := by
  intro item hitem
  unfold listField at hitem
  split at hitem
  · rename_i values hvalues
    have hvalue := h.fields.2 _ ((getField_some_iff h.fields.1).1 hvalues)
    cases hvalue with
    | arr hitems => exact hitems item hitem
  · cases hitem

/-- A value with the shape keeps it when its keys are sorted. -/
theorem HasShape.sorted {fields : Shape} {value : Value Binary64} (h : ∃ items, shape value fields = .ok items)
    (hd : DistinctKeys value) : ∃ items, shape (JsonText.sorted value) fields = .ok items := by
  obtain ⟨items, hitems⟩ := h
  obtain ⟨rfl, -, -⟩ := shape_ok.1 hitems
  exact ⟨_, shape_sorted hitems hd.fields.1⟩

theorem validateTexts_ok {items : List (Value Binary64)} {u : Unit} :
    validateTexts items = .ok u ↔ items.length ≤ maxItems ∧ ∀ item ∈ items, typeOf item = .str := by
  simp [validateTexts, collection, require]

theorem validateRunShape_ok {value : Value Binary64} {u : Unit} :
    validateRunShape value = .ok u ↔ ∃ run, shape value runShape = .ok run ∧
      (listField run "steps").length ≤ maxItems ∧ (listField run "artifacts").length ≤ maxItems ∧
      (∀ step ∈ listField run "steps", ∃ items, shape step stepShape = .ok items) ∧
      ∀ artifact ∈ listField run "artifacts", ∃ items, shape artifact artifactShape = .ok items := by
  unfold validateRunShape collection
  simp only [except_bind_ok, except_forM_ok, require, ensure_ok, decide_eq_true_eq]
  constructor
  · rintro ⟨run, hrun, -, hsteps, -, hartifacts, -, hstep, hartifact⟩
    refine ⟨run, hrun, hsteps, hartifacts, fun step hmem => ?_, fun artifact hmem => ?_⟩
    · obtain ⟨items, hitems, -⟩ := hstep step hmem
      exact ⟨items, hitems⟩
    · obtain ⟨items, hitems, -⟩ := hartifact artifact hmem
      exact ⟨items, hitems⟩
  · rintro ⟨run, hrun, hsteps, hartifacts, hstep, hartifact⟩
    refine ⟨run, hrun, (), hsteps, (), hartifacts, (), fun step hmem => ?_, fun artifact hmem => ?_⟩
    · obtain ⟨items, hitems⟩ := hstep step hmem
      exact ⟨items, hitems, rfl⟩
    · obtain ⟨items, hitems⟩ := hartifact artifact hmem
      exact ⟨items, hitems, rfl⟩

theorem validateRunShape_sorted {value : Value Binary64} (h : validateRunShape value = .ok ())
    (hd : DistinctKeys value) :
    validateRunShape (sorted value) = .ok () := by
  obtain ⟨run, hshape, hsteps, hartifacts, hstep, hartifact⟩ := validateRunShape_ok.1 h
  obtain ⟨rfl, -, -⟩ := shape_ok.1 hshape
  refine validateRunShape_ok.2 ⟨_, shape_sorted hshape hd.fields.1, ?_, ?_, ?_, ?_⟩
  · rw [listField_ordered hd.fields.1, List.length_map]
    exact hsteps
  · rw [listField_ordered hd.fields.1, List.length_map]
    exact hartifacts
  · rw [listField_ordered hd.fields.1]
    intro step hmem
    obtain ⟨item, hitem, rfl⟩ := List.mem_map.1 hmem
    exact HasShape.sorted (hstep item hitem) (hd.items item hitem)
  · rw [listField_ordered hd.fields.1]
    intro artifact hmem
    obtain ⟨item, hitem, rfl⟩ := List.mem_map.1 hmem
    exact HasShape.sorted (hartifact item hitem) (hd.items item hitem)

theorem validateRuntimeShape_ok {value : Value Binary64} {u : Unit} :
    validateRuntimeShape value = .ok u ↔ value = .null ∨ ∃ items, shape value runtimeShape = .ok items := by
  unfold validateRuntimeShape
  split
  · exact ⟨fun _ => .inl rfl, fun _ => rfl⟩
  · rename_i hsome
    constructor
    · intro h
      obtain ⟨items, hitems, -⟩ := except_bind_ok.1 h
      exact .inr ⟨items, hitems⟩
    · rintro (hnull | ⟨items, hitems⟩)
      · exact (hsome hnull).elim
      · exact except_bind_ok.2 ⟨items, hitems, rfl⟩

theorem validateReportShape_ok {payload : Value Binary64} {u : Unit} :
    validateReportShape payload = .ok u ↔ ∃ report, shape payload reportShape = .ok report ∧
      (∀ name ∈ ["phases", "preflight_checks"], validateTexts (listField report name) = .ok ()) ∧
      (listField report "runs").length ≤ maxRuns ∧
      validateRuntimeShape ((getField report "runtime").getD .null) = .ok () ∧
      ∀ run ∈ listField report "runs", validateRunShape run = .ok () := by
  unfold validateReportShape
  simp only [except_bind_ok, except_forM_ok, require, ensure_ok, decide_eq_true_eq]
  constructor
  · rintro ⟨report, hreport, _, htexts, _, hruns, _, hruntime, hrun⟩
    exact ⟨report, hreport, htexts, hruns, hruntime, hrun⟩
  · rintro ⟨report, hreport, htexts, hruns, hruntime, hrun⟩
    exact ⟨report, hreport, (), htexts, (), hruns, (), hruntime, hrun⟩

/-- **A report that has the shape keeps it when its keys are sorted.** -/
theorem validateReportShape_sorted {payload : Value Binary64} (h : validateReportShape payload = .ok ())
    (hd : DistinctKeys payload) : validateReportShape (sorted payload) = .ok () := by
  obtain ⟨report, hshape, htexts, hruns, hruntime, hrun⟩ := validateReportShape_ok.1 h
  obtain ⟨rfl, -, -⟩ := shape_ok.1 hshape
  refine validateReportShape_ok.2 ⟨_, shape_sorted hshape hd.fields.1, ?_, ?_, ?_, ?_⟩
  · intro name hname
    rw [listField_ordered hd.fields.1]
    obtain ⟨hlength, hstr⟩ := validateTexts_ok.1 (htexts name hname)
    refine validateTexts_ok.2 ⟨by rw [List.length_map]; exact hlength, fun item hmem => ?_⟩
    obtain ⟨v, hv, rfl⟩ := List.mem_map.1 hmem
    rw [typeOf_sorted]
    exact hstr v hv
  · rw [listField_ordered hd.fields.1, List.length_map]
    exact hruns
  · rw [getField_ordered hd.fields.1]
    cases hfield : getField report "runtime" with
    | none => exact validateRuntimeShape_ok.2 (.inl rfl)
    | some v =>
      rw [hfield] at hruntime
      refine validateRuntimeShape_ok.2 ?_
      rcases validateRuntimeShape_ok.1 hruntime with hnull | hitems
      · exact .inl (by rw [Option.map_some, Option.getD_some, show v = .null from hnull]; rfl)
      · exact .inr (HasShape.sorted hitems (hd.fields.2 _ ((getField_some_iff hd.fields.1).1 hfield)))
  · rw [listField_ordered hd.fields.1]
    intro run hmem
    obtain ⟨item, hitem, rfl⟩ := List.mem_map.1 hmem
    exact validateRunShape_sorted (hrun item hitem) (hd.items item hitem)

/-! ## Readable records -/

/-- The numbers of a report that are floats. -/
def StepSummary.floats (s : StepSummary) : List Binary64 :=
  match s.durationSeconds with
  | .int _ => []
  | .float x => [x]

def OperatorLifecycleReport.floats (r : OperatorLifecycleReport) : List Binary64 :=
  r.runs.flatMap fun run => run.steps.flatMap StepSummary.floats

/-- `float.__repr__` writes an ASCII text that `float` reads as the number. -/
structure WritesFloats (I : Interpreter) (floatRepr : Binary64 → List Char) (xs : List Binary64) : Prop where
  ascii : ∀ x, ∀ c ∈ floatRepr x, c.toNat < 128
  reads : ∀ x ∈ xs, ReadsFloat (recordDecoder I) (recordEncoder floatRepr) x

section readable

theorem writableItems_iff {items : List (Value Binary64)} :
    writableItems items = true ↔ ∀ item ∈ items, writable item = true := by
  induction items with
  | nil => simp [writableItems]
  | cons item items ih => rw [writableItems, Bool.and_eq_true, ih, List.forall_mem_cons]

theorem writableFields_iff {fields : List (String × Value Binary64)} :
    writableFields fields = true ↔ ∀ f ∈ fields, writable f.2 = true := by
  induction fields with
  | nil => simp [writableFields]
  | cons field fields ih => rw [writableFields, Bool.and_eq_true, ih, List.forall_mem_cons]

variable {limit : ℕ}

/-- A mapping is readable if its keys are distinct and its values are readable. -/
theorem readable_obj {fields : List (String × Value Binary64)} (hkeys : (fields.map Prod.fst).Nodup)
    (h : ∀ f ∈ fields, JsonText.Readable (recordDecoder I) (recordEncoder floatRepr) limit f.2) :
    JsonText.Readable (recordDecoder I) (recordEncoder floatRepr) (limit + 1) (.obj fields) :=
  .obj (JsonText.distinctPairs_ok.2 ⟨rfl, hkeys⟩) h

theorem readable_map {α : Type} {payload : α → Value Binary64} {xs : List α}
    (h : ∀ x ∈ xs, JsonText.Readable (recordDecoder I) (recordEncoder floatRepr) limit (payload x)) :
    JsonText.Readable (recordDecoder I) (recordEncoder floatRepr) (limit + 1) (.arr (xs.map payload)) := by
  refine .arr fun item hitem => ?_
  obtain ⟨x, hx, rfl⟩ := List.mem_map.1 hitem
  exact h x hx

theorem readable_texts (values : List String) :
    JsonText.Readable (recordDecoder I) (recordEncoder floatRepr) (limit + 1) (texts values) :=
  readable_map fun t _ => .str t

theorem writable_field {fields : List (String × Value Binary64)} (h : writable (.obj fields) = true) :
    ∀ f ∈ fields, writable f.2 = true := writableFields_iff.1 h

theorem writable_map {α : Type} {payload : α → Value Binary64} {xs : List α}
    (h : writable (.arr (xs.map payload)) = true) :
    ∀ x ∈ xs, writable (payload x) = true := fun _ hx => writableItems_iff.1 h _ (List.mem_map_of_mem hx)

/-- A value that is neither a list nor a mapping nor a float. -/
def Plain : Value Binary64 → Prop
  | .arr _ | .obj _ | .float _ => False
  | _ => True

theorem readable_plain {v : Value Binary64} (hv : Plain v) (h : writable v = true) :
    JsonText.Readable (recordDecoder I) (recordEncoder floatRepr) limit v := by
  cases v with
  | null => exact .null
  | bool b => exact .bool b
  | int i => exact .int (of_decide_eq_true h)
  | str s => exact .str s
  | float x => exact hv.elim
  | arr items => exact hv.elim
  | obj fields => exact hv.elim

@[simp] theorem plain_bool (b : Bool) : Plain (.bool b) := trivial

@[simp] theorem plain_int (i : ℤ) : Plain (.int i) := trivial

@[simp] theorem plain_str (s : String) : Plain (.str s) := trivial

@[simp] theorem plain_optionalInt (i : Option ℤ) : Plain (optionalInt i) := by cases i <;> trivial

@[simp] theorem plain_optionalStr (s : Option String) : Plain (optionalStr s) := by cases s <;> trivial

theorem RuntimeSummary.plain (s : RuntimeSummary) : ∀ f ∈ s.fields, Plain f.2 := by simp [RuntimeSummary.fields]

theorem ArtifactSummary.plain (a : ArtifactSummary) :
    ∀ f ∈ a.fields, Plain f.2 := by simp [ArtifactSummary.fields]

theorem StepSummary.plain (s : StepSummary) : ∀ f ∈ s.fields, Plain f.2 ∨ f.2 = s.durationSeconds.payload := by
  simp [StepSummary.fields]

/-- The fields of a run: its lists, and plain values. -/
theorem RunSummary.cases (r : RunSummary) : ∀ f ∈ r.fields, f.1 ∉ runLists ∧ Plain f.2 ∨
    f = ("steps", .arr (r.steps.map StepSummary.payload)) ∨
    f = ("artifacts", .arr (r.artifacts.map ArtifactSummary.payload)) := by
  simp [RunSummary.fields, runLists]

/-- The fields of a report: its records, and plain values or lists of texts. -/
theorem OperatorLifecycleReport.cases (r : OperatorLifecycleReport) : ∀ f ∈ r.fields,
    f.1 ∉ reportRecords ∧ (Plain f.2 ∨ ∃ values, f.2 = texts values) ∨
    f = ("runtime", r.runtime.elim .null RuntimeSummary.payload) ∨ f = ("runs", .arr (r.runs.map RunSummary.payload)) := by
  simp [OperatorLifecycleReport.fields, reportRecords]

theorem RuntimeSummary.readable {s : RuntimeSummary} (h : writable s.payload = true) :
    JsonText.Readable (recordDecoder I) (recordEncoder floatRepr) (limit + 1) s.payload :=
  readable_obj s.fields_nodup fun f hf => readable_plain (s.plain f hf) (writable_field h f hf)

theorem ArtifactSummary.readable {a : ArtifactSummary} (h : writable a.payload = true) :
    JsonText.Readable (recordDecoder I) (recordEncoder floatRepr) (limit + 1) a.payload :=
  readable_obj a.fields_nodup fun f hf => readable_plain (a.plain f hf) (writable_field h f hf)

theorem StepSummary.readable {s : StepSummary} (h : writable s.payload = true)
    (hfloats : WritesFloats I floatRepr s.floats) :
    JsonText.Readable (recordDecoder I) (recordEncoder floatRepr) (limit + 1) s.payload := by
  refine readable_obj s.fields_nodup fun f hf => ?_
  have hwritable := writable_field h f hf
  rcases s.plain f hf with hplain | hduration
  · exact readable_plain hplain hwritable
  · rw [hduration] at hwritable ⊢
    have hreads := hfloats.reads
    unfold StepSummary.floats at hreads
    cases hd : s.durationSeconds with
    | int i =>
      rw [hd] at hwritable
      exact readable_plain trivial hwritable
    | float x =>
      rw [hd] at hreads
      exact .float (hreads x List.mem_cons_self)

theorem WritesFloats.mono {xs ys : List Binary64} (h : WritesFloats I floatRepr ys) (hsub : ∀ x ∈ xs, x ∈ ys) :
    WritesFloats I floatRepr xs := ⟨h.ascii, fun x hx => h.reads x (hsub x hx)⟩

theorem RunSummary.readable {r : RunSummary} (h : writable r.payload = true)
    (hfloats : WritesFloats I floatRepr (r.steps.flatMap StepSummary.floats)) :
    JsonText.Readable (recordDecoder I) (recordEncoder floatRepr) (limit + 3) r.payload := by
  refine readable_obj r.fields_nodup fun f hf => ?_
  have hwritable := writable_field h f hf
  rcases r.cases f hf with ⟨-, hplain⟩ | rfl | rfl
  · exact readable_plain hplain hwritable
  · dsimp only at hwritable ⊢
    refine readable_map fun s hs => StepSummary.readable (writable_map hwritable s hs) (hfloats.mono fun x hx => ?_)
    exact List.mem_flatMap.2 ⟨s, hs, hx⟩
  · exact readable_map fun a ha => ArtifactSummary.readable (writable_map hwritable a ha)

theorem OperatorLifecycleReport.readable {r : OperatorLifecycleReport} (h : writable r.payload = true)
    (hfloats : WritesFloats I floatRepr r.floats) :
    JsonText.Readable (recordDecoder I) (recordEncoder floatRepr) (limit + 5) r.payload := by
  refine readable_obj r.fields_nodup fun f hf => ?_
  have hwritable := writable_field h f hf
  rcases r.cases f hf with ⟨-, hplain | ⟨values, hvalues⟩⟩ | rfl | rfl
  · exact readable_plain hplain hwritable
  · rw [hvalues]
    exact readable_texts values
  · dsimp only at hwritable ⊢
    cases hsome : r.runtime with
    | none => exact .null
    | some s =>
      rw [hsome] at hwritable
      exact RuntimeSummary.readable hwritable
  · refine readable_map fun run hrun => RunSummary.readable (writable_map hwritable run hrun) (hfloats.mono fun x hx => ?_)
    exact List.mem_flatMap.2 ⟨run, hrun, hx⟩

end readable

end Operator

end Switchboard
