import Switchboard.Proof.OperatorReports

/-!
# Inspected reports are written again as they were stored

An inspection accepts a payload that somebody else has written: its keys may stand in any order. What it builds from it
is written as the same mapping.

* `restores_record`: a record that was read field by field is written with the fields that it was read from.
* `inspect_reencodes`: what is inspected is written as the mapping that was stored.
-/

namespace Switchboard

open Transaction
open JsonText (Value sorted orderedFields sorted_obj sorted_arr ReadsFloat Decoded)

namespace Operator

variable {I : Interpreter} {P : Platform} {floatRepr : Binary64 → List Char}

/-! ## What is read -/

theorem decoded_readRecord {data : Bytes} {maximum : ℕ} {v : Value Binary64}
    (h : readRecord I data maximum = .ok v) :
    Decoded (recordDecoder I) v := by
  obtain ⟨_, _, h⟩ := except_bind_ok.1 h
  cases hstrict : Utf8.strict data with
  | none =>
    rw [hstrict] at h
    cases h
  | some text =>
    rw [hstrict] at h
    cases hloads : JsonText.loads (recordDecoder I) text with
    | error e =>
      simp only [hloads] at h
      cases h
    | ok w =>
      simp only [hloads] at h
      obtain rfl := Except.ok.inj h
      exact JsonText.decoded_loads hloads

theorem decoded_fields {fields : List (String × Value Binary64)} (h : Decoded (recordDecoder I) (.obj fields)) :
    (fields.map Prod.fst).Nodup ∧ ∀ f ∈ fields, Decoded (recordDecoder I) f.2 := by
  cases h with
  | obj hpairs h =>
    obtain ⟨rfl, hnodup⟩ := JsonText.distinctPairs_ok.1 hpairs
    exact ⟨hnodup, h⟩

theorem decoded_items {items : List (Value Binary64)} (h : Decoded (recordDecoder I) (.arr items)) :
    ∀ item ∈ items, Decoded (recordDecoder I) item := by
  cases h with
  | arr h => exact h

theorem decoded_field {fields : List (String × Value Binary64)} {name : String} {v : Value Binary64}
    (h : Decoded (recordDecoder I) (.obj fields)) (hv : getField fields name = some v) : Decoded (recordDecoder I) v :=
  (decoded_fields h).2 _ ((getField_some_iff (decoded_fields h).1).1 hv)

/-! ## What is written again -/

/-- A payload can be written, and what is read of it equals a value. -/
structure Restores (payload v : Value Binary64) : Prop where
  writable : writable payload = true
  same : sameValue (sorted payload) v = true

mutual

theorem writable_of_decoded : ∀ v : Value Binary64, Decoded (recordDecoder I) v → writable v = true
  | .null, _ | .bool _, _ | .float _, _ | .str _, _ => rfl
  | .int i, h => by
    cases h with
    | int h => exact decide_eq_true h
  | .arr items, h => writableItems_of_decoded items (decoded_items h)
  | .obj fields, h => writableFields_of_decoded fields (decoded_fields h).2

theorem writableItems_of_decoded : ∀ items : List (Value Binary64),
    (∀ item ∈ items, Decoded (recordDecoder I) item) → writableItems items = true
  | [], _ => rfl
  | item :: items, h => by
    rw [writableItems, writable_of_decoded item (h item List.mem_cons_self),
      writableItems_of_decoded items fun x hx => h x (List.mem_cons_of_mem _ hx)]
    rfl

theorem writableFields_of_decoded : ∀ fields : List (String × Value Binary64),
    (∀ f ∈ fields, Decoded (recordDecoder I) f.2) → writableFields fields = true
  | [], _ => rfl
  | (name, v) :: fields, h => by
    rw [writableFields, writable_of_decoded v (h (name, v) List.mem_cons_self),
      writableFields_of_decoded fields fun x hx => h x (List.mem_cons_of_mem _ hx)]
    rfl

end

/-- Two mappings with the same distinct keys are of one length. -/
theorem length_of_hasKeys {as bs : List (String × Value Binary64)} {names : List String}
    (ha : (as.map Prod.fst).Nodup)
    (hb : (bs.map Prod.fst).Nodup) (hkeys : hasKeys as names = true) (hkeys' : hasKeys bs names = true) :
    as.length = bs.length := by
  have hsubset : ∀ {cs ds : List (String × Value Binary64)}, hasKeys cs names = true → hasKeys ds names = true →
      cs.map Prod.fst ⊆ ds.map Prod.fst := by
    intro cs ds hcs hds name hname
    obtain ⟨f, hf, rfl⟩ := List.mem_map.1 hname
    unfold hasKeys at hcs hds
    rw [Bool.and_eq_true, List.all_eq_true, List.all_eq_true] at hcs hds
    have hmem := of_decide_eq_true (hcs.1 f hf)
    obtain ⟨g, hg, hsame⟩ := List.any_eq_true.1 (hds.2 f.1 hmem)
    exact List.mem_map.2 ⟨g, hg, beq_iff_eq.1 hsame⟩
  have hle := (List.subperm_of_subset ha (hsubset hkeys hkeys')).length_le
  have hge := (List.subperm_of_subset hb (hsubset hkeys' hkeys)).length_le
  rw [List.length_map, List.length_map] at hle hge
  omega

/-- **A record that was read field by field is written with the fields that it was read from.** -/
theorem restores_record {fields record : List (String × Value Binary64)} {keys : List String}
    (names : List String)
    (hrecord : (record.map Prod.fst).Nodup) (hdecoded : Decoded (recordDecoder I) (.obj fields))
    (hkeys : hasKeys fields keys = true) (hkeys' : hasKeys record keys = true)
    (hflat : ∀ f ∈ record, f.1 ∉ names → getField fields f.1 = some f.2 ∧ sameValue (sorted f.2) f.2 = true)
    (hrest : ∀ f ∈ record, f.1 ∈ names → ∃ v, getField fields f.1 = some v ∧ Restores f.2 v) :
    Restores (.obj record) (.obj fields) := by
  have hfield : ∀ f ∈ record, ∃ v, getField fields f.1 = some v ∧ Restores f.2 v := by
    intro f hf
    by_cases hname : f.1 ∈ names
    · exact hrest f hf hname
    · obtain ⟨hget, hsame⟩ := hflat f hf hname
      exact ⟨f.2, hget, writable_of_decoded _ (decoded_field hdecoded hget), hsame⟩
  have hperm := JsonText.orderedFields_perm record
  constructor
  · rw [Operator.writable, writableFields_iff]
    intro f hf
    obtain ⟨v, -, hrestores⟩ := hfield f hf
    exact hrestores.writable
  · rw [sorted_obj, sameValue, Bool.and_eq_true, beq_iff_eq, sameFields_iff]
    constructor
    · rw [hperm.length_eq, List.length_map]
      exact length_of_hasKeys hrecord (decoded_fields hdecoded).1 hkeys' hkeys
    · intro f hf
      obtain ⟨g, hg, rfl⟩ := List.mem_map.1 (hperm.mem_iff.1 hf)
      obtain ⟨v, hv, hrestores⟩ := hfield g hg
      exact ⟨v, hv, hrestores.same⟩

/-- A list of records that were read one by one is written as the list that they were read from. -/
theorem restores_items {α : Type} {read : Value Binary64 → Option α} {payload : α → Value Binary64}
    {items : List (Value Binary64)} {xs : List α} (h : items.mapM read = some xs)
    (hitem : ∀ item ∈ items, ∀ x ∈ xs, read item = some x → Restores (payload x) item) :
    Restores (.arr (xs.map payload)) (.arr items) := by
  have hpair : ∀ (items : List (Value Binary64)) (xs : List α), items.mapM read = some xs →
      (∀ item ∈ items, ∀ x ∈ xs, read item = some x → Restores (payload x) item) →
      (∀ x ∈ xs, writable (payload x) = true) ∧ sameValues ((xs.map payload).map sorted) items = true := by
    intro items
    induction items with
    | nil =>
      intro xs hread _
      obtain rfl : [] = xs := Option.some.inj hread
      exact ⟨by simp, rfl⟩
    | cons item items ih =>
      intro xs hread hrestores
      obtain ⟨x, hx, hread⟩ := Option.bind_eq_some_iff.1 (by rwa [List.mapM_cons] at hread)
      obtain ⟨rest, hrest, hread⟩ := Option.bind_eq_some_iff.1 hread
      obtain rfl := Option.some.inj hread
      have hfirst := hrestores item List.mem_cons_self x List.mem_cons_self hx
      obtain ⟨hwritable, hsame⟩ := ih rest hrest fun i hi y hy =>
        hrestores i (List.mem_cons_of_mem _ hi) y (List.mem_cons_of_mem _ hy)
      refine ⟨List.forall_mem_cons.2 ⟨hfirst.writable, hwritable⟩, ?_⟩
      rw [List.map_cons, List.map_cons, sameValues, hfirst.same, hsame]
      rfl
  obtain ⟨hwritable, hsame⟩ := hpair items xs h hitem
  constructor
  · rw [Operator.writable, writableItems_iff]
    intro v hv
    obtain ⟨x, hx, rfl⟩ := List.mem_map.1 hv
    exact hwritable x hx
  · rw [sorted_arr, sameValue]
    exact hsame

/-! ## Public numbers -/

theorem validatePublicItems_ok {depth : ℕ} {items : List (Value Binary64)} {u : Unit}
    (h : validatePublicItems P depth items = .ok u) : ∀ item ∈ items, validatePublicValue P depth item = .ok () := by
  induction items with
  | nil => simp
  | cons item items ih =>
    rw [validatePublicItems] at h
    obtain ⟨_, hitem, h⟩ := except_bind_ok.1 h
    exact List.forall_mem_cons.2 ⟨hitem, ih h⟩

theorem validatePublicFields_ok {depth : ℕ} {fields : List (String × Value Binary64)} {u : Unit}
    (h : validatePublicFields P depth fields = .ok u) : ∀ f ∈ fields, validatePublicValue P depth f.2 = .ok () := by
  induction fields with
  | nil => simp
  | cons f fields ih =>
    obtain ⟨name, v⟩ := f
    rw [validatePublicFields] at h
    obtain ⟨_, _, h⟩ := except_bind_ok.1 h
    obtain ⟨_, hv, h⟩ := except_bind_ok.1 h
    exact List.forall_mem_cons.2 ⟨hv, ih h⟩

theorem public_obj {depth : ℕ} {fields : List (String × Value Binary64)} {u : Unit}
    (h : validatePublicValue P depth (.obj fields) = .ok u) :
    ∀ f ∈ fields, validatePublicValue P (depth + 1) f.2 = .ok () := by
  rw [validatePublicValue] at h
  obtain ⟨_, _, h⟩ := except_bind_ok.1 h
  obtain ⟨_, _, h⟩ := except_bind_ok.1 h
  exact validatePublicFields_ok h

theorem public_arr {depth : ℕ} {items : List (Value Binary64)} {u : Unit}
    (h : validatePublicValue P depth (.arr items) = .ok u) :
    ∀ item ∈ items, validatePublicValue P (depth + 1) item = .ok () := by
  rw [validatePublicValue] at h
  obtain ⟨_, _, h⟩ := except_bind_ok.1 h
  obtain ⟨_, _, h⟩ := except_bind_ok.1 h
  exact validatePublicItems_ok h

/-- A public number equals itself: it is not a NaN. -/
theorem sameValue_public {depth : ℕ} {x : Binary64} {u : Unit}
    (h : validatePublicValue P depth (.float x) = .ok u) :
    sameValue (.float x) (.float x) = true := by
  rw [validatePublicValue] at h
  obtain ⟨_, _, h⟩ := except_bind_ok.1 h
  have hfinite := of_decide_eq_true (ensure_ok.1 h)
  cases x with
  | finite q => simp [sameValue, equalsNumber]
  | infinity negative => exact (hfinite.2 negative rfl).elim
  | nan => exact (hfinite.1 rfl).elim

/-! ## Records -/

theorem sorted_plain {v : Value Binary64} (h : Plain v) : sameValue (sorted v) v = true := by
  have hsorted : sorted v = v := by
    cases v with
    | arr items => exact h.elim
    | obj fields => exact h.elim
    | _ => rfl
  rw [hsorted]
  exact sameValue_plain h

theorem sameValues_texts (values : List String) : sameValues (values.map .str) (values.map .str) = true := by
  induction values with
  | nil => rfl
  | cons t values ih => rw [List.map_cons, sameValues, sameValue_plain (plain_str t), ih]; rfl

theorem StepSummary.fields_keys (s : StepSummary) : hasKeys s.fields (stepShape.map Prod.fst) = true := by
  simp [hasKeys, StepSummary.fields, stepShape]

theorem ArtifactSummary.fields_keys (a : ArtifactSummary) :
    hasKeys a.fields (artifactShape.map Prod.fst) = true := by
  simp [hasKeys, ArtifactSummary.fields, artifactShape]

theorem RunSummary.fields_keys (r : RunSummary) : hasKeys r.fields (runShape.map Prod.fst) = true := by
  simp [hasKeys, RunSummary.fields, runShape, fromKeys, runFlags]

theorem OperatorLifecycleReport.fields_keys (r : OperatorLifecycleReport) :
    hasKeys r.fields (reportShape.map Prod.fst) = true := by
  simp [hasKeys, OperatorLifecycleReport.fields, reportShape, fromKeys, reportFlags]

theorem StepSummary.restores {s : StepSummary} {v : Value Binary64} {depth : ℕ} {u : Unit}
    (hread : StepSummary.ofValue v = some s) (hdecoded : Decoded (recordDecoder I) v)
    (hshape : ∃ items, shape v stepShape = .ok items) (hpublic : validatePublicValue P depth s.payload = .ok u) :
    Restores s.payload v := by
  obtain ⟨fields, hfields⟩ := hshape
  obtain ⟨rfl, hkeys, -⟩ := shape_ok.1 hfields
  refine restores_record [] s.fields_nodup hdecoded hkeys s.fields_keys (fun f hf hname => ?_) ?_
  · refine ⟨StepSummary.ofValue_iff.1 hread f hf hname, ?_⟩
    rw [s.flat f hf hname]
    rcases s.plain f hf with hplain | hduration
    · exact sameValue_plain hplain
    · have hvalue := public_obj hpublic f hf
      rw [hduration] at hvalue ⊢
      cases hd : s.durationSeconds with
      | int i => exact sameValue_plain (plain_int i)
      | float x =>
        rw [hd] at hvalue
        exact sameValue_public hvalue
  · simp

theorem ArtifactSummary.restores {a : ArtifactSummary} {v : Value Binary64}
    (hread : ArtifactSummary.ofValue v = some a)
    (hdecoded : Decoded (recordDecoder I) v) (hshape : ∃ items, shape v artifactShape = .ok items) :
    Restores a.payload v := by
  obtain ⟨fields, hfields⟩ := hshape
  obtain ⟨rfl, hkeys, -⟩ := shape_ok.1 hfields
  refine restores_record [] a.fields_nodup hdecoded hkeys a.fields_keys (fun f hf hname => ?_) ?_
  · exact ⟨ArtifactSummary.ofValue_iff.1 hread f hf hname, sorted_plain (a.plain f hf)⟩
  · simp

theorem listField_arr {fields : List (String × Value Binary64)} {name : String} {items : List (Value Binary64)}
    (h : getField fields name = some (.arr items)) : listField fields name = items := by
  unfold listField
  rw [h]

theorem RunSummary.restores {r : RunSummary} {v : Value Binary64} {depth : ℕ} {u u' : Unit}
    (hread : RunSummary.ofValue v = some r) (hdecoded : Decoded (recordDecoder I) v)
    (hshape : validateRunShape v = .ok u) (hpublic : validatePublicValue P depth r.payload = .ok u') :
    Restores r.payload v := by
  obtain ⟨fields, hfields, -, -, hstep, hartifact⟩ := validateRunShape_ok.1 hshape
  obtain ⟨rfl, hkeys, -⟩ := shape_ok.1 hfields
  obtain ⟨hholds, ⟨steps, hsteps, hreadsteps⟩, artifacts, hartifacts, hreadartifacts⟩ := RunSummary.ofValue_iff.1 hread
  rw [listField_arr hsteps] at hstep
  rw [listField_arr hartifacts] at hartifact
  refine restores_record runLists r.fields_nodup hdecoded hkeys r.fields_keys (fun f hf hname => ?_) fun f hf hname => ?_
  · refine ⟨hholds f hf hname, ?_⟩
    rcases r.cases f hf with ⟨-, hplain⟩ | rfl | rfl
    · exact sorted_plain hplain
    · exact (hname (by simp [runLists])).elim
    · exact (hname (by simp [runLists])).elim
  · rcases r.cases f hf with ⟨hother, -⟩ | rfl | rfl
    · exact (hother hname).elim
    · refine ⟨_, hsteps, restores_items hreadsteps fun item hitem s hs hitemread => ?_⟩
      have hvalue := public_arr (public_obj hpublic _ hf) _ (List.mem_map_of_mem hs)
      exact StepSummary.restores hitemread (decoded_items (decoded_field hdecoded hsteps) item hitem) (hstep item hitem)
        hvalue
    · refine ⟨_, hartifacts, restores_items hreadartifacts fun item hitem a _ hitemread => ?_⟩
      exact ArtifactSummary.restores hitemread (decoded_items (decoded_field hdecoded hartifacts) item hitem)
        (hartifact item hitem)

/-- Values of one type that are equal are the same, if they are no numbers but integers. -/
theorem eq_of_sameValue {v w : Value Binary64} (hsame : sameValue v w = true) (htype : typeOf v = typeOf w)
    (hw : typeOf w = .int ∨ typeOf w = .str) : v = w := by
  cases w with
  | int i =>
    cases v with
    | int j =>
      rw [sameValue, equalsNumber, beq_iff_eq, Int.cast_inj] at hsame
      rw [hsame]
    | _ => cases htype
  | str t =>
    cases v with
    | str t' =>
      rw [sameValue, beq_iff_eq] at hsame
      rw [hsame]
    | _ => cases htype
  | _ => rcases hw with hw | hw <;> cases hw

/-- The stored runtime that equals a summary holds its fields. -/
theorem RuntimeSummary.holds_of_same {s : RuntimeSummary} {v : Value Binary64}
    (hdistinct : Decoded (recordDecoder I) v)
    (hshape : validateRuntimeShape v = .ok ()) (hsame : sameValue v s.payload = true) :
    ∃ fields, v = .obj fields ∧ hasKeys fields (runtimeShape.map Prod.fst) = true ∧ Holds fields s.fields [] := by
  rcases validateRuntimeShape_ok.1 hshape with rfl | ⟨fields, hfields⟩
  · cases hsame
  · obtain ⟨rfl, hkeys, htypes⟩ := shape_ok.1 hfields
    refine ⟨fields, rfl, hkeys, fun f hf _ => ?_⟩
    have hnamed : ∀ f ∈ s.fields, (f.1, [typeOf f.2]) ∈ runtimeShape ∧ (typeOf f.2 = .int ∨ typeOf f.2 = .str) := by
      simp [RuntimeSummary.fields, runtimeShape, fromKeys, typeOf]
    obtain ⟨w, hw, htype⟩ := htypes _ (hnamed f hf).1
    rw [RuntimeSummary.payload, sameValue, Bool.and_eq_true, sameFields_iff] at hsame
    obtain ⟨b, hb, hequal⟩ := hsame.2 (f.1, w) ((getField_some_iff (decoded_fields hdistinct).1).1 hw)
    rw [(getField_some_iff s.fields_nodup).2 hf] at hb
    obtain rfl := Option.some.inj hb
    have hvalue : w = f.2 := eq_of_sameValue hequal (List.mem_singleton.1 htype) (hnamed f hf).2
    rw [hw, hvalue]

theorem RuntimeSummary.restores {s : RuntimeSummary} {v : Value Binary64}
    (hdecoded : Decoded (recordDecoder I) v)
    (hshape : validateRuntimeShape v = .ok ()) (hsame : sameValue v s.payload = true) : Restores s.payload v := by
  obtain ⟨fields, rfl, hkeys, hholds⟩ := RuntimeSummary.holds_of_same hdecoded hshape hsame
  refine restores_record [] s.fields_nodup hdecoded hkeys s.fields_keys (fun f hf hname => ?_) ?_
  · exact ⟨hholds f hf hname, sorted_plain (s.plain f hf)⟩
  · simp

/-- **A stored report is written as the mapping that it was built from.** -/
theorem OperatorLifecycleReport.restores {r : OperatorLifecycleReport} {summary : RuntimeSummary}
    {fields : List (String × Value Binary64)} (hread : OperatorLifecycleReport.ofFields summary fields = some r)
    (hdecoded : Decoded (recordDecoder I) (.obj fields)) (hshape : validateReportShape (.obj fields) = .ok ())
    (hruntime : sameValue ((getField fields "runtime").getD .null) summary.payload = true)
    (hpublic : validatePublicValue P 0 r.payload = .ok ()) : Restores r.payload (.obj fields) := by
  obtain ⟨report, hreport, -, -, hruntimeShape, hrun⟩ := validateReportShape_ok.1 hshape
  obtain ⟨heq, hkeys, htypes⟩ := shape_ok.1 hreport
  obtain rfl := Value.obj.inj heq
  obtain ⟨hsummary, hholds, runs, hruns, hreadruns⟩ := OperatorLifecycleReport.ofFields_iff.1 hread
  rw [listField_arr hruns] at hrun
  refine restores_record reportRecords r.fields_nodup hdecoded hkeys r.fields_keys (fun f hf hname => ?_)
    fun f hf hname => ?_
  · refine ⟨hholds f hf hname, ?_⟩
    rcases r.cases f hf with ⟨-, hplain | ⟨values, hvalues⟩⟩ | rfl | rfl
    · exact sorted_plain hplain
    · rw [hvalues, sorted_texts]
      exact sameValues_texts values
    · exact (hname (by simp [reportRecords])).elim
    · exact (hname (by simp [reportRecords])).elim
  · rcases r.cases f hf with ⟨hother, -⟩ | rfl | rfl
    · exact (hother hname).elim
    · obtain ⟨v, hv, -⟩ := htypes ("runtime", [.dict, .none]) (by simp [reportShape])
      rw [hv] at hruntime hruntimeShape
      refine ⟨v, hv, ?_⟩
      rw [hsummary]
      exact RuntimeSummary.restores (decoded_field hdecoded hv) hruntimeShape hruntime
    · refine ⟨_, hruns, restores_items hreadruns fun item hitem run hmem hitemread => ?_⟩
      have hvalue := public_arr (public_obj hpublic _ hf) _ (List.mem_map_of_mem hmem)
      exact RunSummary.restores hitemread (decoded_items (decoded_field hdecoded hruns) item hitem) (hrun item hitem) hvalue

/-- What an inspection has checked of a stored payload. -/
theorem storedReport_ok {summary : RuntimeSummary} {fields : List (String × Value Binary64)}
    {r : OperatorLifecycleReport}
    (h : storedReport P summary fields = .ok r) : OperatorLifecycleReport.ofFields summary fields = some r ∧
      sameValue ((getField fields "runtime").getD .null) summary.payload = true ∧
      validateReportShape (.obj fields) = .ok () ∧ r.asDict P = .ok r.payload := by
  unfold storedReport at h
  obtain ⟨_, _, h⟩ := except_bind_ok.1 h
  obtain ⟨_, hsame, h⟩ := except_bind_ok.1 h
  obtain ⟨_, hshape, h⟩ := except_bind_ok.1 h
  cases hread : OperatorLifecycleReport.ofFields summary fields with
  | none =>
    rw [hread] at h
    cases h
  | some report =>
    rw [hread] at h
    obtain ⟨payload, hdict, h⟩ := except_bind_ok.1 h
    obtain rfl := Except.ok.inj h
    have hpayload := (asDict_ok hdict).1
    exact ⟨rfl, ensure_ok.1 hsame, hshape, by rw [hdict, hpayload]⟩

/-- **What is inspected is written as the mapping that was stored.** -/
theorem inspect_reencodes {root : RuntimeRoot} {r : OperatorLifecycleReport} {data : Bytes}
    (hdepth : 5 ≤ I.recursionLimit) (hdata : root.reportJson = some data) (hfloats : WritesFloats I floatRepr r.floats)
    (h : inspectValidationRuntime I P root = .ok r) :
    ∃ stored encoded again, readRecord I data maxReportBytes = .ok stored ∧
      (∀ limit, encoded.length ≤ limit → r.asJsonBytes P floatRepr limit = .ok encoded) ∧
      readRecord I encoded encoded.length = .ok again ∧ sameValue again stored = true := by
  unfold inspectValidationRuntime at h
  obtain ⟨summary, _, h⟩ := except_bind_ok.1 h
  obtain ⟨payload, hpayload, h⟩ := except_bind_ok.1 h
  unfold readRuntimeReport at hpayload
  obtain ⟨_, _, hpayload⟩ := except_bind_ok.1 hpayload
  rw [hdata] at hpayload
  obtain ⟨stored, hstored, hpayload⟩ := except_bind_ok.1 hpayload
  cases stored with
  | obj fields =>
    obtain rfl := Except.ok.inj hpayload
    cases hreport : storedReport P summary fields with
    | error e =>
      simp only [hreport] at h
      cases h
    | ok report =>
      simp only [hreport] at h
      obtain rfl : report = r := Except.ok.inj h
      obtain ⟨hread, hruntime, hshape, hdict⟩ := storedReport_ok hreport
      obtain ⟨_, _, hpublic, _⟩ := asDict_ok hdict
      have hrestores := OperatorLifecycleReport.restores hread (decoded_readRecord hstored) hshape hruntime hpublic
      have hreadable := OperatorLifecycleReport.readable_payload hdepth hfloats hrestores.writable
      have hencoded : dumpsRecord floatRepr report.payload =
          .ok (encodeUtf8 (JsonText.print (recordEncoder floatRepr) (sorted report.payload))) :=
        except_bind_ok.2 ⟨(), ensure_ok.2 hrestores.writable, rfl⟩
      refine ⟨_, _, sorted report.payload, hstored, fun limit hlimit => ?_,
        readRecord_dumps hfloats hreadable hencoded le_rfl, hrestores.same⟩
      exact except_bind_ok.2 ⟨_, hdict, except_bind_ok.2 ⟨_, hencoded,
        except_bind_ok.2 ⟨(), ensure_ok.2 (decide_eq_true hlimit), rfl⟩⟩⟩
  | _ => cases hpayload

/-- The stored report of the sample is inspected as it is. -/
theorem sampleReport_inspected : ∃ root data, root.reportJson = some data ∧
    inspectValidationRuntime plainInterpreter asciiPlatform root = .ok sampleReport := by
  obtain ⟨root, data, hsummary, hdata, _, hread⟩ := sampleReport_stored
  have hreadable := OperatorLifecycleReport.readable_payload (by decide) sampleReport_floats sampleReport_writable
  exact ⟨root, data, hdata,
    inspect_stored rfl hsummary hdata hread sampleReport_dict (distinctKeys_of_readable hreadable)⟩

theorem inspect_reencodes_sample : ∃ root data, root.reportJson = some data ∧
    inspectValidationRuntime plainInterpreter asciiPlatform root = .ok sampleReport ∧
    ∃ stored encoded again, readRecord plainInterpreter data maxReportBytes = .ok stored ∧
      (∀ limit, encoded.length ≤ limit → sampleReport.asJsonBytes asciiPlatform zeroRepr limit = .ok encoded) ∧
      readRecord plainInterpreter encoded encoded.length = .ok again ∧ sameValue again stored = true := by
  obtain ⟨root, data, hdata, hinspect⟩ := sampleReport_inspected
  exact ⟨root, data, hdata, hinspect, inspect_reencodes (by decide) hdata sampleReport_floats hinspect⟩

end Operator

end Switchboard
