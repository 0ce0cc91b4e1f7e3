import Switchboard.Proof.Admission
import Switchboard.Proof.OperatorRecords
import Switchboard.Proof.PytestCounts

/-!
# Stored operator reports

What a lifecycle writes into its runtime is what an inspection reads: the sorted text of a report is decoded as the
sorted mapping, which passes the same checks and from which the same report is built.

* `createRuntime_ok`: the marker of a runtime is read as the summary that it was written from.
* `inspect_writeReport`: a report that was written is inspected as it is.
-/

namespace Switchboard

open Transaction
open JsonText (Value sorted orderedFields sorted_obj sorted_arr ReadsFloat)

namespace Operator

variable {I : Interpreter} {P : Platform} {floatRepr : Binary64 → List Char} {F : Type}

/-! ## What is written is read -/

theorem hexDigit_ascii {n : ℕ} (h : n < 16) : (hexDigit n).toNat < 128 := by
  have hall : ∀ n < 16, (hexDigit n).toNat < 128 := by decide
  exact hall n h

theorem unicodeEscape_ascii {n : ℕ} (h : n < 65536) : ∀ x ∈ unicodeEscape n, x.toNat < 128 := by
  simp only [unicodeEscape, List.forall_mem_cons]
  refine ⟨by decide, by decide, hexDigit_ascii (by omega), hexDigit_ascii (by omega), hexDigit_ascii (by omega),
    hexDigit_ascii (by omega), by simp⟩

theorem escapeChar_ascii {c : Char} (h : c.toNat < 127) : ∀ x ∈ escapeChar c, x.toNat < 128 := by
  unfold escapeChar
  split
  · exact JsonText.ascii_cons (by decide) (JsonText.ascii_cons (by omega) (by simp))
  split
  · rename_i hcontrol
    split
    · rename_i letter hletter
      have hascii : letter.toNat < 128 := by
        unfold escapeLetter at hletter
        split at hletter <;> cases hletter <;> decide
      exact JsonText.ascii_cons (by decide) (JsonText.ascii_cons hascii (by simp))
    · simp only [List.forall_mem_cons]
      exact ⟨by decide, by decide, by decide, by decide, hexDigit_ascii (by omega), hexDigit_ascii (by omega), by simp⟩
  · exact JsonText.ascii_cons (by omega) (by simp)

theorem escapeAscii_ascii (c : Char) : ∀ x ∈ escapeAscii c, x.toNat < 128 := by
  unfold escapeAscii
  split
  · rename_i h
    exact escapeChar_ascii h
  split
  · rename_i h
    exact unicodeEscape_ascii h
  · have hbound : c.toNat < 1114112 := by
      have hvalid := c.valid
      rcases hvalid with h | h
      · exact lt_of_lt_of_le h (by decide)
      · exact h.2
    exact JsonText.ascii_append (unicodeEscape_ascii (by omega)) (unicodeEscape_ascii (by omega))

theorem recordEncoder_ascii {xs : List Binary64} (h : WritesFloats I floatRepr xs) :
    JsonText.Ascii (recordEncoder floatRepr) := ⟨escapeAscii_ascii, h.ascii⟩

/-- **The record of a readable value is read as the sorted value.** -/
theorem readRecord_dumps {v : Value Binary64} {xs : List Binary64} {data : Bytes} {maximum : ℕ}
    (hfloats : WritesFloats I floatRepr xs)
    (hv : JsonText.Readable (recordDecoder I) (recordEncoder floatRepr) I.recursionLimit v)
    (hdata : dumpsRecord floatRepr v = .ok data) (hmaximum : data.length ≤ maximum) :
    readRecord I data maximum = .ok (sorted v) := by
  obtain ⟨_, -, heq⟩ := except_bind_ok.1 hdata
  obtain rfl := Except.ok.inj heq
  have hascii := JsonText.ascii_print (recordEncoder_ascii hfloats) (sorted v)
  have hloads := JsonText.loads_sorted (d := recordDecoder I) rfl readsBack_escapeAscii hv
  have hstrict := (JsonText.strict_ascii_text hascii).1
  refine except_bind_ok.2 ⟨(), ensure_ok.2 (decide_eq_true hmaximum), ?_⟩
  unfold encodeUtf8
  rw [hstrict]
  dsimp only
  rw [hloads]
  rfl

theorem asDict_ok {r : OperatorLifecycleReport} {payload : Value Binary64} (h : r.asDict P = .ok payload) :
    payload = r.payload ∧ validateReportShape r.payload = .ok () ∧ validatePublicValue P 0 r.payload = .ok () ∧
      (∀ run ∈ r.runs, validateRunSummary P run = .ok ()) ∧ validateReportState r = .ok () := by
  unfold OperatorLifecycleReport.asDict at h
  obtain ⟨_, hshape, h⟩ := except_bind_ok.1 h
  obtain ⟨_, _, h⟩ := except_bind_ok.1 h
  obtain ⟨_, hruns, h⟩ := except_bind_ok.1 h
  obtain ⟨_, hpublic, h⟩ := except_bind_ok.1 h
  obtain ⟨_, hstate, h⟩ := except_bind_ok.1 h
  exact ⟨(Except.ok.inj h).symm, hshape, hpublic, except_forM_ok.1 hruns, hstate⟩

theorem dumpsRecord_ok {v : Value Binary64} {data : Bytes} (h : dumpsRecord floatRepr v = .ok data) :
    writable v = true := by
  obtain ⟨_, hwritable, -⟩ := except_bind_ok.1 h
  exact ensure_ok.1 hwritable

theorem verifyRuntimeOwnership_ok {root : RuntimeRoot} {expected : RuntimeSummary} {u : Unit} :
    verifyRuntimeOwnership I root expected = .ok u ↔ readRuntimeSummary I root = .ok expected := by
  unfold verifyRuntimeOwnership
  split
  · rename_i current hcurrent
    rw [ensure_ok, decide_eq_true_eq, hcurrent]
    exact ⟨fun h => by rw [h], fun h => Except.ok.inj h⟩
  · rename_i hcurrent
    simp [hcurrent]

theorem sameFields_iff {as bs : List (String × Value Binary64)} :
    sameFields as bs = true ↔ ∀ f ∈ as, ∃ b, getField bs f.1 = some b ∧ sameValue f.2 b = true := by
  induction as with
  | nil => simp [sameFields]
  | cons f as ih =>
    obtain ⟨name, a⟩ := f
    rw [sameFields, Bool.and_eq_true, ih, List.forall_mem_cons]
    refine and_congr_left fun _ => ?_
    cases getField bs name <;> simp

theorem sameValue_plain {v : Value Binary64} (h : Plain v) : sameValue v v = true := by
  cases v with
  | null => rfl
  | bool b => cases b <;> rfl
  | int i => simp [sameValue, equalsNumber]
  | str s => simp [sameValue]
  | float x => exact h.elim
  | arr items => exact h.elim
  | obj fields => exact h.elim

/-- A flat mapping equals itself with its keys sorted. -/
theorem sameValue_sorted {fields : List (String × Value Binary64)} (hkeys : (fields.map Prod.fst).Nodup)
    (hplain : ∀ f ∈ fields, Plain f.2) : sameValue (sorted (.obj fields)) (.obj fields) = true := by
  have hperm := JsonText.orderedFields_perm fields
  have hlength : (orderedFields fields).length = fields.length := by
    rw [hperm.length_eq, List.length_map]
  rw [sorted_obj, sameValue, Bool.and_eq_true, beq_iff_eq, sameFields_iff]
  refine ⟨hlength, fun f hf => ?_⟩
  obtain ⟨g, hg, rfl⟩ := List.mem_map.1 (hperm.mem_iff.1 hf)
  have hsorted : sorted g.2 = g.2 := by
    have hgplain := hplain g hg
    cases hvalue : g.2 with
    | arr items => rw [hvalue] at hgplain; exact hgplain.elim
    | obj fields => rw [hvalue] at hgplain; exact hgplain.elim
    | _ => rfl
  refine ⟨g.2, (getField_some_iff hkeys).2 hg, ?_⟩
  show sameValue (sorted g.2) g.2 = true
  rw [hsorted]
  exact sameValue_plain (hplain g hg)

/-! ## Markers -/

theorem length_escapeAscii (c : Char) : (escapeAscii c).length ≤ 12 := by
  have hescape : (escapeChar c).length ≤ 6 := by
    unfold escapeChar
    split
    · exact Nat.le_of_ble_eq_true rfl
    split
    · split
      · exact Nat.le_of_ble_eq_true rfl
      · exact Nat.le_of_ble_eq_true rfl
    · exact Nat.le_of_ble_eq_true rfl
  unfold escapeAscii
  split
  · omega
  split
  · exact Nat.le_of_ble_eq_true rfl
  · exact Nat.le_of_ble_eq_true rfl

/-- No character of a string takes more than twelve. -/
theorem length_printString (floatRepr : Binary64 → List Char) (s : String) :
    (JsonText.printString (recordEncoder floatRepr) s).length ≤ 12 * s.length + 2 := by
  have hflat : ∀ cs : List Char, (cs.flatMap escapeAscii).length ≤ 12 * cs.length := by
    intro cs
    induction cs with
    | nil => rfl
    | cons c cs ih =>
      rw [List.flatMap_cons, List.length_append, List.length_cons]
      have := length_escapeAscii c
      omega
  have hchars := hflat s.toList
  rw [String.length_toList] at hchars
  show (JsonText.quotationMark :: s.toList.flatMap escapeAscii ++ [JsonText.quotationMark]).length ≤ _
  rw [List.length_append, List.length_cons, List.length_singleton]
  omega

theorem length_shaped {first other : Char → Bool} {most : ℕ} {value : String}
    (h : shaped first other most value = true) :
    value.length ≤ most := by
  rw [← String.length_toList]
  unfold shaped at h
  split at h
  · cases h
  · rename_i hlist
    rw [Bool.and_eq_true, Bool.and_eq_true] at h
    rw [hlist]
    exact of_decide_eq_true h.2

/-- A field that is a text takes no more than its name and the text do. -/
theorem fieldLength_str (floatRepr : Binary64 → List Char) {name value : String} {short most : ℕ}
    (hname : name.length = short) (h : value.length ≤ most) :
    JsonText.fieldLength (recordEncoder floatRepr) (name, .str value) ≤ 12 * short + 12 * most + 6 := by
  have hnameText := length_printString floatRepr name
  have hvalueText := length_printString floatRepr value
  unfold JsonText.fieldLength
  dsimp only
  rw [JsonText.print]
  omega

/-- The marker of a valid summary is within its bound. -/
theorem RuntimeSummary.short {s : RuntimeSummary} (h : validateRuntimeSummary s = .ok ()) :
    (JsonText.print (recordEncoder floatRepr) s.payload).length ≤ maxMarkerBytes := by
  have hvalid := ensure_ok.1 h
  simp only [Bool.and_eq_true, decide_eq_true_eq] at hvalid
  obtain ⟨⟨⟨⟨⟨⟨⟨⟨⟨hversion, hid⟩, hrepository⟩, hsha⟩, hname⟩, hmanifest⟩, hdigest⟩, hmode⟩, hcommand⟩, hcreated⟩ :=
    hvalid
  have hsha40 : s.targetSha.length ≤ 40 := le_of_eq (of_decide_eq_true (Bool.and_eq_true_iff.1 hsha).2)
  have hdigest64 : s.manifestDigest.length ≤ 64 := le_of_eq (of_decide_eq_true (Bool.and_eq_true_iff.1 hdigest).2)
  have hmode22 : s.mode.length ≤ 22 := by
    rcases List.mem_cons.1 hmode with h | h
    · rw [h]; decide
    · rw [List.mem_singleton.1 h]; decide
  have hcommand22 : s.commandIdentity.length ≤ 22 := by rw [hcommand]; decide
  have hschema : JsonText.fieldLength (recordEncoder floatRepr) ("schema_version", .int s.schemaVersion) ≤ 173 := by
    have hname := length_printString floatRepr "schema_version"
    have hlength : "schema_version".length = 14 := rfl
    have hone : (JsonText.print (recordEncoder floatRepr) (.int 1)).length = 1 := rfl
    rw [hversion, JsonText.fieldLength, hone]
    dsimp only
    omega
  have h1 := fieldLength_str floatRepr (show "runtime_id".length = 10 from rfl) (length_shaped hid)
  have h2 := fieldLength_str floatRepr (show "repository_full_name".length = 20 from rfl) (length_shaped hrepository)
  have h3 := fieldLength_str floatRepr (show "target_sha".length = 10 from rfl) hsha40
  have h4 := fieldLength_str floatRepr (show "manifest_name".length = 13 from rfl) (length_shaped hname)
  have h5 := fieldLength_str floatRepr (show "manifest_version".length = 16 from rfl) (length_shaped hmanifest)
  have h6 := fieldLength_str floatRepr (show "manifest_digest".length = 15 from rfl) hdigest64
  have h7 := fieldLength_str floatRepr (show "mode".length = 4 from rfl) hmode22
  have h8 := fieldLength_str floatRepr (show "command_identity".length = 16 from rfl) hcommand22
  have h9 := fieldLength_str floatRepr (show "created_at".length = 10 from rfl) hcreated
  rw [RuntimeSummary.payload, JsonText.length_print_obj (by simp [RuntimeSummary.fields])]
  simp only [RuntimeSummary.fields, List.map_cons, List.map_nil, List.sum_cons, List.sum_nil]
  unfold maxMarkerBytes
  omega

/-- A marker that holds the sorted summary is read as the summary. -/
theorem readRuntimeSummary_ok {root : RuntimeRoot} {s : RuntimeSummary} (h : validateRuntimeSummary s = .ok ())
    (hread : readRecord I root.marker maxMarkerBytes = .ok (sorted s.payload)) : readRuntimeSummary I root = .ok s := by
  refine except_bind_ok.2 ⟨_, hread, ?_⟩
  rw [RuntimeSummary.payload, sorted_obj]
  dsimp only
  rw [RuntimeSummary.ofFields_ordered]
  have hkeys : hasKeys (orderedFields s.fields) (runtimeShape.map Prod.fst) = true := by
    rw [hasKeys_ordered]
    exact s.fields_keys
  exact except_bind_ok.2 ⟨(), ensure_ok.2 hkeys, except_bind_ok.2 ⟨(), h, rfl⟩⟩

/-- The record of a valid summary is read as the sorted summary. -/
theorem readRecord_marker {s : RuntimeSummary} (hdepth : 1 ≤ I.recursionLimit)
    (hfloats : WritesFloats I floatRepr [])
    (h : validateRuntimeSummary s = .ok ()) :
    ∃ data, dumpsRecord floatRepr s.payload = .ok data ∧ readRecord I data maxMarkerBytes = .ok (sorted s.payload) := by
  have hvalid := ensure_ok.1 h
  simp only [Bool.and_eq_true, decide_eq_true_eq] at hvalid
  have hversion : s.schemaVersion = 1 := hvalid.1.1.1.1.1.1.1.1.1
  have hwritable : writable s.payload = true := by
    rw [RuntimeSummary.payload, writable, writableFields_iff]
    simp only [RuntimeSummary.fields, List.forall_mem_cons, hversion]
    exact ⟨rfl, rfl, rfl, rfl, rfl, rfl, rfl, rfl, rfl, rfl, by simp⟩
  have hreadable : JsonText.Readable (recordDecoder I) (recordEncoder floatRepr) I.recursionLimit s.payload := by
    obtain ⟨n, hn⟩ : ∃ n, I.recursionLimit = n + 1 := ⟨I.recursionLimit - 1, by omega⟩
    rw [hn]
    exact RuntimeSummary.readable hwritable
  have hdumps : dumpsRecord floatRepr s.payload =
      .ok (encodeUtf8 (JsonText.print (recordEncoder floatRepr) (sorted s.payload))) :=
    except_bind_ok.2 ⟨(), ensure_ok.2 hwritable, rfl⟩
  have hascii := JsonText.ascii_print (recordEncoder_ascii hfloats) (sorted s.payload)
  have hsize : (encodeUtf8 (JsonText.print (recordEncoder floatRepr) (sorted s.payload))).length ≤ maxMarkerBytes := by
    unfold encodeUtf8
    rw [(JsonText.strict_ascii_text hascii).2, JsonText.length_print_sorted]
    exact RuntimeSummary.short h
  exact ⟨_, hdumps, readRecord_dumps hfloats hreadable hdumps hsize⟩

/-- **The marker of a runtime is read as the summary that it was written from.** -/
theorem createRuntime_ok {s : RuntimeSummary} (hdepth : 1 ≤ I.recursionLimit)
    (hfloats : WritesFloats I floatRepr [])
    (h : validateRuntimeSummary s = .ok ()) :
    ∃ root, createRuntime I floatRepr s = .ok root ∧ readRuntimeSummary I root = .ok s := by
  obtain ⟨data, hdumps, hread⟩ := readRecord_marker hdepth hfloats h
  have hsummary : readRuntimeSummary I { marker := data } = .ok s := readRuntimeSummary_ok h hread
  refine ⟨{ marker := data }, except_bind_ok.2 ⟨(), h, except_bind_ok.2 ⟨data, hdumps, except_bind_ok.2 ⟨(), ?_, rfl⟩⟩⟩,
    hsummary⟩
  exact verifyRuntimeOwnership_ok.2 hsummary

/-- The runtime of a lifecycle. -/
def sampleSummary : RuntimeSummary :=
  { schemaVersion := 1, runtimeId := "r1", repositoryFullName := "org/repo", targetSha := sampleSha
    manifestName := "tests", manifestVersion := "1"
    manifestDigest := "0000000000000000000000000000000000000000000000000000000000000000", mode := "fresh-only"
    commandIdentity := "validation-lifecycle@1", createdAt := "2026-01-01T00:00:00Z" }

/-- The text of the number zero, for reports whose only duration it is. -/
def zeroRepr : Binary64 → List Char := fun _ => ['0', '.', '0']

theorem zeroRepr_reads :
    JsonText.ReadsFloat (recordDecoder plainInterpreter) (recordEncoder zeroRepr) (.finite 0) where
  begins := ⟨'0', ['.', '0'], rfl, by decide⟩
  reads := by
    intro rest hrest
    have hends : rest.takeWhile JsonText.isDigit = [] ∧ rest.dropWhile JsonText.isDigit = rest ∧
        JsonText.exponent rest = ([], rest) := by
      cases rest with
      | nil => exact ⟨rfl, rfl, rfl⟩
      | cons c cs =>
        rcases hrest c rfl with rfl | rfl | rfl
        · exact ⟨rfl, rfl, rfl⟩
        · exact ⟨rfl, rfl, rfl⟩
        · exact ⟨rfl, rfl, rfl⟩
    have hfraction : JsonText.fraction ('.' :: '0' :: rest) = (['.', '0'], rest) := by
      show ('.' :: '0' :: rest.takeWhile JsonText.isDigit, rest.dropWhile JsonText.isDigit) = _
      rw [hends.1, hends.2.1]
    have hvalue : Binary64.ofLiteral ['0', '.', '0'] = .finite 0 := by decide +kernel
    show JsonText.scanUnsigned (recordDecoder plainInterpreter) false ('0' :: '.' :: '0' :: rest) = _
    unfold JsonText.scanUnsigned
    have hinteger : JsonText.integerPart ('0' :: '.' :: '0' :: rest) = some (['0'], '.' :: '0' :: rest) := rfl
    rw [hinteger]
    dsimp only
    rw [hfraction]
    dsimp only
    rw [hends.2.2]
    dsimp only
    rw [if_neg (by simp)]
    exact congrArg (fun x => Except.ok (Value.float x, rest)) hvalue

theorem zeroRepr_writes {xs : List Binary64} (h : ∀ x ∈ xs, x = .finite 0) :
    WritesFloats plainInterpreter zeroRepr xs where
  ascii := by
    intro x c hc
    have hall : ∀ c ∈ ['0', '.', '0'], c.toNat < 128 := by decide
    exact hall c hc
  reads := by
    intro x hx
    rw [h x hx]
    exact zeroRepr_reads

theorem sampleSummary_valid : validateRuntimeSummary sampleSummary = .ok () := ensure_ok.2 (by decide +kernel)

theorem createRuntime_ok_sample : ∃ root, createRuntime plainInterpreter zeroRepr sampleSummary = .ok root ∧
    readRuntimeSummary plainInterpreter root = .ok sampleSummary :=
  createRuntime_ok (by decide) (zeroRepr_writes (by simp)) sampleSummary_valid

/-! ## Reports -/

/-- The sorted mapping of a checked report is accepted, and the report is built from it. -/
theorem storedReport_ordered {r : OperatorLifecycleReport} {expected : RuntimeSummary} {payload : Value Binary64}
    (hruntime : r.runtime = some expected) (hdict : r.asDict P = .ok payload) (hdistinct : DistinctKeys r.payload) :
    storedReport P expected (orderedFields r.fields) = .ok r := by
  obtain ⟨-, hshape, -⟩ := asDict_ok hdict
  have hsorted := validateReportShape_sorted hshape hdistinct
  rw [OperatorLifecycleReport.payload, sorted_obj] at hsorted
  obtain ⟨report, hreport, -⟩ := validateReportShape_ok.1 hsorted
  obtain ⟨-, hkeys, -⟩ := shape_ok.1 hreport
  obtain rfl : orderedFields r.fields = report := Value.obj.inj (shape_ok.1 hreport).1
  have hmem : ("runtime", r.runtime.elim .null RuntimeSummary.payload) ∈ r.fields := by
    simp [OperatorLifecycleReport.fields]
  have hfield : getField (orderedFields r.fields) "runtime" = some (sorted expected.payload) := by
    rw [getField_ordered r.fields_nodup, (getField_some_iff r.fields_nodup).2 hmem, hruntime]
    rfl
  refine except_bind_ok.2 ⟨(), ensure_ok.2 hkeys, except_bind_ok.2 ⟨(), ensure_ok.2 ?_,
    except_bind_ok.2 ⟨(), hsorted, ?_⟩⟩⟩
  · rw [hfield]
    exact sameValue_sorted expected.fields_nodup expected.plain
  · rw [OperatorLifecycleReport.ofFields_ordered hruntime]
    exact except_bind_ok.2 ⟨payload, hdict, rfl⟩

/-- A root that holds the sorted mapping of a checked report, under the marker of its runtime, is inspected as the
report. -/
theorem inspect_stored {root : RuntimeRoot} {r : OperatorLifecycleReport} {expected : RuntimeSummary}
    {data : Bytes}
    {payload : Value Binary64} (hruntime : r.runtime = some expected)
    (hsummary : readRuntimeSummary I root = .ok expected) (hdata : root.reportJson = some data)
    (hread : readRecord I data maxReportBytes = .ok (sorted r.payload)) (hdict : r.asDict P = .ok payload)
    (hdistinct : DistinctKeys r.payload) : inspectValidationRuntime I P root = .ok r := by
  have hreport : readRuntimeReport I root expected = .ok (some (orderedFields r.fields)) := by
    refine except_bind_ok.2 ⟨(), verifyRuntimeOwnership_ok.2 hsummary, ?_⟩
    rw [hdata]
    dsimp only
    rw [hread, OperatorLifecycleReport.payload, sorted_obj]
    rfl
  refine except_bind_ok.2 ⟨expected, hsummary, except_bind_ok.2 ⟨_, hreport, ?_⟩⟩
  dsimp only
  rw [storedReport_ordered hruntime hdict hdistinct]
  rfl

/-- The mapping of a report that can be written is within the limits of the reader. -/
theorem OperatorLifecycleReport.readable_payload {r : OperatorLifecycleReport} (hdepth : 5 ≤ I.recursionLimit)
    (hfloats : WritesFloats I floatRepr r.floats) (h : writable r.payload = true) :
    JsonText.Readable (recordDecoder I) (recordEncoder floatRepr) I.recursionLimit r.payload := by
  obtain ⟨n, hn⟩ : ∃ n, I.recursionLimit = n + 5 := ⟨I.recursionLimit - 5, by omega⟩
  rw [hn]
  exact OperatorLifecycleReport.readable h hfloats

/-- A checked report can be stored under the marker of its runtime. -/
theorem stored_of_asDict {r : OperatorLifecycleReport} {s : RuntimeSummary} {payload : Value Binary64}
    (hdepth : 5 ≤ I.recursionLimit) (hfloats : WritesFloats I floatRepr r.floats)
    (hvalid : validateRuntimeSummary s = .ok ()) (hdict : r.asDict P = .ok payload) (hwritable : writable r.payload = true)
    (hlength : (JsonText.print (recordEncoder floatRepr) r.payload).length ≤ maxReportBytes) :
    ∃ root data, readRuntimeSummary I root = .ok s ∧ root.reportJson = some data ∧
      r.asJsonBytes P floatRepr maxReportBytes = .ok data ∧
      readRecord I data maxReportBytes = .ok (sorted r.payload) := by
  obtain ⟨marker, -, hmarker⟩ := readRecord_marker (by omega) (hfloats.mono (by simp)) hvalid
  have hreadable := OperatorLifecycleReport.readable_payload hdepth hfloats hwritable
  have hdumps : dumpsRecord floatRepr r.payload =
      .ok (encodeUtf8 (JsonText.print (recordEncoder floatRepr) (sorted r.payload))) :=
    except_bind_ok.2 ⟨(), ensure_ok.2 hwritable, rfl⟩
  have hascii := JsonText.ascii_print (recordEncoder_ascii hfloats) (sorted r.payload)
  have hsize : (encodeUtf8 (JsonText.print (recordEncoder floatRepr) (sorted r.payload))).length ≤ maxReportBytes := by
    unfold encodeUtf8
    rw [(JsonText.strict_ascii_text hascii).2, JsonText.length_print_sorted]
    exact hlength
  refine ⟨{ marker, reportJson := some _ }, _, readRuntimeSummary_ok hvalid hmarker, rfl, ?_,
    readRecord_dumps hfloats hreadable hdumps hsize⟩
  obtain ⟨rfl, -, -⟩ := asDict_ok hdict
  exact except_bind_ok.2 ⟨_, hdict, except_bind_ok.2 ⟨_, hdumps,
    except_bind_ok.2 ⟨(), ensure_ok.2 (decide_eq_true hsize), rfl⟩⟩⟩

/-- **A report that was written is inspected as it is.** -/
theorem inspect_writeReport {root root' : RuntimeRoot} {r : OperatorLifecycleReport} {limit : ℕ}
    (hdepth : 5 ≤ I.recursionLimit) (hlimit : limit ≤ maxReportBytes) (hfloats : WritesFloats I floatRepr r.floats)
    (h : writeReport I floatRepr P root r limit = .ok root') : inspectValidationRuntime I P root' = .ok r := by
  unfold writeReport at h
  cases hruntime : r.runtime with
  | none =>
    rw [hruntime] at h
    cases h
  | some expected =>
    rw [hruntime] at h
    obtain ⟨json, hjson, h⟩ := except_bind_ok.1 h
    obtain ⟨text, _, h⟩ := except_bind_ok.1 h
    obtain ⟨_, howned, h⟩ := except_bind_ok.1 h
    obtain rfl := Except.ok.inj h
    obtain ⟨payload, hdict, hjson⟩ := except_bind_ok.1 hjson
    obtain ⟨encoded, hencoded, hjson⟩ := except_bind_ok.1 hjson
    obtain ⟨_, hsize, hjson⟩ := except_bind_ok.1 hjson
    obtain rfl := Except.ok.inj hjson
    obtain ⟨rfl, -, -⟩ := asDict_ok hdict
    have hsmall : encoded.length ≤ maxReportBytes := le_trans (of_decide_eq_true (ensure_ok.1 hsize)) hlimit
    -- the record is read as the payload with its keys sorted, and the marker is that of the root before
    have hreadable := OperatorLifecycleReport.readable_payload hdepth hfloats (dumpsRecord_ok hencoded)
    have hread := readRecord_dumps hfloats hreadable hencoded hsmall
    have hsummary : readRuntimeSummary I { root with reportJson := some encoded, reportText := some text } = .ok expected :=
      verifyRuntimeOwnership_ok.1 howned
    exact inspect_stored hruntime hsummary rfl hread hdict (distinctKeys_of_readable hreadable)

/-- The run of a lifecycle that reuses nothing. -/
def sampleRun : RunSummary :=
  { schemaVersion := 1, workOrderId := 1, runId := 1, sourceRunId := 1, phase := "fresh", workerId := "worker-a"
    status := "succeeded", reuseDecision := "fresh", reusedFromRunId := none
    reuseIdentityHash := "1111111111111111111111111111111111111111111111111111111111111111"
    evidenceFingerprint := "2222222222222222222222222222222222222222222222222222222222222222"
    evidenceRetentionExpiresAt := "2026-02-01T00:00:00Z", routingPolicy := "first_available"
    routeReason := "first_available", requiredQuotaUnits := 0, reservedQuotaUnits := 0
    quotaReservationState := "not_required", eligibleCandidateCount := 1, stepCount := 1, artifactCount := 0
    artifactTotalBytes := 0, routeVerified := true, evidenceVerified := true, localEvidenceVerified := true
    sourceCheckoutUnchanged := true, steps := [⟨"unit", "succeeded", .float (.finite 0)⟩], artifacts := [] }

/-- The report of a lifecycle that succeeded. -/
def sampleReport : OperatorLifecycleReport :=
  { outcome := "succeeded", reason := "lifecycle_verified", runtime := some sampleSummary
    phases := freshPhases ++ shutdownPhases, preflightChecks := preflightCheckNames, preflightPassed := true
    serverReady := true, workerReady := true, freshApproved := true, runs := [sampleRun], activeLeaseCount := some 0
    workerActiveRunCount := some 0, ownedProcessesStopped := true, portReleased := true
    canonicalCheckoutUnchanged := true, operatorActionCount := 1, completedAt := some "2026-01-01T00:01:00Z" }

theorem sampleReport_floats : WritesFloats plainInterpreter zeroRepr sampleReport.floats :=
  zeroRepr_writes (by simp [OperatorLifecycleReport.floats, sampleReport, sampleRun, StepSummary.floats])

theorem sampleReport_dict : sampleReport.asDict asciiPlatform = .ok sampleReport.payload := by
  have hchecks : (sampleReport.asDict asciiPlatform).toBool = true := by decide +kernel
  cases hdict : sampleReport.asDict asciiPlatform with
  | ok payload => rw [(asDict_ok hdict).1]
  | error e =>
    rw [hdict] at hchecks
    cases hchecks

theorem sampleReport_writable : writable sampleReport.payload = true := by decide +kernel

theorem sampleReport_stored : ∃ root data, readRuntimeSummary plainInterpreter root = .ok sampleSummary ∧
    root.reportJson = some data ∧ sampleReport.asJsonBytes asciiPlatform zeroRepr maxReportBytes = .ok data ∧
    readRecord plainInterpreter data maxReportBytes = .ok (sorted sampleReport.payload) :=
  stored_of_asDict (by decide) sampleReport_floats sampleSummary_valid sampleReport_dict sampleReport_writable
    (by decide +kernel)

/-- A text is encoded as its UTF-8 bytes. -/
theorem length_encodeUtf8 (s : String) : (encodeUtf8 s.toList).length = s.utf8ByteSize := by
  unfold encodeUtf8
  rw [← String.size_toByteArray, ← String.utf8Encode_toList]
  simp [List.utf8Encode]

theorem inspect_writeReport_sample : ∃ root root',
    writeReport plainInterpreter zeroRepr asciiPlatform root sampleReport maxReportBytes = .ok root' ∧
      inspectValidationRuntime plainInterpreter asciiPlatform root' = .ok sampleReport := by
  obtain ⟨root, data, hsummary, -, hjson, -⟩ := sampleReport_stored
  have hsize : (encodeUtf8 ("\n".intercalate sampleReport.lines ++ "\n").toList).length ≤ maxReportBytes := by
    rw [length_encodeUtf8]
    decide +kernel
  have htext : sampleReport.asText asciiPlatform maxReportBytes =
      .ok (encodeUtf8 ("\n".intercalate sampleReport.lines ++ "\n").toList) :=
    except_bind_ok.2 ⟨_, sampleReport_dict, except_bind_ok.2 ⟨(), ensure_ok.2 sampleReport_writable,
      except_bind_ok.2 ⟨(), ensure_ok.2 (decide_eq_true hsize), rfl⟩⟩⟩
  have hwritten : writeReport plainInterpreter zeroRepr asciiPlatform root sampleReport maxReportBytes =
      .ok { root with reportJson := some data, reportText := some _ } :=
    except_bind_ok.2 ⟨_, hjson, except_bind_ok.2 ⟨_, htext,
      except_bind_ok.2 ⟨(), verifyRuntimeOwnership_ok.2 hsummary, rfl⟩⟩⟩
  exact ⟨root, _, hwritten, inspect_writeReport (by decide) le_rfl sampleReport_floats hwritten⟩

end Operator

end Switchboard
