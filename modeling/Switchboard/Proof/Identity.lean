import Switchboard.Lib.Try
import Switchboard.Lib.Tx
import Switchboard.Proof.CanonicalJson
import Switchboard.Proof.Reuse

/-!
# Identity hashes tell identities apart

* `payload_identity`: the payload of a reuse identity determines it.
* `payload_policy`: the payload of an execution policy determines its arguments, up to the order of what it sorts.
* `digestPayload_step`, `digestPayload_manifest`: an omitted part of a payload was empty.
* `identityHashes_separate`: no hash is shared by two identities.
-/

namespace Switchboard

open PyText Transaction

variable {P : Platform} {U : CharTable}

/-! ## Fields of payloads -/

theorem str_of_sortKeys {a b : String} (h : sortKeys (.str a) = sortKeys (.str b)) : a = b := by
  simpa [sortKeys] using h

theorem int_of_sortKeys {a b : ℤ} (h : sortKeys (.int a) = sortKeys (.int b)) : a = b := by
  simpa [sortKeys] using h

theorem bool_of_sortKeys {a b : Bool} (h : sortKeys (.bool a) = sortKeys (.bool b)) : a = b := by
  simpa [sortKeys] using h

/-- The items of arrays that are the same once sorted are the same once sorted. -/
theorem forall₂_of_sortKeys {α : Type} {f : α → Json} {R : α → α → Prop} {items items' : List α}
    (hR : ∀ a ∈ items, ∀ b ∈ items', sortKeys (f a) = sortKeys (f b) → R a b)
    (h : sortKeys (.arr (items.map f)) = sortKeys (.arr (items'.map f))) : List.Forall₂ R items items' := by
  rw [sortKeys_arr, sortKeys_arr, List.map_map, List.map_map] at h
  have hall := Json.arr.inj h
  clear h
  induction items generalizing items' with
  | nil =>
    cases items' with
    | nil => exact .nil
    | cons b items' => simp at hall
  | cons a items ih =>
    cases items' with
    | nil => simp at hall
    | cons b items' =>
      rw [List.map_cons, List.map_cons] at hall
      obtain ⟨hitem, hitems⟩ := List.cons.inj hall
      refine .cons (hR a List.mem_cons_self b List.mem_cons_self hitem) (ih ?_ hitems)
      exact fun x hx y hy => hR x (List.mem_cons_of_mem _ hx) y (List.mem_cons_of_mem _ hy)

theorem eq_of_sortKeys {α : Type} {f : α → Json} {items items' : List α}
    (hf : ∀ a b, sortKeys (f a) = sortKeys (f b) → a = b)
    (h : sortKeys (.arr (items.map f)) = sortKeys (.arr (items'.map f))) : items = items' := by
  have hall : List.Forall₂ Eq items items' := forall₂_of_sortKeys (fun a _ b _ => hf a b) h
  rwa [List.forall₂_eq_eq_eq] at hall

theorem perm_of_sortedTexts {texts texts' : List String}
    (h : sortKeys (.arr ((Service.sortedTexts texts).map .str)) = sortKeys (.arr ((Service.sortedTexts texts').map .str))) :
    texts.Perm texts' := by
  have hsorted := eq_of_sortKeys (fun _ _ => str_of_sortKeys) h
  have hperm := List.mergeSort_perm texts fun a b => decide (a ≤ b)
  have hperm' := List.mergeSort_perm texts' fun a b => decide (a ≤ b)
  unfold Service.sortedTexts at hsorted
  rw [hsorted] at hperm
  exact hperm.symm.trans hperm'

/-! ## Reuse identities -/

theorem lock_of_sortKeys {a b : DependencyLockHash}
    (h : sortKeys (.obj [("relative_path", .str a.relativePath), ("sha256", .str a.sha256)]) =
      sortKeys (.obj [("relative_path", .str b.relativePath), ("sha256", .str b.sha256)])) : a = b := by
  have hvalues := values_of_sortKeys h (by simp) rfl
  simp only [List.map_cons, List.map_nil, List.cons.injEq, and_true] at hvalues
  obtain ⟨hpath, hsha⟩ := hvalues
  cases a
  cases b
  rw [DependencyLockHash.mk.injEq]
  exact ⟨str_of_sortKeys hpath, str_of_sortKeys hsha⟩

/-- **The payload of a reuse identity determines it.** -/
theorem payload_identity {a b : ReuseIdentity} (h : sortKeys a.payload = sortKeys b.payload) : a = b := by
  have hvalues := values_of_sortKeys h (by simp) rfl
  simp only [List.map_cons, List.map_nil, List.cons.injEq, and_true] at hvalues
  obtain ⟨-, -, hrepository, hsha, hname, hversion, hdigest, hworker, hlocks, hpolicy, hcontract⟩ := hvalues
  cases a
  cases b
  rw [ReuseIdentity.mk.injEq]
  exact ⟨str_of_sortKeys hrepository, str_of_sortKeys hsha, str_of_sortKeys hname, str_of_sortKeys hversion,
    str_of_sortKeys hdigest, str_of_sortKeys hworker, eq_of_sortKeys (fun _ _ => lock_of_sortKeys) hlocks,
    str_of_sortKeys hpolicy, str_of_sortKeys hcontract⟩

/-! ## Execution policies -/

theorem optional_int_of_sortKeys {a b : Option ℤ}
    (h : sortKeys (a.elim .null .int) = sortKeys (b.elim .null .int)) : a = b := by
  cases a <;> cases b <;> simp_all [sortKeys]

theorem optional_str_of_sortKeys {a b : Option String}
    (h : sortKeys (a.elim .null .str) = sortKeys (b.elim .null .str)) : a = b := by
  cases a <;> cases b <;> simp_all [sortKeys]

/-- **The payload of an execution policy determines its arguments.** -/
theorem payload_policy {a b : PolicyInputs} (h : sortKeys (.obj a.payload) = sortKeys (.obj b.payload)) : a.Same b := by
  have hvalues := values_of_sortKeys h (by simp [PolicyInputs.payload]) rfl
  unfold PolicyInputs.payload at hvalues
  simp only [List.map_cons, List.map_nil, List.cons.injEq, and_true] at hvalues
  obtain ⟨hkinds, hparameters, hnetwork, hpaths, hwrite, hcapabilities, hrouting, -, htimeout⟩ := hvalues
  have hroute := values_of_sortKeys hrouting (by simp) rfl
  simp only [List.map_cons, List.map_nil, List.cons.injEq, and_true] at hroute
  obtain ⟨hcost, hpolicy, hexecutor, hquota⟩ := hroute
  exact ⟨same_of_sortKeys _ _ hparameters, same_of_sortKeys _ _ hcapabilities, perm_of_sortedTexts hpaths,
    perm_of_sortedTexts hkinds, int_of_sortKeys htimeout, str_of_sortKeys hnetwork, bool_of_sortKeys hwrite,
    str_of_sortKeys hpolicy, optional_int_of_sortKeys hcost, int_of_sortKeys hquota, optional_str_of_sortKeys hexecutor⟩

/-! ## Steps -/

namespace TrustedStep

theorem keys_nodup (s : TrustedStep) : ((s.fixedFields ++ s.optionalFields).map Prod.fst).Nodup := by
  have hsub : (s.optionalFields.map Prod.fst).Sublist (["parser_kind"] ++ ["artifacts"]) := by
    unfold optionalFields
    rw [List.map_append]
    apply List.Sublist.append
    · split
      · exact List.nil_sublist _
      · split
        · exact List.nil_sublist _
        · exact List.Sublist.refl _
    · split
      · exact List.nil_sublist _
      · exact List.Sublist.refl _
  rw [List.map_append]
  refine ((List.Sublist.refl _).append hsub).nodup ?_
  simp [fixedFields]

/-- The parser of a step that has passed its constructor is not the empty text. -/
theorem lookup_parserKind {s : TrustedStep} (h : s.validate U = .ok ()) :
    lookup s.optionalFields "parser_kind" = s.parserKind.map .str := by
  have hkind : ∀ kind, s.parserKind = some kind → kind ≠ "" := by
    rintro kind hkind rfl
    unfold validate at h
    simp only [except_bind_ok, ensure_ok, hkind] at h
    obtain ⟨_, -, _, -, _, -, _, -, _, -, _, -, _, hparser, -⟩ := h
    exact absurd hparser (by decide)
  unfold optionalFields
  rw [lookup_append]
  have hartifacts : lookup (if s.artifacts = [] then []
      else [("artifacts", Json.arr (s.artifacts.map TrustedArtifact.safeMetadata))]) "parser_kind" = none := by
    split <;> simp [lookup]
  rw [hartifacts, Option.or_none]
  cases hparser : s.parserKind with
  | none => rfl
  | some kind =>
    dsimp only
    rw [if_neg (hkind kind hparser)]
    simp [lookup]

theorem lookup_artifacts (s : TrustedStep) : lookup s.optionalFields "artifacts" =
    if s.artifacts = [] then none else some (.arr (s.artifacts.map TrustedArtifact.safeMetadata)) := by
  unfold optionalFields
  cases s.parserKind with
  | none =>
    dsimp only
    rw [List.nil_append]
    split <;> simp [lookup]
  | some kind =>
    dsimp only
    split <;> split <;> simp [lookup]

end TrustedStep

theorem artifact_of_sortKeys {a b : TrustedArtifact} (h : sortKeys a.safeMetadata = sortKeys b.safeMetadata) : a = b := by
  have hvalues := values_of_sortKeys h (by simp) rfl
  simp only [List.map_cons, List.map_nil, List.cons.injEq, and_true] at hvalues
  obtain ⟨hkind, hmedia, hredaction, hpath⟩ := hvalues
  have hredacted : a.redacted = b.redacted := by
    have hstate := str_of_sortKeys hredaction
    revert hstate
    unfold redactionState
    cases a.redacted <;> cases b.redacted <;> decide
  cases a
  cases b
  rw [TrustedArtifact.mk.injEq]
  exact ⟨str_of_sortKeys hkind, str_of_sortKeys hpath, str_of_sortKeys hmedia, hredacted⟩

/-- A list that is left out if it is empty. -/
theorem omitted_of_sortKeys {α : Type} {f : α → Json} {R : α → α → Prop} {items items' : List α}
    [Decidable (items = [])] [Decidable (items' = [])]
    (hR : ∀ a ∈ items, ∀ b ∈ items', sortKeys (f a) = sortKeys (f b) → R a b)
    (h : (if items = [] then none else some (Json.arr (items.map f))).map sortKeys =
      (if items' = [] then none else some (Json.arr (items'.map f))).map sortKeys) : List.Forall₂ R items items' := by
  by_cases hitems : items = [] <;> by_cases hitems' : items' = []
  · subst hitems hitems'
    exact .nil
  · simp [hitems, hitems'] at h
  · simp [hitems, hitems'] at h
  · rw [if_neg hitems, if_neg hitems'] at h
    exact forall₂_of_sortKeys hR (Option.some.inj h)

/-- **The payload of a step determines it**: an omitted parser is none, omitted artifacts are empty. -/
theorem digestPayload_step {s t : TrustedStep} (hs : s.validate U = .ok ()) (ht : t.validate U = .ok ())
    (h : sortKeys s.digestPayload = sortKeys t.digestPayload) : s.Same t := by
  obtain ⟨hvalues, hoptional⟩ := parts_of_sortKeys h s.keys_nodup t.keys_nodup rfl
  have hparser := hoptional "parser_kind"
  have hartifacts := hoptional "artifacts"
  rw [TrustedStep.lookup_parserKind hs, TrustedStep.lookup_parserKind ht] at hparser
  rw [TrustedStep.lookup_artifacts, TrustedStep.lookup_artifacts] at hartifacts
  unfold TrustedStep.fixedFields at hvalues
  simp only [List.map_cons, List.map_nil, List.cons.injEq, and_true] at hvalues
  obtain ⟨hargv, hcondition, hdiagnostic, henvironment, hid, houtput, hrequired, htimeout, htitle, hdirectory⟩ := hvalues
  have hkind : s.parserKind = t.parserKind := by
    cases hp : s.parserKind <;> cases hq : t.parserKind <;> simp_all [sortKeys]
  have hwritten : s.artifacts = t.artifacts := by
    have hall : List.Forall₂ Eq s.artifacts t.artifacts :=
      omitted_of_sortKeys (fun _ _ _ _ => artifact_of_sortKeys) hartifacts
    rwa [List.forall₂_eq_eq_eq] at hall
  have hlimit : s.outputSummaryLimit = t.outputSummaryLimit := Int.ofNat.inj (int_of_sortKeys houtput)
  have hvariables : s.environment = t.environment := by
    refine eq_of_sortKeys (fun x y hxy => ?_) henvironment
    simp only [sortKeys, sortItems, Json.arr.injEq, List.cons.injEq, Json.str.injEq, and_true] at hxy
    exact Prod.ext hxy.1 hxy.2
  refine ⟨?_, ?_⟩
  · unfold sameOption
    cases hs : s.capabilityCondition <;> cases ht : t.capabilityCondition <;> rw [hs, ht] at hcondition
    · exact .none
    · simp [sortKeys] at hcondition
    · simp [sortKeys] at hcondition
    · exact .some (same_of_sortKeys _ _ hcondition)
  · rw [TrustedStep.mk.injEq]
    exact ⟨str_of_sortKeys hid, str_of_sortKeys htitle, eq_of_sortKeys (fun _ _ => str_of_sortKeys) hargv,
      bool_of_sortKeys hrequired, int_of_sortKeys htimeout, hlimit, str_of_sortKeys hdirectory, hvariables, rfl,
      bool_of_sortKeys hdiagnostic, hkind, hwritten⟩

/-! ## Manifests -/

namespace TrustedManifest

theorem keys_nodup (m : TrustedManifest) : ((m.fixedFields ++ m.optionalFields).map Prod.fst).Nodup := by
  have hsub : (m.optionalFields.map Prod.fst).Sublist
      ((["execution_steps"] ++ ["dependency_lock_paths"]) ++ ["result_contract"]) := by
    unfold optionalFields
    rw [List.map_append, List.map_append]
    refine List.Sublist.append (List.Sublist.append ?_ ?_) ?_
    · split
      · exact List.nil_sublist _
      · exact List.Sublist.refl _
    · split
      · exact List.nil_sublist _
      · exact List.Sublist.refl _
    · split
      · exact List.nil_sublist _
      · exact List.Sublist.refl _
  rw [List.map_append]
  refine ((List.Sublist.refl _).append hsub).nodup ?_
  simp [fixedFields]

theorem lookup_optional (m : TrustedManifest) :
    lookup m.optionalFields "execution_steps" =
        (if m.executionSteps = [] then none else some (.arr (m.executionSteps.map TrustedStep.digestPayload))) ∧
      lookup m.optionalFields "dependency_lock_paths" =
        (if m.dependencyLockPaths = [] then none else some (.arr (m.dependencyLockPaths.map .str))) ∧
      lookup m.optionalFields "result_contract" = m.resultContract := by
  unfold optionalFields
  simp only [List.isEmpty_iff]
  by_cases hsteps : m.executionSteps = [] <;> by_cases hlocks : m.dependencyLockPaths = [] <;>
    cases m.resultContract <;> simp [hsteps, hlocks, lookup]

end TrustedManifest

theorem networkPolicy_injective {a b : NetworkPolicy} (h : a.value = b.value) : a = b := by
  revert h
  cases a <;> cases b <;> decide

/-- **The payload of a manifest determines it**: an omitted part is empty. -/
theorem digestPayload_manifest {m n : TrustedManifest} (hm : m.Constructed P U) (hn : n.Constructed P U)
    (h : sortKeys m.digestPayload = sortKeys n.digestPayload) : m.Same n := by
  obtain ⟨hvalues, hoptional⟩ := parts_of_sortKeys h m.keys_nodup n.keys_nodup rfl
  have hsteps := hoptional "execution_steps"
  have hlocks := hoptional "dependency_lock_paths"
  have hcontract := hoptional "result_contract"
  rw [m.lookup_optional.1, n.lookup_optional.1] at hsteps
  rw [m.lookup_optional.2.1, n.lookup_optional.2.1] at hlocks
  rw [m.lookup_optional.2.2, n.lookup_optional.2.2] at hcontract
  unfold TrustedManifest.fixedFields at hvalues
  simp only [List.map_cons, List.map_nil, List.cons.injEq, and_true] at hvalues
  obtain ⟨hallowed, hartifacts, hdescription, henvironment, hmetadata, hname, hnetwork, hsource, -, hcapabilities,
    hschema, htimeout, hversion⟩ := hvalues
  have hwritable : m.metadata.repositoryWritePolicy = n.metadata.repositoryWritePolicy := by
    cases m.metadata.repositoryWritePolicy
    cases n.metadata.repositoryWritePolicy
    rfl
  have hpaths : m.dependencyLockPaths = n.dependencyLockPaths := by
    have hall : List.Forall₂ Eq m.dependencyLockPaths n.dependencyLockPaths :=
      omitted_of_sortKeys (fun _ _ _ _ => str_of_sortKeys) hlocks
    rwa [List.forall₂_eq_eq_eq] at hall
  refine ⟨str_of_sortKeys hname, str_of_sortKeys hversion, int_of_sortKeys hschema, str_of_sortKeys hdescription,
    str_of_sortKeys hsource, same_of_sortKeys _ _ hcapabilities, same_of_sortKeys _ _ hmetadata,
    same_of_sortKeys _ _ henvironment, networkPolicy_injective (str_of_sortKeys hnetwork), hwritable,
    int_of_sortKeys htimeout, same_of_sortKeys _ _ hartifacts, perm_of_sortedTexts hallowed, ?_, hpaths, ?_⟩
  · exact omitted_of_sortKeys (fun s hs t ht => digestPayload_step (hm.steps s hs) (hn.steps t ht)) hsteps
  · unfold sameOption
    cases hc : m.resultContract <;> cases hc' : n.resultContract <;> rw [hc, hc'] at hcontract
    · exact .none
    · simp at hcontract
    · simp at hcontract
    · exact .some (same_of_sortKeys _ _ (Option.some.inj hcontract))

/-! ## Hashes -/

theorem floatFree_texts (texts : List String) : Json.floatFreeItems (texts.map .str) := by
  refine floatFreeItems_iff.2 fun item hitem => ?_
  obtain ⟨text, -, rfl⟩ := List.mem_map.1 hitem
  trivial

theorem floatFree_identity (identity : ReuseIdentity) : identity.payload.FloatFree := by
  refine floatFreeFields_iff.2 ?_
  simp only [List.forall_mem_cons, List.not_mem_nil, false_imp_iff, implies_true, and_true]
  refine ⟨trivial, trivial, trivial, trivial, trivial, trivial, trivial, trivial, ?_, trivial, trivial⟩
  refine floatFreeItems_iff.2 fun item hitem => ?_
  obtain ⟨lock, -, rfl⟩ := List.mem_map.1 hitem
  exact ⟨trivial, trivial, trivial⟩

theorem floatFree_policy {inputs : PolicyInputs} (h : inputs.FloatFree) : (Json.obj inputs.payload).FloatFree := by
  refine floatFreeFields_iff.2 ?_
  unfold PolicyInputs.payload
  simp only [List.forall_mem_cons, List.not_mem_nil, false_imp_iff, implies_true, and_true]
  refine ⟨floatFree_texts _, h.1, trivial, floatFree_texts _, trivial, h.2, ?_, trivial, trivial⟩
  refine floatFreeFields_iff.2 ?_
  simp only [List.forall_mem_cons, List.not_mem_nil, false_imp_iff, implies_true, and_true]
  refine ⟨?_, trivial, ?_, trivial, trivial⟩
  · cases inputs.maximumCostUnits <;> trivial
  · cases inputs.preferredExecutor <;> trivial

theorem floatFree_step {s : TrustedStep}
    (h : ∀ condition, s.capabilityCondition = some condition → Json.floatFreeFields condition) :
    s.digestPayload.FloatFree := by
  refine floatFreeFields_iff.2 (List.forall_mem_append.2 ⟨?_, ?_⟩)
  · unfold TrustedStep.fixedFields
    simp only [List.forall_mem_cons, List.not_mem_nil, false_imp_iff, implies_true, and_true]
    refine ⟨floatFree_texts _, ?_, trivial, ?_, trivial, trivial, trivial, trivial, trivial, trivial⟩
    · cases hcondition : s.capabilityCondition with
      | none => trivial
      | some condition => exact h condition hcondition
    · refine floatFreeItems_iff.2 fun item hitem => ?_
      obtain ⟨entry, -, rfl⟩ := List.mem_map.1 hitem
      exact ⟨trivial, trivial, trivial⟩
  · unfold TrustedStep.optionalFields
    refine List.forall_mem_append.2 ⟨?_, ?_⟩
    · split
      · simp
      · split
        · simp
        · simp [Json.FloatFree]
    · split
      · simp
      · rw [List.forall_mem_singleton]
        refine floatFreeItems_iff.2 fun item hitem => ?_
        obtain ⟨artifact, -, rfl⟩ := List.mem_map.1 hitem
        exact ⟨trivial, trivial, trivial, trivial, trivial⟩

theorem floatFree_manifest {m : TrustedManifest} (h : m.FloatFree) : m.digestPayload.FloatFree := by
  obtain ⟨hcapabilities, hmetadata, henvironment, hartifacts, hsteps, hcontract⟩ := h
  refine floatFreeFields_iff.2 (List.forall_mem_append.2 ⟨?_, ?_⟩)
  · unfold TrustedManifest.fixedFields
    simp only [List.forall_mem_cons, List.not_mem_nil, false_imp_iff, implies_true, and_true]
    exact ⟨floatFree_texts _, hartifacts, trivial, henvironment, hmetadata, trivial, trivial, trivial, trivial,
      hcapabilities, trivial, trivial, trivial⟩
  · unfold TrustedManifest.optionalFields
    refine List.forall_mem_append.2 ⟨List.forall_mem_append.2 ⟨?_, ?_⟩, ?_⟩
    · split
      · simp
      · rw [List.forall_mem_singleton]
        refine floatFreeItems_iff.2 fun item hitem => ?_
        obtain ⟨step, hstep, rfl⟩ := List.mem_map.1 hitem
        exact floatFree_step (hsteps step hstep)
    · split
      · simp
      · rw [List.forall_mem_singleton]
        exact floatFree_texts _
    · split
      · simp
      · rename_i contract heq
        rw [List.forall_mem_singleton]
        exact hcontract contract heq

section hashes

variable {sha256 : ByteArray → String} (hsha : Function.Injective sha256)
include hsha

theorem hashText_injective {text text' : List Char} (h : hashText sha256 text = hashText sha256 text') : text = text' :=
  String.ofList_injective (String.toByteArray_inj.1 (hsha h))

/-- **No hash is shared by two identities**: not by two reuse identities, by two accepted execution policies that
differ in more than the order of what is sorted, nor by two manifests. -/
theorem identityHashes_separate (P : Platform) (U : CharTable) :
    (∀ a b : ReuseIdentity, computeReuseIdentityHash sha256 a = computeReuseIdentityHash sha256 b → a = b) ∧
    (∀ (a b : PolicyInputs) (digest : String), a.FloatFree → b.FloatFree →
      computeExecutionPolicyHash P sha256 a = .ok digest → computeExecutionPolicyHash P sha256 b = .ok digest →
      a.Same b) ∧
    ∀ m n : TrustedManifest, m.Constructed P U → n.Constructed P U → m.FloatFree → n.FloatFree →
      m.digest sha256 = n.digest sha256 → m.Same n := by
  refine ⟨fun a b h => ?_, fun a b digest ha hb hda hdb => ?_, fun m n hm hn hfm hfn h => ?_⟩
  · exact payload_identity
      (canonicalJson_injective (floatFree_identity a) (floatFree_identity b) (hashText_injective hsha h))
  · unfold computeExecutionPolicyHash canonicalPayloadHash at hda hdb
    obtain ⟨_, -, hda⟩ := except_bind_ok.1 hda
    obtain ⟨_, -, hdb⟩ := except_bind_ok.1 hdb
    have htext := hashText_injective hsha ((Except.ok.inj hda).trans (Except.ok.inj hdb).symm)
    exact payload_policy (canonicalJson_injective (floatFree_policy ha) (floatFree_policy hb) htext)
  · exact digestPayload_manifest hm hn
      (canonicalAscii_injective (floatFree_manifest hfm) (floatFree_manifest hfn) (hashText_injective hsha h))

end hashes

/-! ## A hash without collisions -/

/-- Every byte as a character. -/
def byteText (bytes : ByteArray) : String := String.ofList (bytes.data.toList.map fun b => Char.ofNat b.toNat)

theorem byteText_injective : Function.Injective byteText := by
  intro x y h
  have hbyte : Function.Injective fun b : UInt8 => Char.ofNat b.toNat := by
    intro b c hbc
    have htoNat : ∀ b : UInt8, (Char.ofNat b.toNat).toNat = b.toNat := by
      intro b
      have hvalid : b.toNat.isValidChar := .inl (lt_of_lt_of_le b.toNat_lt (by decide))
      rw [Char.ofNat, dif_pos hvalid]
      rfl
    have hnat := congrArg Char.toNat hbc
    dsimp only at hnat
    rw [htoNat, htoNat] at hnat
    exact UInt8.toNat_inj.1 hnat
  have hlist := List.map_injective_iff.2 hbyte (String.ofList_injective h)
  exact ByteArray.ext (Array.toList_inj.1 hlist)

def policyOf (repositoryWriteAllowed : Bool) : PolicyInputs :=
  { manifestParameters := [], requiredCapabilities := [("python", .bool true)], permittedPaths := ["src"]
    expectedArtifactKinds := [], timeoutSeconds := 600, networkPolicy := "disabled"
    repositoryWriteAllowed := repositoryWriteAllowed }

/-- A manifest with one step in a directory. -/
def manifestIn (workingDirectory : String) : TrustedManifest :=
  let step : TrustedStep :=
    { id := "unit", title := "Unit tests", argv := ["pytest"], required := true, timeoutSeconds := 60
      workingDirectory := workingDirectory }
  { metadata := { sampleManifest.metadata with fixedStepMetadata := [step.safeMetadata] }
    allowedParameters := [], executionSteps := [step], dependencyLockPaths := [], resultContract := none }

theorem constructed_manifestIn {workingDirectory : String}
    (h : workingDirectory = "." ∨ workingDirectory = "src") :
    (manifestIn workingDirectory).Constructed samplePlatform asciiTable := by
  rcases h with rfl | rfl
  all_goals
    refine ⟨rfl, fun s hs => ?_, fun s hs => ?_⟩
    · obtain rfl := List.mem_singleton.1 hs
      rfl
    · obtain rfl := List.mem_singleton.1 hs
      exact fun a ha => absurd ha List.not_mem_nil

theorem floatFree_manifestIn (workingDirectory : String) : (manifestIn workingDirectory).FloatFree := by
  refine ⟨trivial, ⟨?_, trivial⟩, trivial, trivial, fun s hs => ?_, fun _ h => by cases h⟩
  · exact ⟨trivial, trivial, trivial, trivial, trivial⟩
  · obtain rfl := List.mem_singleton.1 hs
    exact fun _ h => by cases h

/-- Identities that differ in one field, an accepted execution policy, and manifests that differ in one step. -/
theorem identityHashes_separate_sample :
    computeReuseIdentityHash byteText sampleIdentity ≠
      computeReuseIdentityHash byteText { sampleIdentity with manifestVersion := "2" } ∧
    (∃ digest, computeExecutionPolicyHash samplePlatform byteText (policyOf true) = .ok digest ∧
      computeExecutionPolicyHash samplePlatform byteText (policyOf false) ≠ .ok digest) ∧
    (manifestIn ".").digest byteText ≠ (manifestIn "src").digest byteText := by
  obtain ⟨hidentity, hpolicy, hmanifest⟩ := identityHashes_separate byteText_injective samplePlatform asciiTable
  refine ⟨fun h => absurd (hidentity _ _ h) (by decide), ?_, fun h => ?_⟩
  · obtain ⟨digest, hdigest⟩ : ∃ digest, computeExecutionPolicyHash samplePlatform byteText (policyOf true) = .ok digest :=
      returns_of_isSome (by decide +kernel)
    refine ⟨digest, hdigest, fun h => ?_⟩
    have hsame := hpolicy (policyOf true) (policyOf false) digest ⟨trivial, trivial, trivial⟩
      ⟨trivial, trivial, trivial⟩ hdigest h
    exact absurd hsame.repositoryWriteAllowed (by decide)
  · have hsame := hmanifest _ _ (constructed_manifestIn (.inl rfl)) (constructed_manifestIn (.inr rfl))
      (floatFree_manifestIn ".") (floatFree_manifestIn "src") h
    cases hsame.executionSteps with
    | cons hstep _ => exact absurd (congrArg TrustedStep.workingDirectory hstep.others) (by decide)

end Switchboard
