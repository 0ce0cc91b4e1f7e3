import Switchboard.Proof.PytestCounts
import Switchboard.Proof.Reuse
import Switchboard.Spec.RetainedEvidence

/-!
# Verified and expired evidence

* `verifyReuseCandidate_sound`: what a verified source is.
* `pruneCandidate_removes_iff`: which children are removed.
* `pruneLoop_spec`: the loop removes these children and no others.
* `expectedMarker_retained`: a marker that verifies a source is not expired for the pruning.
* `retainedEvidence_sound`: all of it, for every content of the evidence root.
-/

namespace Switchboard

open Transaction
open JsonText (Value)

variable {I : Interpreter} {P : Platform} {models : EvidenceModels} {sha256 : Bytes → String}
  {textOf : Value Binary64 → String} {root : Option EvidenceRoot} {workerId : String} {candidate : ReuseCandidate}
  {now : DateTime} {limits : EvidenceLimits} {directory : Node} {child : String × Node} {runId : ℤ}

theorem mapError_ok {ε ε' α : Type} {f : ε → ε'} {x : Except ε α} {a : α} : x.mapError f = .ok a ↔ x = .ok a := by
  cases x with
  | error e => exact iff_of_false (by simp [Except.mapError]) (by simp)
  | ok b => simp [Except.mapError]

/-! ## Verification -/

/-- The run directory carries the expected marker. -/
def CarriesMarker (I : Interpreter) (workerId : String) (candidate : ReuseCandidate) (directory : Node) : Prop :=
  ∃ marker expected, readMarker I directory = .ok marker ∧ expectedMarker workerId candidate = some expected ∧
    sameValue marker expected = true

/-- The stored result has the identity, the hash and the fingerprint of the candidate, with the provenance of a fresh
success of the same run. -/
structure StoredResult (P : Platform) (workerId : String) (candidate : ReuseCandidate) (evidence : ExecutionEvidence)
    (identity : ReuseIdentity) : Prop where
  identity_eq : identity = candidate.reuseIdentity
  hash : P.reuseIdentityHash identity = candidate.reuseIdentityHash
  run : evidence.runId = candidate.sourceRunId
  worker : evidence.workerId = workerId
  fingerprint : evidence.fingerprint = candidate.expectedSourceEvidenceFingerprint
  succeeded : evidence.terminalStatus = .succeeded
  artifacts : evidence.artifacts = candidate.artifacts
  provenance : ∃ provenance, evidence.reuseProvenance = some provenance ∧ provenance.decision = .fresh ∧
    provenance.reuseIdentityHash = candidate.reuseIdentityHash

/-- The result record of the run directory holds such a result, and the hash of the candidate. -/
def HoldsResult (I : Interpreter) (P : Platform) (models : EvidenceModels) (workerId : String)
    (candidate : ReuseCandidate) (limits : EvidenceLimits) (directory : Node) : Prop :=
  ∃ fields evidence identity,
    readStableJson I directory ["result.json"] limits.maximumArtifactBytes = .ok (.obj fields) ∧
    models.evidence ((getField fields "evidence").getD .null) = .ok evidence ∧
    models.identity ((getField fields "reuse_identity").getD .null) = .ok identity ∧
    getField fields "reuse_identity_hash" = some (.str candidate.reuseIdentityHash) ∧
    StoredResult P workerId candidate evidence identity

/-- A listed artifact exists with the recorded size and digest. -/
def HoldsArtifact (P : Platform) (sha256 : Bytes → String) (limits : EvidenceLimits) (directory : Node)
    (record : ArtifactRecord) : Prop :=
  ∃ data, readArtifact P directory record.relativePath = .ok data ∧ data.length = record.sizeBytes ∧
    sha256 data = record.sha256 ∧ record.sizeBytes ≤ limits.maximumArtifactBytes

/-- A source that is verified at an instant. -/
structure VerifiedSource (I : Interpreter) (P : Platform) (models : EvidenceModels) (sha256 : Bytes → String)
    (root : Option EvidenceRoot) (workerId : String) (candidate : ReuseCandidate) (now : DateTime)
    (limits : EvidenceLimits) (directory : Node) : Prop where
  aware : now.isAware = true
  unexpired : now.utcNaive < candidate.retentionExpiresAt
  found : EvidenceRoot.lstat root [runName candidate.sourceRunId] = .ok directory
  marker : CarriesMarker I workerId candidate directory
  result : HoldsResult I P models workerId candidate limits directory
  artifacts : ∀ record ∈ candidate.artifacts, HoldsArtifact P sha256 limits directory record
  total : (candidate.artifacts.map ArtifactRecord.sizeBytes).sum ≤ limits.maximumTotalBytes

theorem verifyOwnership_ok {found : Except EvidenceError Node} {u : Unit}
    (h : verifyOwnership I found workerId candidate = .ok u) :
    ∃ directory, found = .ok directory ∧ CarriesMarker I workerId candidate directory := by
  unfold verifyOwnership at h
  split at h
  · cases h
  · cases h
  · cases h
  · rename_i marker hmarker
    obtain ⟨directory, hfound, hread⟩ := except_bind_ok.1 hmarker
    obtain ⟨expected, hexpected, hsame⟩ := (Option.any_eq_true _ _).1 (ensure_ok.1 h)
    exact ⟨directory, hfound, marker, expected, hread, hexpected, hsame⟩

theorem isText_eq {v : Value Binary64} {s : String} (h : isText v s = true) : v = .str s := by
  unfold isText at h
  split at h
  · rw [beq_iff_eq.1 h]
  · cases h

theorem isText_inj {v : Value Binary64} {s t : String} (hs : isText v s = true) (ht : isText v t = true) : s = t := by
  have heq := (isText_eq hs).symm.trans (isText_eq ht)
  exact Value.str.inj heq

theorem resultMatches_sound {evidence : ExecutionEvidence} {identity : ReuseIdentity} {identityHash : Value Binary64}
    (h : resultMatches P workerId candidate evidence identity identityHash = true) :
    identityHash = .str candidate.reuseIdentityHash ∧ StoredResult P workerId candidate evidence identity := by
  unfold resultMatches at h
  simp only [Bool.and_eq_true, decide_eq_true_eq, Option.any_eq_true] at h
  obtain ⟨⟨⟨⟨⟨⟨⟨⟨⟨⟨⟨⟨⟨⟨⟨hidentity, hhash⟩, hcomputed⟩, hrun⟩, hworker⟩, hsucceeded⟩, hfingerprint⟩, -⟩, -⟩, -⟩, -⟩, -⟩, -⟩,
    -⟩, hartifacts⟩, provenance, hprovenance, hfresh, hsame⟩ := h
  exact ⟨isText_eq hhash, hidentity, isText_inj hcomputed hhash, hrun, hworker, hfingerprint, hsucceeded, hartifacts,
    provenance, hprovenance, hfresh, isText_inj hsame hhash⟩

theorem getField_getD {fields : List (String × Value Binary64)} {name : String} {s : String}
    (h : (getField fields name).getD .null = .str s) : getField fields name = some (.str s) := by
  cases hfield : getField fields name with
  | none =>
    rw [hfield] at h
    cases h
  | some v =>
    rw [hfield] at h
    exact congrArg some h

theorem checkResult_sound {u : Unit} (h : checkResult I P models directory workerId candidate limits = .ok u) :
    HoldsResult I P models workerId candidate limits directory := by
  unfold checkResult at h
  obtain ⟨payload, hpayload, h⟩ := except_bind_ok.1 h
  split at h
  · rename_i fields
    obtain ⟨_, -, h⟩ := except_bind_ok.1 h
    obtain ⟨evidence, hevidence, h⟩ := except_bind_ok.1 h
    obtain ⟨identity, hidentity, h⟩ := except_bind_ok.1 h
    obtain ⟨hhash, hstored⟩ := resultMatches_sound (ensure_ok.1 h)
    exact ⟨fields, evidence, identity, mapError_ok.1 hpayload, mapError_ok.1 hevidence, mapError_ok.1 hidentity,
      getField_getD hhash, hstored⟩
  · cases h

/-- **The loop over the artifacts checks each of them**, and the sum of their sizes. -/
theorem checkArtifacts_sound {records : List ArtifactRecord} {total : ℕ} {u : Unit}
    (h : checkArtifacts P sha256 directory candidate limits total records = .ok u)
    (htotal : total ≤ limits.maximumTotalBytes) :
    (∀ record ∈ records, HoldsArtifact P sha256 limits directory record) ∧
      total + (records.map ArtifactRecord.sizeBytes).sum ≤ limits.maximumTotalBytes := by
  induction records generalizing total with
  | nil => exact ⟨by simp, by simpa using htotal⟩
  | cons record records ih =>
    unfold checkArtifacts at h
    obtain ⟨_, -, h⟩ := except_bind_ok.1 h
    obtain ⟨data, hdata, h⟩ := except_bind_ok.1 h
    obtain ⟨_, hsize, h⟩ := except_bind_ok.1 h
    obtain ⟨_, hbound, h⟩ := except_bind_ok.1 h
    obtain ⟨_, hsum, h⟩ := except_bind_ok.1 h
    obtain ⟨_, hdigest, h⟩ := except_bind_ok.1 h
    have hsize := of_decide_eq_true (ensure_ok.1 hsize)
    have hbound := of_decide_eq_true (ensure_ok.1 hbound)
    have hdigest := of_decide_eq_true (ensure_ok.1 hdigest)
    obtain ⟨hrest, hall⟩ := ih h (of_decide_eq_true (ensure_ok.1 hsum))
    refine ⟨?_, ?_⟩
    · intro r hr
      rcases List.mem_cons.1 hr with rfl | hr
      · exact ⟨data, mapError_ok.1 hdata, hsize, hdigest, hsize ▸ hbound⟩
      · exact hrest r hr
    · rw [List.map_cons, List.sum_cons, ← hsize]
      omega

/-- **What a verified source is.** -/
theorem verifyReuseCandidate_sound
    (h : (verifyReuseCandidate I P models sha256 root workerId candidate now limits).verified = true) :
    ∃ directory, VerifiedSource I P models sha256 root workerId candidate now limits directory := by
  unfold verifyReuseCandidate at h
  split at h
  · cases h
  · rename_i hchecks
    unfold checkCandidate at hchecks
    obtain ⟨_, haware, hchecks⟩ := except_bind_ok.1 hchecks
    obtain ⟨_, -, hchecks⟩ := except_bind_ok.1 hchecks
    obtain ⟨_, hunexpired, hchecks⟩ := except_bind_ok.1 hchecks
    obtain ⟨_, -, hchecks⟩ := except_bind_ok.1 hchecks
    obtain ⟨_, hmarker, hchecks⟩ := except_bind_ok.1 hchecks
    obtain ⟨directory, hdirectory, hchecks⟩ := except_bind_ok.1 hchecks
    obtain ⟨_, hresult, hchecks⟩ := except_bind_ok.1 hchecks
    obtain ⟨_, hartifacts, -⟩ := except_bind_ok.1 hchecks
    have hfound := mapError_ok.1 hdirectory
    obtain ⟨marked, hmarked, hcarries⟩ := verifyOwnership_ok (mapError_ok.1 hmarker)
    obtain rfl := Except.ok.inj (hmarked.symm.trans hfound)
    obtain ⟨hall, htotal⟩ := checkArtifacts_sound hartifacts (Nat.zero_le _)
    exact ⟨_, ensure_ok.1 haware, of_decide_eq_true (ensure_ok.1 hunexpired), hfound, hcarries,
      checkResult_sound hresult, hall, by rwa [Nat.zero_add] at htotal⟩

/-! ## Expired children -/

/-- A direct child `run-N` whose well-formed marker names the worker and N, and whose retention is an aware instant
that is not after `now`. -/
structure ExpiredRun (I : Interpreter) (textOf : Value Binary64 → String) (workerId : String) (now : Time) (runId : ℤ)
    (child : String × Node) : Prop where
  name : child.1 = runName runId
  positive : 1 ≤ runId
  directory : ∃ entries, child.2 = .directory entries
  marker : ∃ fields, readMarker I child.2 = .ok (.obj fields) ∧ hasKeys fields markerFields = true ∧
    (∃ version, getField fields "schema_version" = some version ∧ sameValue version (.int 1) = true) ∧
    getField fields "worker_id" = some (.str workerId) ∧ getField fields "run_id" = some (.int runId) ∧
    ∃ expires t, retentionOf textOf fields = some expires ∧ awareInstant expires = some t ∧ t ≤ now

theorem ownedRun_some {name : String} {fields : List (String × Value Binary64)} :
    ownedRun workerId name fields = some runId ↔
      (∃ version, getField fields "schema_version" = some version ∧ sameValue version (.int 1) = true) ∧
        getField fields "worker_id" = some (.str workerId) ∧ getField fields "run_id" = some (.int runId) ∧
        1 ≤ runId ∧ name = runName runId := by
  unfold ownedRun
  constructor
  · intro h
    split at h
    · rename_i version worker stored hversion hworker hrun
      split at h
      · rename_i hchecks
        obtain rfl := Option.some.inj h
        obtain ⟨hone, htext, hpositive, hname⟩ := hchecks
        exact ⟨⟨version, hversion, hone⟩, by rw [hworker, isText_eq htext], hrun, hpositive, hname⟩
      · cases h
    · cases h
  · rintro ⟨⟨version, hversion, hone⟩, hworker, hrun, hpositive, hname⟩
    rw [hversion, hworker, hrun]
    exact if_pos ⟨hone, beq_self_eq_true workerId, hpositive, hname⟩

/-- **Which children are removed.** -/
theorem pruneCandidate_removes_iff {t : Time} :
    pruneCandidate I textOf workerId t child = .ok (some runId) ↔ ExpiredRun I textOf workerId t runId child := by
  unfold pruneCandidate
  constructor
  · intro h
    split at h
    · cases h
    · rename_i entries hentries
      obtain ⟨marker, hmarker, h⟩ := except_bind_ok.1 h
      split at h
      · rename_i fields
        obtain ⟨_, hkeys, h⟩ := except_bind_ok.1 h
        split at h
        · cases h
        · rename_i owned howned
          split at h
          · cases h
          · rename_i expires hexpires
            split at h
            · rename_i hpast
              obtain rfl := Option.some.inj (except_pure_ok.1 h)
              obtain ⟨hversion, hworker, hrun, hpositive, hname⟩ := ownedRun_some.1 howned
              obtain ⟨instant, hinstant, hle⟩ := (Option.any_eq_true _ _).1 hpast
              exact ⟨hname, hpositive, ⟨entries, hentries⟩, fields, hmarker, ensure_ok.1 hkeys, hversion, hworker, hrun,
                expires, instant, hexpires, hinstant, of_decide_eq_true hle⟩
            · cases except_pure_ok.1 h
      · cases h
  · rintro ⟨hname, hpositive, ⟨entries, hentries⟩, fields, hmarker, hkeys, hversion, hworker, hrun, expires, instant,
      hexpires, hinstant, hle⟩
    have howned : ownedRun workerId child.1 fields = some runId :=
      ownedRun_some.2 ⟨hversion, hworker, hrun, hpositive, hname⟩
    have hpast : (awareInstant expires).any (fun s => decide (s ≤ t)) = true :=
      (Option.any_eq_true _ _).2 ⟨instant, hinstant, decide_eq_true hle⟩
    simp only [hentries] at hmarker ⊢
    simp only [hmarker, bind, Except.bind, hkeys, ensure, if_true, howned, hexpires, hpast]
    rfl

/-- The run of a child that is removed. -/
def removedRun (I : Interpreter) (textOf : Value Binary64 → String) (workerId : String) (t : Time)
    (child : String × Node) : Option ℤ :=
  match pruneCandidate I textOf workerId t child with
  | .ok removed => removed
  | .error _ => none

theorem removedRun_some {t : Time} :
    removedRun I textOf workerId t child = some runId ↔ ExpiredRun I textOf workerId t runId child := by
  rw [← pruneCandidate_removes_iff]
  unfold removedRun
  split
  · rename_i removed hremoved
    rw [hremoved]
    exact ⟨congrArg _, fun h => Except.ok.inj h⟩
  · rename_i e herror
    rw [herror]
    exact iff_of_false (by simp) (by simp)

/-- **The loop removes the expired children and no others**, and reports their runs in the order of the names. -/
theorem pruneLoop_spec (I : Interpreter) (textOf : Value Binary64 → String) (workerId : String) (t : Time)
    (children : List (String × Node)) (result : PruneResult) (root : EvidenceRoot) :
    (pruneLoop I textOf workerId t children result root).1.removedRunIds =
        result.removedRunIds ++ children.filterMap (removedRun I textOf workerId t) ∧
      ∀ child, child ∈ (pruneLoop I textOf workerId t children result root).2.children ↔
        child ∈ root.children ∧
          ∀ other ∈ children, (removedRun I textOf workerId t other).isSome = true → other.1 ≠ child.1 := by
  induction children generalizing result root with
  | nil => simp [pruneLoop]
  | cons first children ih =>
    unfold pruneLoop
    rw [List.filterMap_cons]
    split
    · -- the child is removed
      rename_i runId hremoved
      have hrun : removedRun I textOf workerId t first = some runId := by
        unfold removedRun
        rw [hremoved]
      obtain ⟨hids, hchildren⟩ := ih { result with removedRunIds := result.removedRunIds ++ [runId] } (root.remove first.1)
      refine ⟨by rw [hids, hrun]; simp, fun child => ?_⟩
      rw [hchildren, List.forall_mem_cons, hrun]
      unfold EvidenceRoot.remove
      simp only [List.mem_filter, bne_iff_ne, ne_eq, Option.isSome_some, true_imp_iff]
      constructor
      · rintro ⟨⟨hmem, hne⟩, hothers⟩
        exact ⟨hmem, fun heq => hne heq.symm, hothers⟩
      · rintro ⟨hmem, hne, hothers⟩
        exact ⟨⟨hmem, fun heq => hne heq.symm⟩, hothers⟩
    · rename_i hkept
      have hrun : removedRun I textOf workerId t first = none := by
        unfold removedRun
        rw [hkept]
      obtain ⟨hids, hchildren⟩ := ih result root
      refine ⟨by rw [hids, hrun], fun child => ?_⟩
      rw [hchildren, List.forall_mem_cons, hrun]
      simp
    · rename_i e hfailed
      have hrun : removedRun I textOf workerId t first = none := by
        unfold removedRun
        rw [hfailed]
      obtain ⟨hids, hchildren⟩ := ih { result with failures := result.failures ++ [s!"{first.1}:{e.typeName}"] } root
      refine ⟨by rw [hids, hrun], fun child => ?_⟩
      rw [hchildren, List.forall_mem_cons, hrun]
      simp

/-! ## Verified sources stay -/

/-- The text of an instant in a marker is read back as the instant. -/
theorem isoUtc_read {t : Time} {s : String} (h : isoUtc t = some s) :
    ∃ d, IsoTime.fromIsoformat (PyText.replace "Z".toList "+00:00".toList s.toList) = some (d, some 0) ∧
      d.instant = t := by
  obtain ⟨d, hd, rfl⟩ := Option.map_eq_some_iff.1 h
  obtain ⟨hvalid, hinstant⟩ := IsoTime.fieldsOf_spec hd
  have habsent : ∀ c, JsonText.isDigit c = false → c ∉ ['-', 'T', ':', '.'] → c ∉ IsoTime.isoformat d := by
    intro c hdigit hother hc
    rcases IsoTime.isoformat_chars hc with h | h
    · rw [hdigit] at h
      cases h
    · exact hother h
  have hwritten : PyText.replace "+00:00".toList "Z".toList (IsoTime.isoformat d ++ "+00:00".toList) =
      IsoTime.isoformat d ++ "Z".toList :=
    (PyText.replace_append (habsent '+' (by decide) (by decide)) _).trans (congrArg _ (by decide))
  have hread : PyText.replace "Z".toList "+00:00".toList (IsoTime.isoformat d ++ "Z".toList) =
      IsoTime.isoformat d ++ "+00:00".toList :=
    (PyText.replace_append (habsent 'Z' (by decide) (by decide)) _).trans (congrArg _ (by decide))
  have htext : (String.ofList (IsoTime.isoformat d ++ "Z".toList)).toList = IsoTime.isoformat d ++ "Z".toList :=
    String.toList_ofList
  rw [hwritten, htext, hread]
  exact ⟨d, IsoTime.fromIsoformat_isoformat hvalid, hinstant⟩

theorem sameFields_field {fields others : List (String × Value Binary64)} (h : sameFields fields others = true)
    {name : String} {v : Value Binary64} (hfield : getField fields name = some v) :
    ∃ w, getField others name = some w ∧ sameValue v w = true := by
  induction fields with
  | nil => cases hfield
  | cons first fields ih =>
    obtain ⟨key, value⟩ := first
    unfold sameFields at h
    obtain ⟨hfirst, hrest⟩ := Bool.and_eq_true_iff.1 h
    unfold getField at hfield
    by_cases hkey : (key == name) = true
    · simp only [List.find?_cons, hkey] at hfield
      obtain rfl : value = v := Option.some.inj hfield
      obtain rfl := beq_iff_eq.1 hkey
      split at hfirst
      · cases hfirst
      · rename_i w hw
        exact ⟨w, hw, hfirst⟩
    · simp only [List.find?_cons, hkey] at hfield
      exact ih hrest hfield

theorem sameValue_text {v : Value Binary64} {s : String} (h : sameValue v (.str s) = true) : v = .str s := by
  unfold sameValue at h
  split at h
  all_goals first
    | (rename_i ha hb; cases hb; rw [beq_iff_eq.1 h])
    | simp_all [equalsNumber]

theorem hasKeys_getField {fields : List (String × Value Binary64)} {names : List String} {name : String}
    (h : hasKeys fields names = true) (hname : name ∈ names) : ∃ v, getField fields name = some v := by
  unfold hasKeys at h
  have hpresent := List.all_eq_true.1 (Bool.and_eq_true_iff.1 h).2 name hname
  obtain ⟨field, hfield, hkey⟩ := List.any_eq_true.1 hpresent
  unfold getField
  cases hfind : fields.find? fun f => f.1 == name with
  | none => exact absurd hkey (by simpa using List.find?_eq_none.1 hfind field hfield)
  | some found => exact ⟨found.2, rfl⟩

/-- **A marker that verifies a source is not expired for the pruning**, whichever worker prunes. -/
theorem expectedMarker_retained {name pruner : String} {t : Time} (hcarries : CarriesMarker I workerId candidate directory)
    (hunexpired : t < candidate.retentionExpiresAt) : ¬ExpiredRun I textOf pruner t runId (name, directory) := by
  intro hexpired
  obtain ⟨fields, hread, hkeys, -, -, -, expires, instant, hexpires, hinstant, hle⟩ := hexpired.marker
  obtain ⟨marker, expected, hmarker, hexpected, hsame⟩ := hcarries
  obtain rfl := Except.ok.inj (hread.symm.trans hmarker)
  unfold expectedMarker at hexpected
  obtain ⟨created, -, hexpected⟩ := Option.bind_eq_some_iff.1 hexpected
  obtain ⟨text, htext, hexpected⟩ := Option.bind_eq_some_iff.1 hexpected
  obtain rfl := Option.some.inj hexpected
  unfold sameValue at hsame
  have hnamed : "retention_expires_at" ∈ markerFields := by decide
  obtain ⟨v, hv⟩ := hasKeys_getField hkeys hnamed
  obtain ⟨w, hw, hvw⟩ := sameFields_field (Bool.and_eq_true_iff.1 hsame).2 hv
  obtain rfl : Value.str text = w := Option.some.inj hw
  obtain rfl := sameValue_text hvw
  -- the pruning reads the text that the verification has written
  obtain ⟨d, hd, hdate⟩ := isoUtc_read htext
  unfold retentionOf at hexpires
  rw [hv] at hexpires
  obtain rfl := Option.some.inj (hd.symm.trans hexpires)
  obtain rfl := Option.some.inj hinstant
  dsimp only at hle
  rw [hdate, sub_zero] at hle
  exact absurd hunexpired (not_lt.2 hle)

theorem lstat_child {root : EvidenceRoot} {name : String} (h : EvidenceRoot.lstat (some root) [name] = .ok directory) :
    (name, directory) ∈ root.children := by
  unfold EvidenceRoot.lstat Node.lstat at h
  dsimp only at h
  split at h
  · cases h
  · rename_i found node hfound
    unfold Node.lstat at h
    obtain rfl := Except.ok.inj h
    obtain rfl : found = name := by simpa using List.find?_some hfound
    exact List.mem_of_find?_eq_some hfound

theorem child_unique {root : EvidenceRoot} {first second : String × Node} (hfirst : first ∈ root.children)
    (hsecond : second ∈ root.children) (hname : first.1 = second.1) : first = second :=
  List.inj_on_of_nodup_map root.distinct hfirst hsecond hname

/-- **Retained evidence is verified soundly and pruned safely**, whatever the evidence root holds. What the pruning
leaves of it are the children that have not expired, and a verified source is one of them. -/
theorem retainedEvidence_sound (I : Interpreter) (P : Platform) (models : EvidenceModels) (sha256 : Bytes → String)
    (textOf : Value Binary64 → String) (root : EvidenceRoot) (workerId pruner : String) (candidate : ReuseCandidate)
    (limits : EvidenceLimits) (now : DateTime) (haware : now.isAware = true) :
    ∃ result rest, pruneExpiredEvidence I textOf (some root) pruner now = .ok (result, some rest) ∧
      (∀ child, child ∈ rest.children ↔
        child ∈ root.children ∧ ∀ runId, ¬ExpiredRun I textOf pruner now.utcNaive runId child) ∧
      (∀ runId, runId ∈ result.removedRunIds ↔
        ∃ child ∈ root.children, ExpiredRun I textOf pruner now.utcNaive runId child) ∧
      ((verifyReuseCandidate I P models sha256 (some root) workerId candidate now limits).verified = true →
        ∃ directory, VerifiedSource I P models sha256 (some root) workerId candidate now limits directory ∧
          (runName candidate.sourceRunId, directory) ∈ rest.children) := by
  obtain ⟨hids, hchildren⟩ := pruneLoop_spec I textOf pruner now.utcNaive
    (root.children.mergeSort fun a b => decide (a.1 ≤ b.1)) ⟨[], []⟩ root
  have hrest : ∀ child,
      child ∈ (pruneLoop I textOf pruner now.utcNaive (root.children.mergeSort fun a b => decide (a.1 ≤ b.1)) ⟨[], []⟩
        root).2.children ↔
      child ∈ root.children ∧ ∀ runId, ¬ExpiredRun I textOf pruner now.utcNaive runId child := by
    intro child
    rw [hchildren]
    refine and_congr_right fun hchild => ⟨fun h runId hexpired => ?_, fun h other hother hremoved hname => ?_⟩
    · exact h child (List.mem_mergeSort.2 hchild) (by rw [removedRun_some.2 hexpired]; rfl) rfl
    · obtain ⟨runId, hrun⟩ := Option.isSome_iff_exists.1 hremoved
      obtain rfl := child_unique (List.mem_mergeSort.1 hother) hchild hname
      exact h runId (removedRun_some.1 hrun)
  refine ⟨_, _, by unfold pruneExpiredEvidence ensure; rw [if_pos haware]; rfl, hrest, fun runId => ?_, fun hverified => ?_⟩
  · rw [hids, List.nil_append, List.mem_filterMap]
    constructor
    · rintro ⟨child, hchild, hrun⟩
      exact ⟨child, List.mem_mergeSort.1 hchild, removedRun_some.1 hrun⟩
    · rintro ⟨child, hchild, hexpired⟩
      exact ⟨child, List.mem_mergeSort.2 hchild, removedRun_some.2 hexpired⟩
  · obtain ⟨directory, hsource⟩ := verifyReuseCandidate_sound hverified
    refine ⟨directory, hsource, (hrest _).2 ⟨lstat_child hsource.found, fun runId => ?_⟩⟩
    exact expectedMarker_retained hsource.marker hsource.unexpired

/-! ### Examples -/

def asciiBytes (text : String) : Bytes := text.toList.map fun c => UInt8.ofNat c.toNat

def sampleRecord : ArtifactRecord :=
  { kind := "log", relativePath := "logs/step.txt", sizeBytes := 4, sha256 := "hash", mediaType := "text/plain"
    retentionExpiresAt := 86400000000, redacted := false, producedByStep := none }

/-- The directory of a run of the worker "w" that began with the year 1. -/
def sampleRunDirectory (runId expires : String) : Node :=
  .directory
    [("ownership.json", .file (asciiBytes (
        "\x7b\"created_at\":\"0001-01-01T00:00:00Z\",\"retention_expires_at\":\"" ++ expires ++
        "\",\"run_id\":" ++ runId ++ ",\"schema_version\":1,\"worker_id\":\"w\"\x7d"))),
     ("result.json", .file (asciiBytes
        "\x7b\"evidence\":1,\"result_summary\":2,\"reuse_identity\":3,\"reuse_identity_hash\":\"identity\"\x7d")),
     ("logs", .directory [("step.txt", .file (asciiBytes "text"))])]

/-- Run 5 is kept for a day, run 6 for a second. -/
def sampleEvidenceRoot : EvidenceRoot :=
  { children := [("run-5", sampleRunDirectory "5" "0001-01-02T00:00:00Z"),
      ("run-6", sampleRunDirectory "6" "0001-01-01T00:00:01Z")]
    distinct := by decide }

def sampleSource : ExecutionEvidence :=
  { sampleEvidence 5 1 ⟨.fresh, "executed", "identity", none, none⟩ with artifacts := [sampleRecord] }

def sampleModels : EvidenceModels :=
  { evidence := fun _ => .ok sampleSource
    identity := fun _ => .ok sampleIdentity }

def sampleCandidate : ReuseCandidate :=
  { sourceRunId := 5, expectedSourceWorkerId := "w", expectedSourceEvidenceFingerprint := "evidence"
    reuseIdentity := sampleIdentity, reuseIdentityHash := "identity", sourceCreatedAt := 0
    retentionExpiresAt := 86400000000, artifacts := [sampleRecord] }

def oneHour : DateTime := ⟨3600000000, some 0⟩

/-- After an hour run 5 is verified and stays, and run 6 is removed. -/
theorem sampleEvidenceRoot_sound :
    ∃ result rest,
      pruneExpiredEvidence plainInterpreter (fun _ => "") (some sampleEvidenceRoot) "w" oneHour =
        .ok (result, some rest) ∧
      6 ∈ result.removedRunIds ∧ ∃ directory, ("run-5", directory) ∈ rest.children := by
  have hverified : (verifyReuseCandidate plainInterpreter samplePlatform sampleModels (fun _ => "hash")
      (some sampleEvidenceRoot) "w" sampleCandidate oneHour ⟨1, 1000, 1000⟩).verified = true := by decide +kernel
  have hexpired : removedRun plainInterpreter (fun _ => "") "w" 3600000000
      ("run-6", sampleRunDirectory "6" "0001-01-01T00:00:01Z") = some 6 := by decide +kernel
  obtain ⟨result, rest, hpruned, -, hremoved, hkept⟩ := retainedEvidence_sound plainInterpreter samplePlatform
    sampleModels (fun _ => "hash") (fun _ => "") sampleEvidenceRoot "w" "w" sampleCandidate ⟨1, 1000, 1000⟩ oneHour rfl
  obtain ⟨directory, -, hmem⟩ := hkept hverified
  exact ⟨result, rest, hpruned, (hremoved 6).2 ⟨_, by simp [sampleEvidenceRoot], removedRun_some.1 hexpired⟩,
    directory, hmem⟩

end Switchboard
