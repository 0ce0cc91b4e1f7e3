import Switchboard.Proof.Lookups
import Switchboard.Proof.Finally

/-!
# Which completions the service accepts

* `completionChecks_sendable`: when the service accepts a report that agrees with itself.
* `pollOnce_accepted_iff`: it accepts the completion of an attempt unless the attempt
  ended without a decision under `require_exact`, or without the declared locks.
-/

namespace Switchboard

open Table Transaction Try

variable {P : Platform} {host : Host} {order : AssignedWorkOrder} {manifest : TrustedManifest} {environment : String}
  {store : EvidenceStore} {a : Attempt}

/-! ## The checks of the service -/

section checks

variable {o : WorkOrder} {r : ExecutionRun} {n : LeaseSnapshot} {s : Database} {f : Attempt}

/-- What the service has to find in a completion, apart from the decision and the identity. -/
structure Sendable (P : Platform) (n : LeaseSnapshot) (o : WorkOrder) (r : ExecutionRun) (f : Attempt) : Prop where
  unavailable : f.reuseDecision = .unavailable → o.spec.reusePolicy = .requireExact ∧ f.terminal ≠ .succeeded
  identityHash : f.reuseIdentityHash = f.reuseIdentity.map P.reuseIdentityHash
  reused : f.reuseDecision = .reused → ∃ identity candidate, f.reuseIdentity = some identity ∧
    r.reuse.candidateMetadata = some candidate ∧ f.lookup.bind ReuseLookup.candidate = some candidate ∧
    candidate.reuseIdentity = identity ∧ candidate.reuseIdentityHash = P.reuseIdentityHash identity
  evidence : ∀ e, f.evidence = some e → ∀ summary,
    Service.evidenceMatches n (f.completion summary) o e = true ∧
    (∃ identityHash, f.reuseIdentityHash = some identityHash ∧
      e.reuseProvenance = some (reuseProvenance identityHash f)) ∧
    ∃ store, f.store = some store ∧ ∀ x ∈ e.artifacts, x.retentionExpiresAt = store.retentionExpiresAt

theorem validateCompletionEvidence_sendable {summary : String} (h : Sendable P n o r f)
    (ho : Service.requireWorkOrder n.workOrderId s = .ok o) :
    Service.validateCompletionEvidence n (f.completion summary) s = .ok () := by
  unfold Service.validateCompletionEvidence
  cases he : f.evidence with
  | none =>
    rw [show (f.completion summary).evidenceMetadata = none from he]
    simp [Attempt.completion, he]
  | some e =>
    rw [show (f.completion summary).evidenceMetadata = some e from he]
    simp [ho, (h.evidence e he summary).1]

/-- The checks of the decision, for the three decisions of a worker. -/
theorem checkDecision_iff {policy : ReusePolicy} {status : TerminalStatus} {decision : ProvenanceDecision}
    (hun : decision = .unavailable → policy = .requireExact ∧ status ≠ .succeeded) {d : ReuseDecision} :
    Service.checkDecision policy status.toRun (some decision.toDecision) = .ok d ↔
      decision.toDecision = d ∧ ¬ (policy = .requireExact ∧ decision = .fresh) := by
  unfold Service.checkDecision
  simp only [except_bind_ok, ensure_ok, except_pure_ok, exists_and_left]
  cases decision with
  | fresh => cases policy <;> simp [ProvenanceDecision.toDecision]
  | reused => cases policy <;> simp [ProvenanceDecision.toDecision]
  | unavailable =>
    obtain ⟨rfl, hs⟩ := hun rfl
    cases status <;> simp_all [ProvenanceDecision.toDecision, TerminalStatus.toRun]

/-- The identity under which the service checks a completion: the reported one, or the one of the lookup. -/
theorem checkIdentity_iff (h : f.reuseIdentityHash = f.reuseIdentity.map P.reuseIdentityHash)
    (hstored : StoredIdentity P r.reuse o) (hhash : ∀ identity, P.reuseIdentityHash identity ≠ "") :
    Service.checkIdentity P o (f.reuseIdentity.or r.reuse.identity) (orText f.reuseIdentityHash r.reuse.identityHash) =
        .ok () ↔
      ∀ identity, f.reuseIdentity = some identity → Service.validateReuseIdentity P o identity = .ok () := by
  cases hid : f.reuseIdentity with
  | some identity => simp [h, hid, orText, hhash, Service.checkIdentity, Unique.exists_iff]
  | none =>
    rcases hstored with ⟨hno, -⟩ | ⟨identity, hsome, hh, hvalid⟩
    · simp [hno, Service.checkIdentity]
    · simp [h, hid, hsome, hh, hvalid, orText, Service.checkIdentity]

/-- The source of the report is the candidate that the run holds. -/
theorem reuseSource_sendable (h : Sendable P n o r f) (hhash : ∀ identity, P.reuseIdentityHash identity ≠ "") :
    Service.reuseSource r f.reuseDecision.toDecision (f.reuseIdentity.or r.reuse.identity)
        (orText f.reuseIdentityHash r.reuse.identityHash) =
      .ok ((reuseProvenance "" f).sourceRunId, (reuseProvenance "" f).sourceEvidenceFingerprint) := by
  unfold Service.reuseSource
  by_cases hd : f.reuseDecision = .reused
  · obtain ⟨identity, candidate, hid, hcand, hlookup, hcid, hch⟩ := h.reused hd
    have hdec : f.reuseDecision.toDecision = .reused := by rw [hd]; rfl
    rw [if_pos hdec, hcand, hid, h.identityHash, hid]
    simp [orText, hhash, hcid, hch, reuseProvenance, hd, hlookup, Transaction.ensure, Bind.bind, Except.bind, Pure.pure,
      Except.pure]
  · have hdec : f.reuseDecision.toDecision ≠ .reused := by
      intro hc
      cases hf : f.reuseDecision <;> rw [hf] at hd hc
      · cases hc
      · exact hd rfl
      · cases hc
    rw [if_neg hdec]
    simp [reuseProvenance, hd]

theorem checkEvidenceReuse_sendable {summary : String} {legacy : Bool} (h : Sendable P n o r f)
    (hhash : ∀ identity, P.reuseIdentityHash identity ≠ "")
    (hlegacy : f.evidence.isSome = true → legacy = false) :
    Service.checkEvidenceReuse (f.completion summary) legacy f.reuseDecision.toDecision
        (orText f.reuseIdentityHash r.reuse.identityHash)
        ((reuseProvenance "" f).sourceRunId, (reuseProvenance "" f).sourceEvidenceFingerprint) = .ok () := by
  unfold Service.checkEvidenceReuse
  cases he : f.evidence with
  | none =>
    rw [show (f.completion summary).evidenceMetadata = none from he]
    simp [Attempt.completion, he]
  | some e =>
    obtain ⟨-, ⟨identityHash, hfh, hprov⟩, store, hstore, hret⟩ := h.evidence e he summary
    rw [show (f.completion summary).evidenceMetadata = some e from he, hlegacy (by simp [he])]
    have hne : identityHash ≠ "" := by
      rw [h.identityHash] at hfh
      obtain ⟨identity, -, rfl⟩ := Option.map_eq_some_iff.1 hfh
      exact hhash identity
    have hretention : (f.completion summary).evidenceRetentionExpiresAt = some ⟨store.retentionExpiresAt, some 0⟩ := by
      simp [Attempt.completion, he, hstore]
    show Service.checkProvenance _ _ _ _ _ = .ok ()
    unfold Service.checkProvenance
    rw [hprov, hretention]
    simpa [hfh, orText, hne, reuseProvenance, DateTime.isAware, DateTime.utcNaive] using hret

/-- **A sound report is accepted** unless its decision is forbidden by the policy or its identity is not the
order's. -/
theorem reuseColumns_sendable {summary : String} (h : Sendable P n o r f) (hstored : StoredIdentity P r.reuse o)
    (hhash : ∀ identity, P.reuseIdentityHash identity ≠ "") :
    (∃ columns, Service.reuseColumns P r o (f.completion summary) = .ok columns) ↔
      ¬ (o.spec.reusePolicy = .requireExact ∧ f.reuseDecision = .fresh) ∧
        ∀ identity, f.reuseIdentity = some identity → Service.validateReuseIdentity P o identity = .ok () := by
  have hlegacy : f.evidence.isSome = true →
      Service.isLegacyNeverEvidence o (f.completion summary) (f.reuseIdentity.or r.reuse.identity)
        (orText f.reuseIdentityHash r.reuse.identityHash) = false := by
    intro he
    obtain ⟨e, he⟩ := Option.isSome_iff_exists.1 he
    obtain ⟨-, ⟨_, -, hprov⟩, -⟩ := h.evidence e he summary
    simp [Service.isLegacyNeverEvidence, Attempt.completion, he, hprov]
  have hneeds : (f.completion summary).evidenceMetadata.isSome = true →
      (f.reuseIdentity.or r.reuse.identity).isNone = false := by
    intro he
    obtain ⟨e, he⟩ := Option.isSome_iff_exists.1 he
    obtain ⟨-, ⟨_, hfh, -⟩, -⟩ := h.evidence e he summary
    rw [h.identityHash] at hfh
    obtain ⟨identity, hid, -⟩ := Option.map_eq_some_iff.1 hfh
    simp [hid]
  unfold Service.reuseColumns
  simp only [except_bind_ok]
  constructor
  · rintro ⟨columns, d, hd, _, hid, -⟩
    obtain ⟨-, hallowed⟩ := (checkDecision_iff h.unavailable).1 hd
    exact ⟨hallowed, (checkIdentity_iff h.identityHash hstored hhash).1 hid⟩
  · rintro ⟨hallowed, hvalid⟩
    refine ⟨_, f.reuseDecision.toDecision, (checkDecision_iff h.unavailable).2 ⟨rfl, hallowed⟩, (),
      (checkIdentity_iff h.identityHash hstored hhash).2 hvalid, (), ?_, _, reuseSource_sendable h hhash, (),
      checkEvidenceReuse_sendable h hhash hlegacy, rfl⟩
    rw [ensure_ok]
    cases he : (f.completion summary).evidenceMetadata.isSome with
    | false => rfl
    | true =>
      have hid := hneeds he
      show (!(true && (f.reuseIdentity.or r.reuse.identity).isNone && _)) = true
      rw [hid]
      rfl

/-- The only exceptions of a check are lifecycle conflicts. -/
def OnlyConflicts {α : Type} (x : Except ExecutionError α) : Prop := ∀ e, x = .error e → ∃ m, e = .lifecycleConflict m

theorem onlyConflicts_ensure (c : Bool) (m : String) : OnlyConflicts (ensure c (.lifecycleConflict m)) := by
  intro e he
  unfold ensure at he
  split at he
  · cases he
  · cases he; exact ⟨m, rfl⟩

theorem onlyConflicts_ok {α : Type} (a : α) : OnlyConflicts (.ok a) := nofun

theorem OnlyConflicts.bind {α β : Type} {x : Except ExecutionError α} {g : α → Except ExecutionError β}
    (hx : OnlyConflicts x) (hg : ∀ a, OnlyConflicts (g a)) : OnlyConflicts (x >>= g) := by
  cases x with
  | ok a => exact hg a
  | error e => intro e' he'; cases he'; exact hx e rfl

theorem validateReuseIdentity_onlyConflicts
    (h : (P.getTrustedManifest o.spec.manifestName o.spec.manifestVersion).isSome = true) (identity : ReuseIdentity) :
    OnlyConflicts (Service.validateReuseIdentity P o identity) := by
  unfold Service.validateReuseIdentity
  split
  · rename_i hnone; rw [hnone] at h; cases h
  · exact onlyConflicts_ensure _ _

theorem reuseColumns_onlyConflicts {completion : ExecutionCompletion} (hstored : StoredIdentity P r.reuse o)
    (h : completion.reuseIdentity.isSome = true →
      (P.getTrustedManifest o.spec.manifestName o.spec.manifestVersion).isSome = true) :
    OnlyConflicts (Service.reuseColumns P r o completion) := by
  unfold Service.reuseColumns
  refine OnlyConflicts.bind ?_ fun d => OnlyConflicts.bind ?_ fun _ => (onlyConflicts_ensure _ _).bind fun _ =>
    OnlyConflicts.bind ?_ fun source => OnlyConflicts.bind ?_ fun _ => onlyConflicts_ok _
  · unfold Service.checkDecision
    split
    · exact (onlyConflicts_ensure _ _).bind fun _ => (onlyConflicts_ensure _ _).bind fun _ =>
        (onlyConflicts_ensure _ _).bind fun _ => (onlyConflicts_ensure _ _).bind fun _ => onlyConflicts_ok _
    · exact fun e he => ⟨_, (Except.error.inj he).symm⟩
  · unfold Service.checkIdentity
    split
    · exact onlyConflicts_ok _
    · rename_i identity hid
      refine OnlyConflicts.bind ?_ fun _ => onlyConflicts_ensure _ _
      cases hc : completion.reuseIdentity with
      | some reported => exact validateReuseIdentity_onlyConflicts (h (by simp [hc])) identity
      | none =>
        -- a stored identity has been checked
        rw [hc, Option.none_or] at hid
        rcases hstored with ⟨hno, -⟩ | ⟨stored, hsome, -, hvalid⟩
        · rw [hno] at hid; cases hid
        · obtain rfl := Option.some.inj (hsome.symm.trans hid)
          rw [hvalid]; exact onlyConflicts_ok _
  · unfold Service.reuseSource
    split
    · split
      · exact (onlyConflicts_ensure _ _).bind fun _ => onlyConflicts_ok _
      · exact fun e he => ⟨_, (Except.error.inj he).symm⟩
    · exact onlyConflicts_ok _
  · unfold Service.checkEvidenceReuse
    split
    · split
      · exact onlyConflicts_ensure _ _
      · unfold Service.checkProvenance
        split
        · exact fun e he => ⟨_, (Except.error.inj he).symm⟩
        · refine (onlyConflicts_ensure _ _).bind fun _ => (onlyConflicts_ensure _ _).bind fun _ =>
            (onlyConflicts_ensure _ _).bind fun _ => ?_
          split
          · exact fun e he => ⟨_, (Except.error.inj he).symm⟩
          · exact (onlyConflicts_ensure _ _).bind fun _ => onlyConflicts_ensure _ _
    · exact onlyConflicts_ensure _ _

/-- When the service accepts a sound report. -/
theorem completionChecks_sendable {summary : String} (h : Sendable P n o r f) (hstored : StoredIdentity P r.reuse o)
    (hhash : ∀ identity, P.reuseIdentityHash identity ≠ "")
    (htrusted : f.reuseIdentity.isSome = true →
      (P.getTrustedManifest o.spec.manifestName o.spec.manifestVersion).isSome = true)
    (hr : Service.requireRun n.executionRunId s = .ok r) (ho : Service.requireWorkOrder n.workOrderId s = .ok o) :
    (∀ m, Service.completionChecks P n (f.completion summary) s ≠ .error (.lifecycleConflict m)) ↔
      ¬ (o.spec.reusePolicy = .requireExact ∧ f.reuseDecision = .fresh) ∧
        ∀ identity, f.reuseIdentity = some identity → Service.validateReuseIdentity P o identity = .ok () := by
  have hchecks : Service.completionChecks P n (f.completion summary) s =
      Service.reuseColumns P r o (f.completion summary) := by
    unfold Service.completionChecks Service.reuseCompletionValues
    rw [validateCompletionEvidence_sendable h ho, hr, ho]
    rfl
  rw [hchecks, ← reuseColumns_sendable h hstored hhash]
  have honly : OnlyConflicts (Service.reuseColumns P r o (f.completion summary)) :=
    reuseColumns_onlyConflicts hstored htrusted
  cases hc : Service.reuseColumns P r o (f.completion summary) with
  | ok columns => simp
  | error e =>
    obtain ⟨m, rfl⟩ := honly e hc
    exact iff_of_false (fun hall => hall m rfl) (by simp)

end checks

/-! ## The worker and the service -/

/-- What the manifest of an attempt has been compared with. -/
theorem fetchManifest_ok (h : fetchManifest P host order = .ok manifest) :
    P.getTrustedManifest order.spec.manifestName order.spec.manifestVersion = some manifest ∧
      manifest.metadata.name = order.spec.manifestName ∧ manifest.metadata.version = order.spec.manifestVersion ∧
      P.manifestDigest manifest = order.spec.manifestDigest := by
  unfold fetchManifest at h
  obtain ⟨remote, -, h⟩ := except_bind_ok.1 h
  split at h
  · rename_i m hv
    obtain rfl : m = manifest := except_pure_ok.1 h
    unfold validateManifest at hv
    split at hv
    · cases hv
    · rename_i hget
      simp only [except_bind_ok, ensure_ok, except_pure_ok, Bool.and_eq_true, beq_iff_eq] at hv
      obtain ⟨-, -, -, ⟨⟨⟨⟨hname, hversion⟩, hdigest⟩, -⟩, -⟩, hv⟩ := hv
      obtain ⟨-, -, -, -, -, -, -, -, -, -, -, -, -, -, -, -, rfl⟩ := hv
      exact ⟨hget, hname, hversion, hdigest⟩
  · cases h

/-- The identity of an attempt is the order's once it names the declared locks. -/
theorem validateReuseIdentity_iff {o : WorkOrder} (hspec : o.spec = order.spec)
    (hlower : P.lower order.spec.commitSha = order.spec.commitSha) (hfetch : fetchManifest P host order = .ok manifest)
    (locks : List DependencyLockHash) :
    Service.validateReuseIdentity P o (reuseIdentity P order manifest environment locks) = .ok () ↔
      Complete manifest (reuseIdentity P order manifest environment locks).dependencyLockHashes := by
  obtain ⟨hget, hname, hversion, hdigest⟩ := fetchManifest_ok hfetch
  unfold Service.validateReuseIdentity
  rw [hspec, hget]
  simp only [ensure_ok, Service.identityMatches, hspec]
  simp [reuseIdentity, hlower, hname, hversion, hdigest, Complete]

section main

variable {history : List Call} {l : Lease} {o : WorkOrder} {r : ExecutionRun}

/-- What the service holds about the leased run. -/
structure LeasedRun (P : Platform) (history : List Call) (l : Lease) (o : WorkOrder) (r : ExecutionRun) : Prop where
  run : r ∈ (runCalls P history).db.runs
  runId : r.id = l.executionRunId
  active : r.status.isActive = true
  stored : StoredIdentity P r.reuse o
  requireRun : Service.requireRun l.executionRunId (runCalls P history).db = .ok r
  requireOrder : Service.requireWorkOrder l.workOrderId (runCalls P history).db = .ok o
  sha : ∃ sha, o.spec.commitSha = P.lower sha

theorem exists_leasedRun (hl : l ∈ (runCalls P history).db.leases) (ho : o ∈ (runCalls P history).db.orders)
    (hid : o.id = l.workOrderId) : ∃ r, LeasedRun P history l o r := by
  have hw := runCalls_workerFacing P history
  obtain ⟨r, o', hb⟩ := hw.coherent.lease l hl
  obtain rfl : o' = o := hw.keys.orders.unique.eq_of_key hb.order ho (hb.orderId.trans hid.symm)
  exact ⟨r, hb.run, hb.runId, hb.active, hw.lookedUp r hb.run hb.active o' ho hb.ofOrder.symm,
    requireRun_of_mem hw.keys hb.run hb.runId, requireWorkOrder_of_mem hw.keys ho hid, hw.sha o' ho⟩

theorem reports_sendable {f : Attempt} (hr : LeasedRun P history l o r) (hid : o.id = l.workOrderId)
    (h : ServerAnswers P history l o host) (hlower : ∀ s, P.lower (P.lower s) = P.lower s)
    (hc : CheckedOut P host order manifest environment store)
    (hf : Reports P host l.executionRunId order manifest environment store (attempt P host) f) :
    Sendable P l.snapshot o r f := by
  have hw := attempt_worked hc
  obtain ⟨hoid, hspec⟩ := h.order order hc.assigned
  obtain ⟨-, hname, hversion, hdigest⟩ := fetchManifest_ok hc.fetched
  obtain ⟨sha, hsha⟩ := hr.sha
  refine ⟨fun hu => ?_, hf.identityHash, fun hd => ?_, fun e he summary => ?_⟩
  · obtain ⟨hpolicy, hterm⟩ := hw.unavailable (hf.decision.symm.trans hu)
    exact ⟨by rw [← hspec]; exact hpolicy, hf.terminal hterm⟩
  · obtain ⟨identity, lookup, candidate, hsome, hlookup, hcand, hresolve⟩ := hw.reused (hf.decision.symm.trans hd)
    obtain ⟨before, env, after, result, ss, hhist, hcall, hres, hafter⟩ := h.lookup _ _ _ _ hresolve hcand
    have hrun := hr.run
    rw [hhist] at hrun
    obtain ⟨hheld, hcid, hchash⟩ := runCalls_candidateHeld hcall hres hafter hrun hr.runId hr.active
    exact ⟨identity, candidate, hf.early _ hsome, hheld, by rw [hf.lookup, hlookup]; exact hcand, hcid, hchash⟩
  · have ha := hf.evidence e he
    refine ⟨?_, ha.provenance, store, hf.stored, by rw [ha.artifacts]; exact hf.artifacts⟩
    simp [Service.evidenceMatches, Lease.snapshot, Attempt.completion, he, ha.run, ha.workOrder, ha.worker,
      ha.repository, ha.sha, ha.manifestName, ha.manifestVersion, ha.manifestDigest, ha.status, ha.artifacts, hoid,
      hid, h.worker, hspec, hname, hversion, hdigest, hsha, hlower]

/-- An attempt without a checkout is reported as it is. -/
theorem noCheckout_report (h : NoCheckout P host a) (runId : ℕ) :
    finalizeEvidence P host runId (settleSource host a) = a := by
  have hs : settleSource host a = a := by
    unfold settleSource
    rw [if_neg (by simp [h.worktree])]
  rw [hs]
  unfold finalizeEvidence
  split
  · rw [if_neg (by simp [h.worktree])]
  · rfl

theorem noCheckout_sendable (h : ServerAnswers P history l o host) (ha : NoCheckout P host a) :
    Sendable P l.snapshot o r a := by
  refine ⟨fun hu => ?_, by rw [ha.identity, ha.identityHash]; rfl, fun hd => ?_, fun e he => ?_⟩
  · rcases ha.decision with hd | ⟨-, hterm, order, horder, hpolicy⟩
    · rw [hd] at hu; cases hu
    · rw [← (h.order order horder).2, hterm]
      exact ⟨hpolicy, nofun⟩
  · rcases ha.decision with hd' | ⟨hd', -⟩ <;> rw [hd'] at hd <;> cases hd
  · rw [ha.evidence] at he; cases he

/-- The completion of a run that the worker does not admit is accepted: it is unavailable to every policy that
may reuse. -/
theorem admissionRejection_accepted (hr : LeasedRun P history l o r) (reason m : String) :
    Service.completionChecks P l.snapshot (admissionRejection reason) (runCalls P history).db ≠
      .error (.lifecycleConflict m) := by
  have hchecks : Service.completionChecks P l.snapshot (admissionRejection reason) (runCalls P history).db =
      Service.reuseColumns P r o (admissionRejection reason) := by
    have hev : Service.validateCompletionEvidence l.snapshot (admissionRejection reason) (runCalls P history).db =
        .ok () := rfl
    unfold Service.completionChecks Service.reuseCompletionValues
    rw [hev, show l.snapshot.executionRunId = l.executionRunId from rfl, hr.requireRun,
      show l.snapshot.workOrderId = l.workOrderId from rfl, hr.requireOrder]
    rfl
  obtain ⟨d, hd, hreused⟩ : ∃ d, Service.checkDecision o.spec.reusePolicy (admissionRejection reason).status
      (Service.completionDecision o.spec.reusePolicy (admissionRejection reason)) = .ok d ∧ d ≠ .reused := by
    cases o.spec.reusePolicy
    · exact ⟨.fresh, rfl, by simp⟩
    · exact ⟨.unavailable, rfl, by simp⟩
    · exact ⟨.unavailable, rfl, by simp⟩
  have hid : Service.checkIdentity P o r.reuse.identity (orText none r.reuse.identityHash) = .ok () := by
    rcases hr.stored with ⟨hno, -⟩ | ⟨identity, hsome, hh, hvalid⟩
    · rw [hno]; rfl
    · simp [Service.checkIdentity, hsome, hh, hvalid, orText]
  have hsource : Service.reuseSource r d r.reuse.identity (orText none r.reuse.identityHash) = .ok (none, none) := by
    unfold Service.reuseSource
    rw [if_neg hreused]
  have hok : ∃ columns, Service.reuseColumns P r o (admissionRejection reason) = .ok columns := by
    unfold Service.reuseColumns
    simp only [except_bind_ok]
    exact ⟨_, d, hd, (), hid, (), rfl, (none, none), hsource, (), rfl, rfl⟩
  obtain ⟨columns, hok⟩ := hok
  rw [hchecks, hok]
  simp

/-- The attempt ends without a decision, with or without a checkout. -/
theorem endsUndecided_iff (hc : CheckedOut P host order manifest environment store) :
    EndsUndecided P host ↔ CancelledInLookup P host order manifest environment := by
  simp [EndsUndecided, hc.assigned, hc.fetched, hc.monitored, hc.running, hc.identified, hc.stored, hc.checkedOut]

theorem pollOnce_terminal {runId : ℕ} {completion : ExecutionCompletion} (h : pollOnce P host runId = .sent completion) :
    completion.status.isTerminal = true := by
  unfold pollOnce at h
  split at h
  · cases h; rfl
  · simp only [] at h
    split at h
    · cases h
    · split at h
      · cases h
      · cases h
        cases ht : (finalizeEvidence P host runId (settleSource host (attempt P host))).terminal <;>
          simp [Attempt.completion, ht, TerminalStatus.toRun, ExecutionRunStatus.isTerminal]

/-- `complete_run` raises what its checks raise. -/
theorem completeRun_of_checks {completion : ExecutionCompletion} (hl : l ∈ (runCalls P history).db.leases)
    (hr : LeasedRun P history l o r) (hterm : completion.status.isTerminal = true) {e : ExecutionError}
    (he : Service.completionChecks P l.snapshot completion (runCalls P history).db = .error e) (env : Env) :
    Service.completeRun P env l.executionRunId l.workerId completion (runCalls P history) = .error e := by
  have hsnapshot : Repository.getLeaseSnapshotForRun l.executionRunId (runCalls P history).db = some l.snapshot := by
    have hk := runCalls_keys P history
    have hfind := hk.leases.unique.find?_eq (p := fun x => x.executionRunId == l.executionRunId) hl (by simp)
      fun x hx hxl => by
        rw [List.inj_on_of_nodup_map hk.leaseRun hx hl (beq_iff_eq.1 hxl)]
    unfold Repository.getLeaseSnapshotForRun Repository.getLeaseForRun
    rw [hfind]
    rfl
  have hworker : (l.snapshot.workerId == l.workerId) = true := beq_self_eq_true _
  unfold Service.completionChecks at he
  unfold Service.completeRun Service.finishActiveLease
  simp only [Bind.bind, Tx.bind, require, query, Transaction.read, requireSome, hterm, if_true, hr.requireRun, hsnapshot, hworker]
  cases hv : Service.validateCompletionEvidence l.snapshot completion (runCalls P history).db with
  | error e' => rw [hv] at he; cases he; rfl
  | ok _ =>
    rw [hv] at he
    simp only [Bind.bind, Except.bind] at he
    simp only [he]

/-- **When the service accepts what the worker sends.** The completion of an attempt passes the checks of the
service, whatever the host met, except in two cases: the order requires reuse and the attempt ended without a
decision, or the manifest declares dependency locks and none of them could be read. `complete_run` raises what
its checks raise. -/
theorem pollOnce_accepted_iff (hlower : ∀ s, P.lower (P.lower s) = P.lower s)
    (hhash : ∀ identity, P.reuseIdentityHash identity ≠ "") {completion : ExecutionCompletion}
    (hl : l ∈ (runCalls P history).db.leases) (ho : o ∈ (runCalls P history).db.orders) (hid : o.id = l.workOrderId)
    (h : ServerAnswers P history l o host) (hsent : pollOnce P host l.executionRunId = .sent completion) :
    ((∀ m, Service.completionChecks P l.snapshot completion (runCalls P history).db ≠ .error (.lifecycleConflict m)) ↔
      ¬ Unacceptable P host o.spec.reusePolicy) ∧
    ∀ env e, Service.completionChecks P l.snapshot completion (runCalls P history).db = .error e →
      Service.completeRun P env l.executionRunId l.workerId completion (runCalls P history) = .error e := by
  obtain ⟨r, hr⟩ := exists_leasedRun hl ho hid
  refine ⟨?_, fun env e he => completeRun_of_checks hl hr (pollOnce_terminal hsent) he env⟩
  unfold pollOnce at hsent
  unfold Unacceptable
  cases hadm : host.admission with
  | some reason =>
    rw [hadm] at hsent
    obtain rfl : admissionRejection reason = completion := PollResult.sent.inj hsent
    exact iff_of_true (admissionRejection_accepted hr reason) (by simp)
  | none =>
    rw [hadm] at hsent
    simp only [true_and] at hsent ⊢
    split at hsent
    · cases hsent
    · rename_i summary _
      split at hsent
      · cases hsent
      · rename_i hskip
        obtain rfl := PollResult.sent.inj hsent
        rcases attempt_cases P host with ⟨order, manifest, environment, store, hc⟩ | hno
        · have hw := attempt_worked hc
          have hf : Reports P host l.executionRunId order manifest environment store (attempt P host) _ :=
            finalizeEvidence_reports hw.toPrepared
          generalize finalizeEvidence P host l.executionRunId (settleSource host (attempt P host)) = f at hf hskip ⊢
          obtain ⟨-, hspec⟩ := h.order order hc.assigned
          have hvalid : (∀ identity, f.reuseIdentity = some identity →
              Service.validateReuseIdentity P o identity = .ok ()) ↔ ¬ LocksMissing P host := by
            rw [← hf.complete_iff hc]
            refine forall_congr' fun identity => imp_congr_right fun hfid => ?_
            obtain ⟨locks, rfl⟩ := hf.identity_eq hw.toPrepared hfid
            refine validateReuseIdentity_iff hspec.symm ?_ hc.fetched locks
            obtain ⟨sha, hsha⟩ := hr.sha
            rw [hspec, hsha, hlower]
          have hdecided : o.spec.reusePolicy = .requireExact → (f.reuseDecision = .fresh ↔ EndsUndecided P host) := by
            intro hpolicy
            rw [endsUndecided_iff hc, hf.decision]
            exact hw.undecided (by rw [hspec]; exact hpolicy) (hf.skip.symm.trans (by simpa using hskip))
          have htrusted : (P.getTrustedManifest o.spec.manifestName o.spec.manifestVersion).isSome = true := by
            rw [← hspec, (fetchManifest_ok hc.fetched).1]; rfl
          rw [completionChecks_sendable (reports_sendable hr hid h hlower hc hf) hr.stored hhash (fun _ => htrusted)
            hr.requireRun hr.requireOrder, hvalid, not_or]
          exact and_congr_left' (not_congr (and_congr_right hdecided))
        · rw [noCheckout_report hno] at hskip ⊢
          have hlocks : ¬ LocksMissing P host := by
            rintro ⟨order, manifest, environment, store, hc, -⟩
            have hworktree := (attempt_worked hc).worktree
            rw [hno.worktree] at hworktree; cases hworktree
          have hdecided : o.spec.reusePolicy = .requireExact →
              ((attempt P host).reuseDecision = .fresh ↔ EndsUndecided P host) := by
            intro hpolicy
            refine hno.undecided (by simpa using hskip) fun order horder => ?_
            rw [(h.order order horder).2]; exact hpolicy
          rw [completionChecks_sendable (noCheckout_sendable h hno) hr.stored hhash (by simp [hno.identity])
            hr.requireRun hr.requireOrder, not_or]
          refine and_congr (not_congr (and_congr_right hdecided)) (iff_of_true ?_ hlocks)
          simp [hno.identity]

end main

/-! ## A worker without the commit -/

def sampleStep : TrustedStep :=
  { id := "unit", title := "", argv := ["pytest"], required := true, timeoutSeconds := 60, outputSummaryLimit := 1000
    diagnosticOnly := false, artifacts := [] }

def workerManifest : TrustedManifest := { sampleManifest with executionSteps := [sampleStep] }

def workerPlatform : Platform := { samplePlatform with manifests := [workerManifest] }

/-- Nothing fails on this host. -/
def sampleHost (order : AssignedWorkOrder) : Host :=
  { config := ⟨"w", .disabled, 600, 60, 1000⟩, admission := none, workOrder := .ok order
    remoteManifest := .ok ⟨workerManifest.metadata, "digest"⟩, satisfies := fun _ => true, monitor := .ok none
    shutdownAtStart := false, clock := fun _ => 10, environment := .ok "env", store := .ok ⟨1000⟩, worktree := .ok ()
    integrity := fun _ => .ok (), lockDigest := fun _ _ => .ok "digest", acceptsIdentity := fun _ _ => .ok ()
    resolveReuseCandidate := fun _ _ => .ok ⟨"exact_candidate_not_found", none⟩, cancelledAfterLookup := none
    verifyReuseCandidate := fun _ => .ok (true, "verified"), runStep := fun _ s => .result ⟨s.id, .succeeded, none, false⟩
    cancelledAtEnd := none, captureArtifact := fun _ => .ok (), acceptsArtifacts := fun _ => .ok ()
    measureArtifact := fun _ => .ok (0, "digest"), cleanup := .ok (), summary := fun _ _ => .ok emptySummary
    acceptsProvenance := fun _ => .ok (), fingerprint := fun _ => .ok "evidence", writeResult := fun _ => .ok () }

/-- The commit of the order is not in the local mirror. -/
def hostWithoutCommit (order : AssignedWorkOrder) : Host :=
  { sampleHost order with worktree := .error .localCommitUnavailable }

def PollResult.completion? : PollResult → Option ExecutionCompletion
  | .sent completion => some completion
  | _ => none

theorem PollResult.completion?_some {result : PollResult} {completion : ExecutionCompletion}
    (h : result.completion? = some completion) : result = .sent completion := by
  cases result <;> cases h
  rfl

/-- The exception of `complete_run` on what the poll sent. -/
def refusal (P : Platform) (env : Env) (l : Lease) (ss : Session Database) : PollResult → Option ExecutionError
  | .sent completion =>
    match Service.completeRun P env l.executionRunId l.workerId completion ss with
    | .error e => some e
    | .ok _ => none
  | _ => none

theorem refusal_some {env : Env} {l : Lease} {ss : Session Database} {result : PollResult} {e : ExecutionError}
    (h : refusal P env l ss result = some e) :
    ∃ completion, result = .sent completion ∧
      Service.completeRun P env l.executionRunId l.workerId completion ss = .error e := by
  unfold refusal at h
  split at h
  · rename_i completion
    split at h
    · rename_i e' he
      cases h
      exact ⟨completion, rfl, he⟩
    · cases h
  · cases h

theorem sampleHost_answers {history : List Call} {l : Lease} {o : WorkOrder} {host : Host}
    (hhost : host = sampleHost ⟨o.id, o.spec⟩ ∨ host = hostWithoutCommit ⟨o.id, o.spec⟩) (hw : l.workerId = "w") :
    ServerAnswers P history l o host := by
  rcases hhost with rfl | rfl
  all_goals
    refine ⟨hw.symm, fun order horder => ?_, fun identity identityHash lookup candidate hl hc => ?_⟩
    · cases horder; exact ⟨rfl, rfl⟩
    · cases hl; cases hc

/-- The history in which the second order, which requires reuse, has just been checked out. -/
def leasedCalls : List Call := sampleCalls.take 8

theorem leasedCalls_lease : 0 < (runCalls workerPlatform leasedCalls).db.leases.length := by decide +kernel

theorem leasedCalls_order : 1 < (runCalls workerPlatform leasedCalls).db.orders.length := by decide +kernel

def pollLease : Lease := (runCalls workerPlatform leasedCalls).db.leases.get ⟨0, leasedCalls_lease⟩

def pollOrder : WorkOrder := (runCalls workerPlatform leasedCalls).db.orders.get ⟨1, leasedCalls_order⟩

/-- A worker without the commit of an order that requires reuse: its completion is refused. -/
theorem pollOnce_refused :
    ∃ l ∈ (runCalls workerPlatform leasedCalls).db.leases, ∃ o ∈ (runCalls workerPlatform leasedCalls).db.orders,
      o.id = l.workOrderId ∧ (sampleEnv 8).clock 0 < l.expiresAt ∧
      ServerAnswers workerPlatform leasedCalls l o (hostWithoutCommit ⟨o.id, o.spec⟩) ∧
      ∃ completion, pollOnce workerPlatform (hostWithoutCommit ⟨o.id, o.spec⟩) l.executionRunId = .sent completion ∧
        Service.completeRun workerPlatform (sampleEnv 8) l.executionRunId l.workerId completion
          (runCalls workerPlatform leasedCalls) =
        .error (.lifecycleConflict "require_exact_forbids_fresh_execution") := by
  refine ⟨pollLease, List.get_mem _ _, pollOrder, List.get_mem _ _, by decide +kernel, by decide +kernel,
    sampleHost_answers (.inr rfl) (by decide +kernel), ?_⟩
  exact refusal_some (by decide +kernel)

/-- A worker whose host fails nowhere, for the same lease. -/
theorem pollOnce_accepted_iff_sample :
    ∃ completion, pollOnce workerPlatform (sampleHost ⟨pollOrder.id, pollOrder.spec⟩) pollLease.executionRunId =
        .sent completion ∧
      ((∀ m, Service.completionChecks workerPlatform pollLease.snapshot completion
          (runCalls workerPlatform leasedCalls).db ≠ .error (.lifecycleConflict m)) ↔
        ¬ Unacceptable workerPlatform (sampleHost ⟨pollOrder.id, pollOrder.spec⟩) pollOrder.spec.reusePolicy) := by
  have hsent : ((pollOnce workerPlatform (sampleHost ⟨pollOrder.id, pollOrder.spec⟩)
      pollLease.executionRunId).completion?).isSome = true := by decide +kernel
  obtain ⟨completion, hc⟩ := Option.isSome_iff_exists.1 hsent
  have hsent := PollResult.completion?_some hc
  refine ⟨completion, hsent, (pollOnce_accepted_iff (fun _ => rfl) (fun _ => ?_) (List.get_mem _ _)
    (List.get_mem _ _) ?_ (sampleHost_answers (.inl rfl) ?_) hsent).1⟩
  · exact (by decide : "identity" ≠ "")
  · decide +kernel
  · decide +kernel

end Switchboard
