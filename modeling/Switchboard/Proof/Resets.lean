import Switchboard.Proof.Runs

/-!
# Quota resets

The revision of a routing profile only grows, and a reset is applied at the exact revision it
names. A retry therefore finds either its own outcome or a later revision.

* `resetRoutingQuota_cases`: a reset that does not raise found itself applied, or it rewrites the
  profile it names.
* `ProfilesGrow`: what every effect does to the routing profiles.
* `ResetSince.step`: what is not a replacement does not move the reset instant back.
* `runCalls_resets`: a reset request takes effect at most once.
-/

namespace Switchboard

open Table Transaction

variable {P : Platform} {scope : Scope} {ss ss' : Session Database} {s s' : Database} {now : Time}
  {workerId : String} {reset : RoutingQuotaReset}

/-! ## One reset -/

/-- Two requests for one reset; a retry may spell the instant with another offset. -/
structure SameReset (reset reset' : RoutingQuotaReset) : Prop where
  expected : reset'.expectedRevision = reset.expectedRevision
  remaining : reset'.quotaRemainingUnits = reset.quotaRemainingUnits
  instant : reset'.quotaResetAt.utcNaive = reset.quotaResetAt.utcNaive

/-- The profile after the reset. -/
def RoutingProfile.resetTo (reset : RoutingQuotaReset) (p : RoutingProfile) : RoutingProfile :=
  { p with
    quotaRemainingUnits := reset.quotaRemainingUnits
    quotaResetAt := some reset.quotaResetAt.utcNaive
    revision := reset.expectedRevision + 1 }

/-- The guards that a reset passed when it rewrote the profile `p`. -/
structure Resetting (s : Database) (workerId : String) (reset : RoutingQuotaReset) (p : RoutingProfile) : Prop where
  stored : Repository.getRoutingProfile workerId s = some p
  expected : p.revision = reset.expectedRevision
  later : ∀ t, p.quotaResetAt = some t → t < reset.quotaResetAt.utcNaive
  unreserved : Repository.countReservedQuotaRuns workerId s = 0

theorem requireRoutingProfile_eq_ok {p : RoutingProfile} :
    Service.requireRoutingProfile workerId s = .ok p ↔ Repository.getRoutingProfile workerId s = some p := by
  unfold Service.requireRoutingProfile
  cases Repository.getRoutingProfile workerId s <;> simp

theorem getRoutingProfile_of_mem (hk : UniqueKeys s.profiles) {p : RoutingProfile} (hp : p ∈ s.profiles) :
    Repository.getRoutingProfile p.workerId s = some p := by
  refine hk.find?_eq hp (by simp) ?_
  intro x _ hx
  simpa using hx

theorem getRoutingProfile_put (hk : UniqueKeys s.profiles) {p p' : RoutingProfile} (hp : p ∈ s.profiles)
    (hid : p'.workerId = p.workerId) :
    Repository.getRoutingProfile p.workerId { s with profiles := put p' s.profiles } = some p' := by
  rw [← hid]
  exact getRoutingProfile_of_mem (s := { s with profiles := put p' s.profiles }) (hk.put p')
    (mem_put_self hp hid.symm)

/-- A reset that was already applied finds its instant, its balance and the next revision. -/
theorem resetAlreadyApplied_true {p : RoutingProfile} :
    Service.resetAlreadyApplied reset p = .ok true ↔
      p.quotaResetAt = some reset.quotaResetAt.utcNaive ∧ p.quotaRemainingUnits = reset.quotaRemainingUnits ∧
        p.revision = reset.expectedRevision + 1 := by
  unfold Service.resetAlreadyApplied
  cases hp : p.quotaResetAt with
  | none => simp
  | some existing =>
    by_cases hlt : reset.quotaResetAt.utcNaive < existing
    · have hne : existing ≠ reset.quotaResetAt.utcNaive := ne_of_gt hlt
      simp [hlt, hne]
    · by_cases heq : existing = reset.quotaResetAt.utcNaive
      · by_cases hq : p.quotaRemainingUnits = reset.quotaRemainingUnits
        · by_cases hr : p.revision = reset.expectedRevision + 1 <;> simp [heq, hq, hr]
        · simp [heq, hq]
      · simp [hlt, heq]

theorem resetAlreadyApplied_false {p : RoutingProfile} (h : Service.resetAlreadyApplied reset p = .ok false) :
    ∀ t, p.quotaResetAt = some t → t < reset.quotaResetAt.utcNaive := by
  intro t ht
  unfold Service.resetAlreadyApplied at h
  simp only [ht] at h
  by_contra hle
  by_cases hlt : reset.quotaResetAt.utcNaive < t
  · simp [hlt] at h
  · have heq : t = reset.quotaResetAt.utcNaive := le_antisymm (not_lt.1 hlt) (not_lt.1 hle)
    simp only [heq, lt_irrefl, if_false, if_true] at h
    split_ifs at h; simp at h

/-- **A reset that does not raise found itself applied, or rewrites the profile it names.** -/
theorem resetRoutingQuota_cases {result : RoutingProfile} (hk : Keys ss.db)
    (h : Service.resetRoutingQuota workerId reset ss = .ok (result, ss')) :
    (Repository.getRoutingProfile workerId ss.db = some result ∧ ss' = ss ∧
        Service.resetAlreadyApplied reset result = .ok true) ∨
      ∃ p, Resetting ss.db workerId reset p ∧ result = p.resetTo reset ∧
        ss' = ss.push { ss.db with profiles := put (p.resetTo reset) ss.db.profiles } := by
  unfold Service.resetRoutingQuota at h
  simp only [bind_ok, query_ok] at h
  obtain ⟨_, _, ⟨-, rfl⟩, profile, _, ⟨hprofile, rfl⟩, applied, _, ⟨happlied, rfl⟩, h⟩ := h
  rw [requireRoutingProfile_eq_ok] at hprofile
  cases applied with
  | true =>
    simp only [if_true, pure_ok] at h
    obtain ⟨rfl, rfl⟩ := h
    exact Or.inl ⟨hprofile, rfl, happlied⟩
  | false =>
    simp only [Bool.false_eq_true, if_false, bind_ok, read_ok, Service.resetReadProfile, require_ok, query_ok,
      exec_ok, beq_iff_eq] at h
    obtain ⟨_, _, ⟨rfl, rfl⟩, _, _, ⟨hcount, rfl⟩, _, _, ⟨hrev, rfl⟩, _, _, ⟨-, rfl⟩, _, _, ⟨rfl, rfl⟩, _, _,
      ⟨hupd, rfl⟩, hresult, rfl⟩ := h
    obtain ⟨p, hp, hguard, he⟩ := updateProfiles_ok hupd hk.profiles fun _ => rfl
    simp only [Bool.and_eq_true, beq_iff_eq, decide_eq_true_eq, ge_iff_le] at hguard
    obtain ⟨⟨⟨hid, -⟩, -⟩, -⟩ := hguard
    -- the row that the statement hits is the row that was read
    obtain ⟨hmem, hworker⟩ := getRoutingProfile_some hprofile
    have hsame : p = profile := hk.profiles.eq_of_key hp hmem (hid.trans hworker.symm)
    subst hsame
    have hdb : (Repository.resetRoutingQuota workerId reset.expectedRevision reset.quotaRemainingUnits
        reset.quotaResetAt.utcNaive ss.db).1 =
        { ss.db with profiles := put (p.resetTo reset) ss.db.profiles } := he
    refine Or.inr ⟨p, ⟨hprofile, hrev, resetAlreadyApplied_false happlied, hcount⟩, ?_, by rw [hdb]⟩
    have hget : Repository.getRoutingProfile p.workerId { ss.db with profiles := put (p.resetTo reset) ss.db.profiles } =
        some (p.resetTo reset) := getRoutingProfile_put hk.profiles hmem rfl
    rw [Session.push_db, hdb, requireRoutingProfile_eq_ok, ← hid, hget, Option.some.injEq] at hresult
    exact hresult.symm

/-! ## What a reset leaves for a retry -/

theorem getRoutingProfile_resetTo (hk : Keys s) {p : RoutingProfile} (h : Resetting s workerId reset p) :
    Repository.getRoutingProfile workerId { s with profiles := put (p.resetTo reset) s.profiles } =
      some (p.resetTo reset) := by
  obtain ⟨hp, hid⟩ := getRoutingProfile_some h.stored
  rw [← hid]
  exact getRoutingProfile_put hk.profiles hp rfl

theorem checkReset_ok :
    Service.checkReset reset = .ok () ↔ Service.validRoutingRevision reset.expectedRevision = true ∧
      Service.routingIntegerInBounds reset.quotaRemainingUnits = true ∧ reset.quotaResetAt.isAware = true := by
  unfold Service.checkReset
  simp [except_bind_ok, ensure_ok]

/-- A profile on which the reset is applied answers every retry of it, and nothing is executed. -/
theorem resetRoutingQuota_applied {p : RoutingProfile} (hcheck : Service.checkReset reset = .ok ())
    (hp : Repository.getRoutingProfile workerId ss.db = some p)
    (happlied : Service.resetAlreadyApplied reset p = .ok true) :
    Service.resetRoutingQuota workerId reset ss = .ok (p, ss) := by
  have hrequire := requireRoutingProfile_eq_ok.2 hp
  unfold Service.resetRoutingQuota
  simp only [bind_ok, query_ok]
  refine ⟨(), ss, ⟨hcheck, rfl⟩, p, ss, ⟨hrequire, rfl⟩, true, ss, ⟨happlied, rfl⟩, ?_⟩
  simp only [if_true, pure_ok, and_self]

theorem resetRoutingQuota_checked {result : RoutingProfile}
    (h : Service.resetRoutingQuota workerId reset ss = .ok (result, ss')) : Service.checkReset reset = .ok () := by
  unfold Service.resetRoutingQuota at h
  simp only [bind_ok, query_ok] at h
  obtain ⟨_, _, ⟨hcheck, -⟩, -⟩ := h
  exact hcheck

/-- **A retry right after the reset returns the same profile and executes nothing.** -/
theorem resetRoutingQuota_replayed {result : RoutingProfile} {reset' : RoutingQuotaReset} (hk : Keys ss.db)
    (h : Service.resetRoutingQuota workerId reset ss = .ok (result, ss')) (hsame : SameReset reset reset')
    (haware : reset'.quotaResetAt.isAware = true) :
    Service.resetRoutingQuota workerId reset' ss' = .ok (result, ss') := by
  obtain ⟨hrevision, hunits, -⟩ := checkReset_ok.1 (resetRoutingQuota_checked h)
  have hcheck : Service.checkReset reset' = .ok () :=
    checkReset_ok.2 ⟨hsame.expected ▸ hrevision, hsame.remaining ▸ hunits, haware⟩
  rcases resetRoutingQuota_cases hk h with ⟨hstored, rfl, happlied⟩ | ⟨p, hp, rfl, rfl⟩
  · refine resetRoutingQuota_applied hcheck hstored ?_
    rw [resetAlreadyApplied_true] at happlied ⊢
    rw [hsame.instant, hsame.remaining, hsame.expected]
    exact happlied
  · refine resetRoutingQuota_applied hcheck (getRoutingProfile_resetTo hk hp) ?_
    rw [resetAlreadyApplied_true, hsame.instant, hsame.remaining, hsame.expected]
    exact ⟨rfl, rfl, rfl⟩

/-! ## Revisions along a run -/

/-- A profile before and after: its revision does not decrease, and only an edit moves its reset instant. -/
def ProfileMoves (edits : Bool) (p p' : RoutingProfile) : Prop :=
  p.revision ≤ p'.revision ∧ (edits = false → p'.quotaResetAt = p.quotaResetAt)

theorem ProfileMoves.refl (edits : Bool) (p : RoutingProfile) : ProfileMoves edits p p := ⟨le_rfl, fun _ => rfl⟩

theorem ProfileMoves.trans {edits : Bool} {p q r : RoutingProfile} (h : ProfileMoves edits p q)
    (h' : ProfileMoves edits q r) : ProfileMoves edits p r :=
  ⟨h.1.trans h'.1, fun he => (h'.2 he).trans (h.2 he)⟩

/-- Every profile is still there, as `ProfileMoves` allows. -/
def ProfilesGrow (edits : Bool) (s s' : Database) : Prop :=
  RowsMove (ProfileMoves edits) s.profiles s'.profiles

theorem ProfilesGrow.refl {edits : Bool} (hk : Keys s) : ProfilesGrow edits s s :=
  RowsMove.refl hk.profiles (ProfileMoves.refl edits)

theorem ProfilesGrow.trans {edits : Bool} {s₁ s₂ s₃ : Database} (h : ProfilesGrow edits s₁ s₂)
    (h' : ProfilesGrow edits s₂ s₃) : ProfilesGrow edits s₁ s₃ :=
  RowsMove.trans (fun a b => a.trans b) h h'

theorem Effect.profilesGrow (he : Effect P scope now s s') (hk : Keys s) : ProfilesGrow scope.edits s s' := by
  have hput : ∀ {p p' : RoutingProfile}, p ∈ s.profiles → p'.workerId = p.workerId → ProfileMoves scope.edits p p' →
      RowsMove (ProfileMoves scope.edits) s.profiles (put p' s.profiles) := by
    intro p p' hp hid h
    exact RowsMove.put hk.profiles (ProfileMoves.refl _) hp hid.symm h
  cases he with
  | idle | manifest | createOrder | moveOrder | insertWorker | updateWorker | heartbeat | resolve =>
    exact ProfilesGrow.refl hk
  | insertProfile p hnew => exact RowsMove.append hk.profiles (ProfileMoves.refl _) hnew
  | rewriteProfile p p' hp hid hrev _ _ hedits =>
    exact hput hp hid ⟨by omega, fun h => absurd hedits (by simp [h])⟩
  | claim w o q count pin expiresAt profiles hcl =>
    rcases hcl.reserves with ⟨-, -, rfl⟩ | ⟨p, hp, -, -, -, -, -, rfl⟩
    · exact ProfilesGrow.refl hk
    · refine hput hp rfl ⟨?_, fun _ => rfl⟩
      simp only [RoutingProfile.reserved]
      omega
  | close outcome l r o w profiles hcl =>
    have hrefunds := hcl.refunds
    unfold Refunds at hrefunds
    split at hrefunds
    · obtain ⟨p, hp, -, -, rfl⟩ := hrefunds
      refine hput hp rfl ⟨?_, fun _ => rfl⟩
      simp only [RoutingProfile.refunded]
      omega
    · subst hrefunds
      exact ProfilesGrow.refl hk

theorem Steps.profilesGrow {ts : List Time} (h : Steps P scope ts ss ss') (hk : Keys ss.db) :
    ProfilesGrow scope.edits ss.db ss'.db := by
  induction h with
  | nil => exact ProfilesGrow.refl hk
  | cons b _ ih => exact (b.effect.profilesGrow hk).trans (ih (b.effect.keys hk))

theorem step_profilesGrow (hk : Keys ss.db) (c : Call) :
    ProfilesGrow c.operation.edits ss.db (step P ss c).db := by
  obtain ⟨_, _, -, -, hs⟩ := step_runs (P := P) hk c
  rw [← Operation.scope_edits]
  exact hs.profilesGrow hk

theorem step_keys (hk : Keys ss.db) (c : Call) : Keys (step P ss c).db := by
  obtain ⟨_, hr⟩ := step_runs (P := P) hk c
  exact hr.keys hk

theorem foldl_profilesGrow (hk : Keys ss.db) (calls : List Call) :
    ProfilesGrow true ss.db (calls.foldl (step P) ss).db := by
  induction calls generalizing ss with
  | nil => exact ProfilesGrow.refl hk
  | cons c calls ih =>
    have hc : ProfilesGrow true ss.db (step P ss c).db := by
      have h := step_profilesGrow (P := P) hk c
      exact ⟨h.kept, fun x hx x' hx' hid => ⟨(h.moves x hx x' hx' hid).1, fun he => absurd he (by decide)⟩⟩
    exact hc.trans (ih (step_keys hk c))

theorem runCalls_append (P : Platform) (calls later : List Call) :
    runCalls P (calls ++ later) = later.foldl (step P) (runCalls P calls) := List.foldl_append

theorem runCalls_take_succ {calls : List Call} {i : ℕ} {c : Call} (h : calls[i]? = some c) :
    runCalls P (calls.take (i + 1)) = step P (runCalls P (calls.take i)) c := by
  rw [List.take_add_one, h, runCalls_append]
  rfl

/-- The revisions of the state after `i` calls are not above those of the end. -/
theorem runCalls_revision_le {calls : List Call} {i : ℕ} {p p' : RoutingProfile}
    (hp : Repository.getRoutingProfile workerId (runCalls P (calls.take i)).db = some p)
    (hp' : Repository.getRoutingProfile workerId (runCalls P calls).db = some p') : p.revision ≤ p'.revision := by
  have hgrow := foldl_profilesGrow (runCalls_keys P (calls.take i)) (calls.drop i) (P := P)
  rw [← runCalls_append, List.take_append_drop] at hgrow
  obtain ⟨hmem, hid⟩ := getRoutingProfile_some hp
  obtain ⟨hmem', hid'⟩ := getRoutingProfile_some hp'
  exact (hgrow.moves p hmem p' hmem' (hid'.trans hid.symm)).1

/-! ## Resets along a run -/

/-- The `i`-th call is a request for this reset, and it changed the stored profile. -/
def AppliedAt (P : Platform) (workerId : String) (calls : List Call) (reset : RoutingQuotaReset) (i : ℕ) : Prop :=
  ∃ env reset', calls[i]? = some ⟨env, .resetRoutingQuota workerId reset'⟩ ∧ SameReset reset reset' ∧
    Repository.getRoutingProfile workerId (runCalls P (calls.take (i + 1))).db ≠
      Repository.getRoutingProfile workerId (runCalls P (calls.take i)).db

/-- A call that changes the profile by a reset passed the guards of the reset. -/
theorem step_resetting {env : Env} (hk : Keys ss.db)
    (h : Repository.getRoutingProfile workerId (step P ss ⟨env, .resetRoutingQuota workerId reset⟩).db ≠
      Repository.getRoutingProfile workerId ss.db) :
    ∃ p, Resetting ss.db workerId reset p ∧ (step P ss ⟨env, .resetRoutingQuota workerId reset⟩).db =
      { ss.db with profiles := put (p.resetTo reset) ss.db.profiles } := by
  cases hx : Service.resetRoutingQuota workerId reset ss with
  | error e =>
    have hstep : step P ss ⟨env, .resetRoutingQuota workerId reset⟩ = ss := by
      simp [step, commit, Call.transaction, Bind.bind, Tx.bind, hx]
    rw [hstep] at h
    exact absurd rfl h
  | ok r =>
    obtain ⟨result, ss'⟩ := r
    have hstep : step P ss ⟨env, .resetRoutingQuota workerId reset⟩ = ss' := by
      refine commit_of_ok (a := ()) ?_
      simp only [Call.transaction, bind_ok, pure_ok]
      exact ⟨result, ss', hx, trivial, rfl⟩
    rw [hstep] at h ⊢
    rcases resetRoutingQuota_cases hk hx with ⟨-, rfl, -⟩ | ⟨p, hp, -, rfl⟩
    · exact absurd rfl h
    · exact ⟨p, hp, rfl⟩

theorem AppliedAt.resetting {calls : List Call} {i : ℕ} (h : AppliedAt P workerId calls reset i) :
    ∃ p reset', SameReset reset reset' ∧ Resetting (runCalls P (calls.take i)).db workerId reset' p ∧
      Repository.getRoutingProfile workerId (runCalls P (calls.take (i + 1))).db = some (p.resetTo reset') := by
  obtain ⟨env, reset', hcall, hsame, hchanged⟩ := h
  have hk := runCalls_keys P (calls.take i)
  rw [runCalls_take_succ hcall] at hchanged ⊢
  obtain ⟨p, hp, hdb⟩ := step_resetting hk hchanged
  refine ⟨p, reset', hsame, hp, ?_⟩
  rw [hdb]
  exact getRoutingProfile_resetTo hk hp

/-- After a reset was applied every stored revision is above the one it expects. -/
theorem AppliedAt.revision_lt {calls : List Call} {i j : ℕ} (h : AppliedAt P workerId calls reset i) (hij : i < j)
    {p : RoutingProfile} (hp : Repository.getRoutingProfile workerId (runCalls P (calls.take j)).db = some p) :
    reset.expectedRevision < p.revision := by
  obtain ⟨q, reset', hsame, -, hq⟩ := h.resetting
  have htake : calls.take (i + 1) = (calls.take j).take (i + 1) := by
    rw [List.take_take, Nat.min_eq_left hij]
  rw [htake] at hq
  have hle : (q.resetTo reset').revision ≤ p.revision := runCalls_revision_le hq hp
  have hrevision : (q.resetTo reset').revision = reset.expectedRevision + 1 := by
    rw [← hsame.expected]
    rfl
  omega

/-! ## The reset instant -/

/-- The stored reset instant of the worker is there and not before `t`. -/
def ResetSince (s : Database) (workerId : String) (t : Time) : Prop :=
  ∃ p t', Repository.getRoutingProfile workerId s = some p ∧ p.quotaResetAt = some t' ∧ t ≤ t'

theorem ResetSince.of_mem {t : Time} (h : ResetSince s workerId t) (hk : UniqueKeys s'.profiles)
    (hkept : ∀ p ∈ s.profiles, p.workerId = workerId →
      ∃ p' ∈ s'.profiles, p'.workerId = p.workerId ∧ p'.quotaResetAt = p.quotaResetAt) : ResetSince s' workerId t := by
  obtain ⟨p, t', hp, ht', hle⟩ := h
  obtain ⟨hmem, hid⟩ := getRoutingProfile_some hp
  obtain ⟨p', hmem', hid', hsame⟩ := hkept p hmem hid
  have hget := getRoutingProfile_of_mem hk hmem'
  rw [hid', hid] at hget
  exact ⟨p', t', hget, hsame.trans ht', hle⟩

/-- A replacement writes the profile of its own worker. -/
theorem replaceRoutingProfile_ok {replacement : RoutingProfileReplacement} {result : RoutingProfile} (hk : Keys ss.db)
    (h : Service.replaceRoutingProfile workerId replacement ss = .ok (result, ss')) :
    ∃ p, p.workerId = workerId ∧ ss'.db = { ss.db with profiles := put p ss.db.profiles } := by
  unfold Service.replaceRoutingProfile Service.replaceReadProfile at h
  simp only [bind_ok, require_ok, query_ok, read_ok, exec_ok] at h
  obtain ⟨_, _, ⟨-, rfl⟩, _, _, ⟨-, rfl⟩, _, _, ⟨-, rfl⟩, _, _, ⟨-, rfl⟩, _, _, ⟨-, rfl⟩, columns, _, ⟨-, rfl⟩, _, _,
    ⟨rfl, rfl⟩, _, _, ⟨hupd, rfl⟩, -, rfl⟩ := h
  obtain ⟨p, -, hguard, he⟩ := updateProfiles_ok hupd hk.profiles fun _ => rfl
  simp only [Bool.and_eq_true, beq_iff_eq, decide_eq_true_eq] at hguard
  exact ⟨{ Service.replacedProfile columns p with revision := replacement.expectedRevision + 1 }, hguard.1.1, he⟩

/-- A call that is not a replacement of the worker's profile does not move its reset instant back. -/
theorem ResetSince.step {t : Time} {c : Call} (hk : Keys ss.db) (h : ResetSince ss.db workerId t)
    (hc : ∀ replacement, c.operation ≠ .replaceRoutingProfile workerId replacement) :
    ResetSince (step P ss c).db workerId t := by
  obtain ⟨env, operation⟩ := c
  have hother : ∀ {w : String} {p : RoutingProfile} {d : Database}, w ≠ workerId → p.workerId = w →
      d = { ss.db with profiles := put p ss.db.profiles } → ResetSince d workerId t := by
    intro w p d hne hid hd
    subst hd
    refine h.of_mem (hk.profiles.put p) fun x hx hxid => ⟨x, mem_put_of_ne hx ?_, rfl, rfl⟩
    intro hkey
    exact hne (hid.symm.trans (hkey.symm.trans hxid))
  by_cases hedits : operation.edits = true
  · cases operation <;> simp only [Operation.edits, Bool.false_eq_true] at hedits
    case replaceRoutingProfile w replacement =>
      have hne : w ≠ workerId := by
        rintro rfl
        exact hc replacement rfl
      unfold Switchboard.step commit
      split
      · rename_i hx
        simp only [Call.transaction, bind_ok, pure_ok] at hx
        obtain ⟨_, _, hx, -, rfl⟩ := hx
        obtain ⟨p, hid, hd⟩ := replaceRoutingProfile_ok hk hx
        exact hother hne hid hd
      · exact h
    case resetRoutingQuota w reset =>
      unfold Switchboard.step commit
      split
      · rename_i hx
        simp only [Call.transaction, bind_ok, pure_ok] at hx
        obtain ⟨_, _, hx, -, rfl⟩ := hx
        rcases resetRoutingQuota_cases hk hx with ⟨-, rfl, -⟩ | ⟨p, hp, -, rfl⟩
        · exact h
        · by_cases hw : w = workerId
          · subst hw
            obtain ⟨q, t', hq, ht', hle⟩ := h
            have hpq : p = q := by
              have := hp.stored
              rw [hq, Option.some.injEq] at this
              exact this.symm
            have hlt : t' < reset.quotaResetAt.utcNaive := hp.later t' (hpq ▸ ht')
            exact ⟨p.resetTo reset, _, getRoutingProfile_resetTo hk hp, rfl, hle.trans hlt.le⟩
          · have hid : (p.resetTo reset).workerId = w := (getRoutingProfile_some hp.stored).2
            exact hother hw hid rfl
      · exact h
  · -- no other operation writes the instant
    have hgrow := step_profilesGrow (P := P) hk ⟨env, operation⟩
    refine h.of_mem (step_keys hk _).profiles fun p hp _ => ?_
    obtain ⟨p', hp', hid⟩ := hgrow.kept p hp
    exact ⟨p', hp', hid, (hgrow.moves p hp p' hp' hid).2 (by simpa using hedits)⟩

theorem ResetSince.foldl {t : Time} {later : List Call} (hk : Keys ss.db) (h : ResetSince ss.db workerId t)
    (hlater : ∀ c ∈ later, ∀ replacement, c.operation ≠ .replaceRoutingProfile workerId replacement) :
    ResetSince (later.foldl (Switchboard.step P) ss).db workerId t := by
  induction later generalizing ss with
  | nil => exact h
  | cons c later ih =>
    exact ih (step_keys hk c) (h.step hk (hlater c List.mem_cons_self))
      fun c' hc' => hlater c' (List.mem_cons_of_mem _ hc')

/-! ## At most once -/

/-- Resets of the worker's quota along the calls. -/
structure ResetsOnce (P : Platform) (workerId : String) (calls : List Call) : Prop where
  /-- Of all requests for one reset at most one changed the profile. -/
  once : ∀ reset i j, AppliedAt P workerId calls reset i → AppliedAt P workerId calls reset j → i = j
  /-- A retry right after a success returns the same profile and executes nothing. -/
  replayed : ∀ reset reset' p ss', Service.resetRoutingQuota workerId reset (runCalls P calls) = .ok (p, ss') →
    SameReset reset reset' → reset'.quotaResetAt.isAware = true →
    Service.resetRoutingQuota workerId reset' ss' = .ok (p, ss')
  /-- A retry at any later time returns the stored profile and executes nothing, or raises. -/
  retried : ∀ reset i, AppliedAt P workerId calls reset i → ∀ reset', SameReset reset reset' →
    (∃ p, Repository.getRoutingProfile workerId (runCalls P calls).db = some p ∧
      Service.resetRoutingQuota workerId reset' (runCalls P calls) = .ok (p, runCalls P calls)) ∨
    ∃ e, Service.resetRoutingQuota workerId reset' (runCalls P calls) = .error e
  /-- No reset is applied while a run of the worker holds a reservation. -/
  unreserved : ∀ reset i, AppliedAt P workerId calls reset i →
    ∀ r ∈ (runCalls P (calls.take i)).db.runs, r.workerId = workerId → r.route.quotaState ≠ .reserved
  /-- Between two replacements the stored instant does not move back. -/
  forward : ∀ p t later, Repository.getRoutingProfile workerId (runCalls P calls).db = some p →
    p.quotaResetAt = some t →
    (∀ c ∈ later, ∀ replacement, c.operation ≠ .replaceRoutingProfile workerId replacement) →
    ∃ p' t', Repository.getRoutingProfile workerId (runCalls P (calls ++ later)).db = some p' ∧
      p'.quotaResetAt = some t' ∧ t ≤ t'

/-- **A quota reset takes effect at most once**, whatever calls come before, between and after its retries. -/
theorem runCalls_resets (P : Platform) (workerId : String) (calls : List Call) : ResetsOnce P workerId calls := by
  have hk := runCalls_keys P calls
  have hlt : ∀ reset i j, AppliedAt P workerId calls reset i → AppliedAt P workerId calls reset j → ¬ i < j := by
    intro reset i j hi hj hij
    obtain ⟨p, reset', hsame, hp, -⟩ := hj.resetting
    have hrev := hi.revision_lt hij hp.stored
    rw [hp.expected, hsame.expected] at hrev
    exact lt_irrefl _ hrev
  refine ⟨?_, ?_, ?_, ?_, ?_⟩
  · intro reset i j hi hj
    have h₁ := hlt reset i j hi hj
    have h₂ := hlt reset j i hj hi
    omega
  · intro reset reset' p ss' h hsame haware
    exact resetRoutingQuota_replayed hk h hsame haware
  · intro reset i hi reset' hsame
    -- the stored revision has passed the one the retry expects
    have hne : ∀ p, Repository.getRoutingProfile workerId (runCalls P calls).db = some p →
        p.revision ≠ reset'.expectedRevision := by
      intro p hp
      have hlen : i < calls.length := by
        obtain ⟨_, _, hcall, -⟩ := hi
        exact (List.getElem?_eq_some_iff.1 hcall).1
      have htake : calls.take calls.length = calls := List.take_length
      have := hi.revision_lt hlen (htake.symm ▸ hp)
      rw [hsame.expected]
      omega
    cases hx : Service.resetRoutingQuota workerId reset' (runCalls P calls) with
    | error e => exact Or.inr ⟨e, rfl⟩
    | ok r =>
      obtain ⟨result, ss'⟩ := r
      rcases resetRoutingQuota_cases hk hx with ⟨hstored, rfl, -⟩ | ⟨p, hp, -, -⟩
      · exact Or.inl ⟨result, hstored, rfl⟩
      · exact absurd hp.expected (hne p hp.stored)
  · intro reset i hi
    obtain ⟨p, reset', -, hp, -⟩ := hi.resetting
    exact idle_of_count hp.unreserved
  · intro p t later hp ht hlater
    rw [runCalls_append]
    exact ResetSince.foldl hk ⟨p, t, hp, ht, le_rfl⟩ hlater

end Switchboard
