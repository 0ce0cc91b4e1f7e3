import Switchboard.Proof.Resets

/-!
# Revisions near their limit

An operator that replaces a profile by its own values raises its revision by one and changes
nothing else. Every revision up to the limit is reached in this way, with whatever else the
database holds.

* `step_replaceSelf`: one such replacement.
* `foldl_replacements`: any number of them.
-/

namespace Switchboard

open Table Transaction

variable {P : Platform} {env : Env} {ss : Session Database} {p : RoutingProfile} {values : RoutingProfileValues}
  {columns : Service.ProfileColumns}

/-- The profile at another revision. -/
def RoutingProfile.atRevision (n : ℤ) (p : RoutingProfile) : RoutingProfile := { p with revision := n }

/-- The values are the ones that the profile has. -/
structure OwnValues (p : RoutingProfile) (values : RoutingProfileValues) (columns : Service.ProfileColumns) : Prop where
  checked : Service.routingProfileValues values = .ok columns
  same : Service.replacedProfile columns p = p

theorem OwnValues.atRevision (h : OwnValues p values columns) (n : ℤ) : OwnValues (p.atRevision n) values columns := by
  refine ⟨h.checked, ?_⟩
  have hsame := congrArg (RoutingProfile.atRevision n) h.same
  exact hsame

/-- **A replacement by the profile's own values raises its revision** and changes nothing else. -/
theorem step_replaceSelf (hk : Keys ss.db) (hp : p ∈ ss.db.profiles) (hvalues : OwnValues p values columns)
    (hidle : Repository.countReservedQuotaRuns p.workerId ss.db = 0) (hlow : 1 ≤ p.revision)
    (hhigh : p.revision < maxRoutingRevision) :
    (step P ss ⟨env, .replaceRoutingProfile p.workerId ⟨p.revision, values⟩⟩).db =
      { ss.db with profiles := put (p.atRevision (p.revision + 1)) ss.db.profiles } := by
  set statement := Repository.replaceRoutingProfile p.workerId p.revision (Service.replacedProfile columns) with hst
  have hvalid : Service.validRoutingRevision p.revision = true := by
    unfold Service.validRoutingRevision maxRoutingInteger
    unfold maxRoutingRevision at hhigh
    rw [decide_eq_true_eq]
    omega
  have hget : Service.requireRoutingProfile p.workerId ss.db = .ok p :=
    requireRoutingProfile_eq_ok.2 (getRoutingProfile_of_mem hk.profiles hp)
  have hone : (statement ss.db).2 = true := by
    refine affectedOne_of_mem hk.profiles hp ?_ fun x _ hx => ?_
    · simp [hhigh]
    · simp only [Bool.and_eq_true, beq_iff_eq] at hx
      exact hx.1.1
  have hdb : (statement ss.db).1 = { ss.db with profiles := put (p.atRevision (p.revision + 1)) ss.db.profiles } := by
    obtain ⟨x, hx, hguard, he⟩ := updateProfiles_ok hone hk.profiles fun _ => rfl
    simp only [Bool.and_eq_true, beq_iff_eq, decide_eq_true_eq] at hguard
    obtain rfl : x = p := hk.profiles.eq_of_key hx hp hguard.1.1
    rw [hvalues.same] at he
    exact he
  have hnew : Service.requireRoutingProfile p.workerId
      { ss.db with profiles := put (p.atRevision (p.revision + 1)) ss.db.profiles } =
        .ok (p.atRevision (p.revision + 1)) :=
    requireRoutingProfile_eq_ok.2 (getRoutingProfile_put hk.profiles hp rfl)
  have hok : Service.replaceRoutingProfile p.workerId ⟨p.revision, values⟩ ss =
      .ok (p.atRevision (p.revision + 1), ss.push (statement ss.db).1) := by
    unfold Service.replaceRoutingProfile Service.replaceReadProfile
    simp only [bind_ok, require_ok, query_ok, read_ok, exec_ok]
    exact ⟨(), ss, ⟨hvalid, rfl⟩, p, ss, ⟨hget, rfl⟩, 0, ss, ⟨hidle, rfl⟩, (), ss, ⟨rfl, rfl⟩, (), ss,
      ⟨beq_self_eq_true _, rfl⟩, columns, ss, ⟨hvalues.checked, rfl⟩, true, _, ⟨hone, rfl⟩, (), _, ⟨rfl, rfl⟩,
      by rw [Session.push_db, hdb]; exact hnew, rfl⟩
  have hcommit : step P ss ⟨env, .replaceRoutingProfile p.workerId ⟨p.revision, values⟩⟩ =
      ss.push (statement ss.db).1 := by
    refine commit_of_ok (a := ()) ?_
    simp only [Call.transaction, bind_ok, pure_ok]
    exact ⟨_, _, hok, trivial, rfl⟩
  rw [hcommit, Session.push_db, hdb]

/-- `n` replacements of a profile by `values`, from revision `r` on. -/
def replacements (env : Env) (workerId : String) (values : RoutingProfileValues) (r : ℤ) (n : ℕ) : List Call :=
  (List.range n).map fun i : ℕ => ⟨env, .replaceRoutingProfile workerId ⟨r + i, values⟩⟩

theorem replacements_succ (env : Env) (workerId : String) (values : RoutingProfileValues) (r : ℤ) (n : ℕ) :
    replacements env workerId values r (n + 1) =
      replacements env workerId values r n ++ [⟨env, .replaceRoutingProfile workerId ⟨r + n, values⟩⟩] := by
  unfold replacements
  rw [List.range_succ, List.map_append]
  rfl

/-- **Replacements by the profile's own values reach every revision up to the limit.** -/
theorem foldl_replacements (P : Platform) (env : Env) (hk : Keys ss.db) (hp : p ∈ ss.db.profiles) (hvalues : OwnValues p values columns)
    (hidle : Repository.countReservedQuotaRuns p.workerId ss.db = 0) (hlow : 1 ≤ p.revision) (n : ℕ)
    (hhigh : p.revision + n ≤ maxRoutingRevision) :
    ((replacements env p.workerId values p.revision n).foldl (step P) ss).db =
      { ss.db with profiles := put (p.atRevision (p.revision + n)) ss.db.profiles } := by
  induction n with
  | zero =>
    have hself : put (p.atRevision (p.revision + (0 : ℕ))) ss.db.profiles = ss.db.profiles := by
      have hrow : p.atRevision (p.revision + (0 : ℕ)) = p := by simp [RoutingProfile.atRevision]
      rw [hrow, put_self hk.profiles hp]
    rw [hself]
    rfl
  | succ n ih =>
    have hbound : p.revision + n < maxRoutingRevision := by
      push_cast at hhigh
      omega
    have hbefore := ih (by omega)
    rw [replacements_succ, List.foldl_append, List.foldl_cons, List.foldl_nil]
    set s₁ := (replacements env p.workerId values p.revision n).foldl (step P) ss with hs₁
    have hk₁ : Keys s₁.db := by
      rw [hbefore]
      exact { hk with profiles := hk.profiles.put _ }
    have hmem : p.atRevision (p.revision + n) ∈ s₁.db.profiles := by
      rw [hbefore]
      exact mem_put_self hp rfl
    have hidle₁ : Repository.countReservedQuotaRuns (p.atRevision (p.revision + n)).workerId s₁.db = 0 := by
      rw [hbefore]
      exact hidle
    have hstep : (step P s₁ ⟨env, .replaceRoutingProfile p.workerId ⟨p.revision + n, values⟩⟩).db =
        { s₁.db with profiles := put (p.atRevision (p.revision + n + 1)) s₁.db.profiles } :=
      step_replaceSelf hk₁ hmem (hvalues.atRevision _) hidle₁ (by show 1 ≤ p.revision + n; omega) hbound
    have hrow : p.atRevision (p.revision + (n + 1 : ℕ)) = p.atRevision (p.revision + n + 1) := by
      refine congrArg (fun r => p.atRevision r) ?_
      push_cast
      omega
    have hput : put (p.atRevision (p.revision + n + 1)) (put (p.atRevision (p.revision + n)) ss.db.profiles) =
        put (p.atRevision (p.revision + n + 1)) ss.db.profiles := put_put rfl
    rw [hstep, hbefore, hrow]
    simp only [hput]

end Switchboard
