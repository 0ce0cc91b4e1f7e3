import Switchboard.Spec.GitHub

/-!
# Publication claims

* `acquire_cases`, `finalize_cases`, `renew_cases`: what one statement does.
* `ClaimsOK`: what the rows say about the history of the calls; `ClaimsOK.acquire`,
  `ClaimsOK.renew`, `ClaimsOK.finalize`: every statement keeps it.
* `runClaims_ok`: every sequence of calls keeps it.
* `runClaims_fenced`: a stale token changes nothing, a token stores one result, and a
  token with time left is not taken over.
-/

namespace Switchboard

open Table

variable {t : GitHubRequests} {requestId : ℕ} {token : String} {now : Time} {log : ClaimLog}

/-! ## Statements -/

/-- The statements of the claim keep the key of a row. -/
theorem key_request (r : GitHubValidationRequest) : key r = r.id := rfl

theorem acquire_cases (ht : UniqueKeys t) (requestId : ℕ) (token : String) (now expiresAt : Time) :
    (acquirePublicationClaim requestId token now expiresAt t = (false, t) ∧
      ∀ r ∈ t, r.id = requestId → claimable now r = false) ∨
    ∃ r ∈ t, r.id = requestId ∧ claimable now r = true ∧
      acquirePublicationClaim requestId token now expiresAt t = (true, put (r.claimed token now expiresAt) t) := by
  unfold acquirePublicationClaim
  simp only []
  split
  · rename_i h
    obtain ⟨r, hr, hclause, hput⟩ :=
      updateWhere_row (f := GitHubValidationRequest.claimed token now expiresAt) ht h fun _ => rfl
    simp only [Bool.and_eq_true, beq_iff_eq] at hclause
    exact .inr ⟨r, hr, hclause.1, hclause.2, by rw [hput]⟩
  · rename_i h
    refine .inl ⟨rfl, fun r hr hid => ?_⟩
    by_contra hclaim
    refine h (affectedOne_of_mem ht hr ?_ fun x _ hx => ?_)
    · simpa [hid] using hclaim
    · simp only [Bool.and_eq_true, beq_iff_eq] at hx
      exact hx.1.trans hid.symm

theorem finalize_cases (ht : UniqueKeys t) (requestId : ℕ) (token : String) (values : PublicationValues) :
    (finalizePublicationClaim requestId token values t = (false, t) ∧
      ∀ r ∈ t, r.id = requestId → r.publicationClaimToken ≠ some token) ∨
    ∃ r ∈ t, r.id = requestId ∧ r.publicationClaimToken = some token ∧
      finalizePublicationClaim requestId token values t = (true, put (r.published values).released t) := by
  unfold finalizePublicationClaim
  simp only []
  split
  · rename_i h
    obtain ⟨r, hr, hclause, hput⟩ := updateWhere_row (f := fun r => (r.published values).released) ht h fun _ => rfl
    simp only [Bool.and_eq_true, beq_iff_eq] at hclause
    exact .inr ⟨r, hr, hclause.1, hclause.2, by rw [hput]⟩
  · rename_i h
    refine .inl ⟨rfl, fun r hr hid htoken => ?_⟩
    refine h (affectedOne_of_mem ht hr ?_ fun x _ hx => ?_)
    · simp [hid, htoken]
    · simp only [Bool.and_eq_true, beq_iff_eq] at hx
      exact hx.1.trans hid.symm

theorem renew_cases (ht : UniqueKeys t) (requestId : ℕ) (token : String) (now expiresAt : Time) :
    (renewPublicationClaim requestId token now expiresAt t = (false, t)) ∨
    ∃ r ∈ t, r.id = requestId ∧ r.publicationClaimToken = some token ∧
      (∃ e, r.publicationClaimExpiresAt = some e ∧ now < e) ∧
      renewPublicationClaim requestId token now expiresAt t = (true, put (r.renewed expiresAt) t) := by
  unfold renewPublicationClaim
  simp only []
  generalize hp : (fun r : GitHubValidationRequest => r.id == requestId && r.publicationClaimToken == some token &&
    r.publicationClaimExpiresAt.any fun expiresAt => decide (now < expiresAt)) = p
  have hclause : ∀ r, p r = true ↔ (r.id = requestId ∧ r.publicationClaimToken = some token) ∧
      ∃ e, r.publicationClaimExpiresAt = some e ∧ now < e := by
    intro r
    rw [← hp]
    simp only [Bool.and_eq_true, beq_iff_eq, Option.any_eq_true, decide_eq_true_eq]
  cases h : affectedOne p t with
  | true =>
    obtain ⟨r, hr, hpr, hput⟩ := updateWhere_row (f := GitHubValidationRequest.renewed expiresAt) ht h fun _ => rfl
    obtain ⟨⟨hid, htoken⟩, hlive⟩ := (hclause r).1 hpr
    exact .inr ⟨r, hr, hid, htoken, hlive, by rw [hput]⟩
  | false =>
    left
    rw [updateWhere_eq_self]
    intro r hr
    by_contra hpr
    rw [Bool.not_eq_false] at hpr
    have hone := affectedOne_of_mem ht hr hpr fun x _ hx =>
      ((hclause x).1 hx).1.1.trans ((hclause r).1 hpr).1.1.symm
    rw [h] at hone
    cases hone

/-! ## The log -/

section log

variable {e : ClaimCall × Bool}

theorem acquired_append : ClaimAcquired requestId token (log ++ [e]) ↔
    ClaimAcquired requestId token log ∨ ∃ now, e = (.acquire requestId token now, true) := by
  unfold ClaimAcquired
  simp only [List.mem_append, List.mem_singleton, exists_or]
  exact or_congr_right (exists_congr fun _ => eq_comm)

theorem finalized_append : ClaimFinalized requestId token (log ++ [e]) ↔
    ClaimFinalized requestId token log ∨ ∃ values, e = (.finalize requestId token values, true) := by
  unfold ClaimFinalized
  simp only [List.mem_append, List.mem_singleton, exists_or]
  exact or_congr_right (exists_congr fun _ => eq_comm)

theorem granted_append {expiresAt : Time} : ClaimGranted requestId token (log ++ [e]) expiresAt ↔
    ClaimGranted requestId token log expiresAt ∨ ∃ now, expiresAt = now + publicationClaimTtl ∧
      (e = (.acquire requestId token now, true) ∨ e = (.renew requestId token now, true)) := by
  unfold ClaimGranted
  simp only [List.mem_append, List.mem_singleton, ← exists_or]
  refine exists_congr fun now => ?_
  rw [← and_or_left, eq_comm (a := e), eq_comm (a := e)]
  exact and_congr_right fun _ => or_or_or_comm

theorem superseded_append : ClaimSuperseded requestId token (log ++ [e]) ↔
    ClaimSuperseded requestId token log ∨
      ClaimAcquired requestId token log ∧ ∃ other now, other ≠ token ∧ e = (.acquire requestId other now, true) := by
  constructor
  · rintro ⟨before, after, now, hlog, other, hother, hacquired⟩
    rcases List.eq_nil_or_concat after with rfl | ⟨after, e', rfl⟩
    · obtain ⟨_, hmem⟩ := hacquired
      cases hmem
    · rw [List.concat_eq_append, ← List.cons_append, ← List.append_assoc] at hlog
      obtain ⟨rfl, hlast⟩ := List.append_inj' hlog rfl
      obtain rfl := List.singleton_inj.1 hlast
      rw [List.concat_eq_append] at hacquired
      rcases acquired_append.1 hacquired with hbefore | ⟨now', rfl⟩
      · exact .inl ⟨before, after, now, rfl, other, hother, hbefore⟩
      · exact .inr ⟨⟨now, List.mem_append_right _ List.mem_cons_self⟩, other, now', hother, rfl⟩
  · rintro (⟨before, after, now, rfl, other, hother, hacquired⟩ | ⟨⟨now, hmem⟩, other, now', hother, rfl⟩)
    · refine ⟨before, after ++ [e], now, ?_, other, hother, acquired_append.2 (.inl hacquired)⟩
      rw [List.append_assoc, List.cons_append]
    · obtain ⟨before, after, rfl⟩ := List.append_of_mem hmem
      refine ⟨before, after ++ [(.acquire requestId other now', true)], now, ?_, other, hother,
        acquired_append.2 (.inr ⟨now', rfl⟩)⟩
      rw [List.append_assoc, List.cons_append]

end log

/-! ## The invariant -/

/-- Some call was made at `expiresAt` or later. -/
def DeadlinePassed (log : ClaimLog) (expiresAt : Time) : Prop :=
  ∃ e ∈ log, ∃ now, e.1.now? = some now ∧ expiresAt ≤ now

/-- A result was stored with the token, on whatever request. -/
def ClaimCall.stores (token : String) (e : ClaimCall × Bool) : Bool :=
  match e with
  | (.finalize _ k _, true) => k == token
  | _ => false

/-- What the rows say about the calls so far. -/
structure ClaimsOK (t : GitHubRequests) (log : ClaimLog) : Prop where
  ids : UniqueKeys t
  /-- The token on a row is neither superseded nor finalized. -/
  held : ∀ r ∈ t, ∀ k, r.publicationClaimToken = some k →
    ClaimAcquired r.id k log ∧ ¬ ClaimSuperseded r.id k log ∧ ¬ ClaimFinalized r.id k log
  /-- A deadline that has not passed is on the row, unless a result was stored. -/
  granted : ∀ requestId k d, ClaimGranted requestId k log d → ClaimFinalized requestId k log ∨ DeadlinePassed log d ∨
    ∃ r ∈ t, r.id = requestId ∧ r.publicationClaimToken = some k ∧ ∃ e, r.publicationClaimExpiresAt = some e ∧ d ≤ e
  finalized : ∀ requestId k, ClaimFinalized requestId k log → ClaimAcquired requestId k log
  /-- A token is stored on one request. -/
  one : ∀ i j k, ClaimAcquired i k log → ClaimAcquired j k log → i = j
  once : ∀ k, log.countP (ClaimCall.stores k) ≤ 1

theorem Unclaimed.ok (h : Unclaimed t) : ClaimsOK t [] where
  ids := h.ids
  held r hr k hk := by rw [h.tokens r hr] at hk; cases hk
  granted requestId k d hd := by
    obtain ⟨_, -, hmem | hmem⟩ := hd <;> cases hmem
  finalized requestId k hk := by
    obtain ⟨_, hmem⟩ := hk
    cases hmem
  one i j k hi _ := by
    obtain ⟨_, hmem⟩ := hi
    cases hmem
  once k := Nat.zero_le 1

theorem DeadlinePassed.append {e : ClaimCall × Bool} {d : Time} (h : DeadlinePassed log d) : DeadlinePassed (log ++ [e]) d := by
  obtain ⟨x, hx, hd⟩ := h
  exact ⟨x, List.mem_append_left _ hx, hd⟩

theorem DeadlinePassed.mono {d d' : Time} (h : DeadlinePassed log d) (hd : d' ≤ d) : DeadlinePassed log d' := by
  obtain ⟨x, hx, now, hnow, hle⟩ := h
  exact ⟨x, hx, now, hnow, hd.trans hle⟩

/-- A call that had no effect. -/
theorem ClaimsOK.failed (h : ClaimsOK t log) (c : ClaimCall) : ClaimsOK t (log ++ [(c, false)]) where
  ids := h.ids
  held r hr k hk := by
    obtain ⟨hacquired, hsuperseded, hfinalized⟩ := h.held r hr k hk
    exact ⟨by simp [acquired_append, hacquired], by simp [superseded_append, hsuperseded],
      by simp [finalized_append, hfinalized]⟩
  granted requestId k d hd := by
    have hd' : ClaimGranted requestId k log d := by simpa [granted_append] using hd
    rcases h.granted requestId k d hd' with hf | he | hr
    · exact .inl (finalized_append.2 (.inl hf))
    · exact .inr (.inl he.append)
    · exact .inr (.inr hr)
  finalized requestId k hk := by
    have hk' : ClaimFinalized requestId k log := by simpa [finalized_append] using hk
    exact acquired_append.2 (.inl (h.finalized requestId k hk'))
  one i j k hi hj := h.one i j k (by simpa [acquired_append] using hi) (by simpa [acquired_append] using hj)
  once k := by
    have hno : ClaimCall.stores k (c, false) = false := by cases c <;> rfl
    rw [List.countP_append]
    simpa [hno] using h.once k

/-- **An acquisition** with a new token takes the place of one that has no time left. -/
theorem ClaimsOK.acquired (h : ClaimsOK t log) {r : GitHubValidationRequest} (hr : r ∈ t)
    (hclaim : claimable now r = true) (hnew : ∀ i, ¬ ClaimAcquired i token log) :
    ClaimsOK (put (r.claimed token now (now + publicationClaimTtl)) t) (log ++ [(.acquire r.id token now, true)]) where
  ids := h.ids.put _
  held x hx k hk := by
    rcases of_mem_put hx with rfl | ⟨hx, hne⟩
    · -- the new token is the last one, and no result can have been stored with it
      obtain rfl : token = k := Option.some.inj hk
      refine ⟨acquired_append.2 (.inr ⟨now, rfl⟩), fun hs => ?_, fun hf => ?_⟩
      · rcases superseded_append.1 hs with ⟨before, after, now', rfl, -⟩ | ⟨hacquired, -⟩
        · exact hnew r.id ⟨now', List.mem_append_right _ List.mem_cons_self⟩
        · exact hnew r.id hacquired
      · rcases finalized_append.1 hf with hf | ⟨_, he⟩
        · exact hnew r.id (h.finalized _ _ hf)
        · cases he
    · obtain ⟨hacquired, hsuperseded, hfinalized⟩ := h.held x hx k hk
      have hid : x.id ≠ r.id := hne
      refine ⟨acquired_append.2 (.inl hacquired), fun hs => ?_, by simpa [finalized_append] using hfinalized⟩
      rcases superseded_append.1 hs with hs | ⟨-, _, _, -, he⟩
      · exact hsuperseded hs
      · exact hid (ClaimCall.acquire.inj (Prod.mk.inj he).1).1.symm
  granted requestId k d hd := by
    have hself : ∃ x ∈ put (r.claimed token now (now + publicationClaimTtl)) t, x.id = r.id ∧
        x.publicationClaimToken = some token ∧
        ∃ e, x.publicationClaimExpiresAt = some e ∧ now + publicationClaimTtl ≤ e :=
      ⟨_, mem_put_self hr rfl, rfl, rfl, _, rfl, le_rfl⟩
    rcases granted_append.1 hd with hd | ⟨now', rfl, he | he⟩
    · rcases h.granted requestId k d hd with hf | he | ⟨x, hx, rfl, htoken, e, he, hle⟩
      · exact .inl (finalized_append.2 (.inl hf))
      · exact .inr (.inl he.append)
      · by_cases hid : x.id = r.id
        · -- the token that was on the row has no time left
          obtain rfl := h.ids.eq_of_key hx hr hid
          simp only [claimable, htoken, he, Option.isNone_some, Bool.false_or, Option.any_some,
            decide_eq_true_eq] at hclaim
          exact .inr (.inl ⟨_, List.mem_append_right _ (List.mem_singleton_self _), now, rfl, hle.trans hclaim⟩)
        · exact .inr (.inr ⟨x, mem_put_of_ne hx hid, rfl, htoken, e, he, hle⟩)
    · obtain ⟨rfl, rfl, rfl⟩ := ClaimCall.acquire.inj (Prod.mk.inj he).1
      exact .inr (.inr hself)
    · cases (Prod.mk.inj he).1
  finalized requestId k hk := by
    have hk' : ClaimFinalized requestId k log := by simpa [finalized_append] using hk
    exact acquired_append.2 (.inl (h.finalized requestId k hk'))
  one i j k hi hj := by
    rcases acquired_append.1 hi with hi | ⟨_, hi⟩ <;> rcases acquired_append.1 hj with hj | ⟨_, hj⟩
    · exact h.one i j k hi hj
    · obtain ⟨-, rfl, -⟩ := ClaimCall.acquire.inj (Prod.mk.inj hj).1
      exact absurd hi (hnew i)
    · obtain ⟨-, rfl, -⟩ := ClaimCall.acquire.inj (Prod.mk.inj hi).1
      exact absurd hj (hnew j)
    · rw [← (ClaimCall.acquire.inj (Prod.mk.inj hi).1).1, ← (ClaimCall.acquire.inj (Prod.mk.inj hj).1).1]
  once k := by
    rw [List.countP_append]
    simpa [ClaimCall.stores] using h.once k

/-- **A renewal** moves the deadline of the token that is on the row. -/
theorem ClaimsOK.renewed (h : ClaimsOK t log) {r : GitHubValidationRequest} (hr : r ∈ t)
    (htoken : r.publicationClaimToken = some token) {e : Time} (he : r.publicationClaimExpiresAt = some e)
    (hclock : ∀ x ∈ log, ∀ earlier, x.1.now? = some earlier → earlier ≤ now) :
    ClaimsOK (put (r.renewed (now + publicationClaimTtl)) t) (log ++ [(.renew r.id token now, true)]) where
  ids := h.ids.put _
  held x hx k hk := by
    have hold : ∃ y ∈ t, y.id = x.id ∧ y.publicationClaimToken = some k := by
      rcases of_mem_put hx with rfl | ⟨hx, -⟩
      · exact ⟨r, hr, rfl, hk⟩
      · exact ⟨x, hx, rfl, hk⟩
    obtain ⟨y, hy, hid, hyk⟩ := hold
    obtain ⟨hacquired, hsuperseded, hfinalized⟩ := h.held y hy k hyk
    rw [hid] at hacquired hsuperseded hfinalized
    exact ⟨acquired_append.2 (.inl hacquired), by simp [superseded_append, hsuperseded],
      by simp [finalized_append, hfinalized]⟩
  granted requestId k d hd := by
    have hself : ∃ x ∈ put (r.renewed (now + publicationClaimTtl)) t, x.id = r.id ∧
        x.publicationClaimToken = some token ∧
        ∃ e, x.publicationClaimExpiresAt = some e ∧ now + publicationClaimTtl ≤ e :=
      ⟨_, mem_put_self hr rfl, rfl, htoken, _, rfl, le_rfl⟩
    rcases granted_append.1 hd with hold | ⟨now', rfl, he' | he'⟩
    · rcases h.granted requestId k d hold with hf | hpassed | ⟨x, hx, rfl, hxk, e', he', hle⟩
      · exact .inl (finalized_append.2 (.inl hf))
      · exact .inr (.inl hpassed.append)
      · by_cases hid : x.id = r.id
        · -- the deadlines that the token got before are not later than the new one
          obtain rfl := h.ids.eq_of_key hx hr hid
          obtain ⟨x', hx', htoken', hxid, e'', hexp, hle'⟩ := hself
          obtain ⟨earlier, rfl, hmem⟩ := hold
          have hearlier : earlier ≤ now := by
            rcases hmem with hmem | hmem
            · exact hclock (.acquire x.id k earlier, true) hmem earlier rfl
            · exact hclock (.renew x.id k earlier, true) hmem earlier rfl
          obtain rfl : k = token := Option.some.inj (hxk.symm.trans htoken)
          refine .inr (.inr ⟨x', hx', htoken', hxid, e'', hexp, le_trans ?_ hle'⟩)
          exact Int.add_le_add_right hearlier _
        · exact .inr (.inr ⟨x, mem_put_of_ne hx hid, rfl, hxk, e', he', hle⟩)
    · cases (Prod.mk.inj he').1
    · obtain ⟨rfl, rfl, rfl⟩ := ClaimCall.renew.inj (Prod.mk.inj he').1
      exact .inr (.inr hself)
  finalized requestId k hk := by
    have hk' : ClaimFinalized requestId k log := by simpa [finalized_append] using hk
    exact acquired_append.2 (.inl (h.finalized requestId k hk'))
  one i j k hi hj := h.one i j k (by simpa [acquired_append] using hi) (by simpa [acquired_append] using hj)
  once k := by
    rw [List.countP_append]
    simpa [ClaimCall.stores] using h.once k

/-- A token that has stored nothing is not among the results. -/
theorem ClaimsOK.none_stored (h : ClaimsOK t log) {r : GitHubValidationRequest} (hr : r ∈ t)
    (htoken : r.publicationClaimToken = some token) : log.countP (ClaimCall.stores token) = 0 := by
  obtain ⟨hacquired, -, hfinalized⟩ := h.held r hr token htoken
  rw [List.countP_eq_zero]
  rintro ⟨c, succeeded⟩ he hstores
  cases c with
  | finalize i k values =>
    cases succeeded with
    | false => cases hstores
    | true =>
      obtain rfl : k = token := by simpa [ClaimCall.stores] using hstores
      have hstored : ClaimFinalized i k log := ⟨values, he⟩
      obtain rfl := h.one i r.id k (h.finalized i k hstored) hacquired
      exact hfinalized hstored
  | acquire => cases hstores
  | renew => cases hstores

/-- **A result** frees the row. -/
theorem ClaimsOK.stored (h : ClaimsOK t log) {r : GitHubValidationRequest} (hr : r ∈ t)
    (htoken : r.publicationClaimToken = some token) (values : PublicationValues) :
    ClaimsOK (put (r.published values).released t) (log ++ [(.finalize r.id token values, true)]) where
  ids := h.ids.put _
  held x hx k hk := by
    rcases of_mem_put hx with rfl | ⟨hx, hne⟩
    · cases hk
    · obtain ⟨hacquired, hsuperseded, hfinalized⟩ := h.held x hx k hk
      have hid : x.id ≠ r.id := hne
      refine ⟨acquired_append.2 (.inl hacquired), by simp [superseded_append, hsuperseded], fun hf => ?_⟩
      rcases finalized_append.1 hf with hf | ⟨_, he⟩
      · exact hfinalized hf
      · exact hid (ClaimCall.finalize.inj (Prod.mk.inj he).1).1.symm
  granted requestId k d hd := by
    have hd' : ClaimGranted requestId k log d := by simpa [granted_append] using hd
    rcases h.granted requestId k d hd' with hf | he | ⟨x, hx, rfl, hxk, hdeadline⟩
    · exact .inl (finalized_append.2 (.inl hf))
    · exact .inr (.inl he.append)
    · by_cases hid : x.id = r.id
      · obtain rfl := h.ids.eq_of_key hx hr hid
        obtain rfl : token = k := Option.some.inj (htoken.symm.trans hxk)
        exact .inl (finalized_append.2 (.inr ⟨values, rfl⟩))
      · exact .inr (.inr ⟨x, mem_put_of_ne hx hid, rfl, hxk, hdeadline⟩)
  finalized requestId k hk := by
    rcases finalized_append.1 hk with hk | ⟨_, he⟩
    · exact acquired_append.2 (.inl (h.finalized requestId k hk))
    · obtain ⟨rfl, rfl, -⟩ := ClaimCall.finalize.inj (Prod.mk.inj he).1
      exact acquired_append.2 (.inl (h.held r hr token htoken).1)
  one i j k hi hj := h.one i j k (by simpa [acquired_append] using hi) (by simpa [acquired_append] using hj)
  once k := by
    rw [List.countP_append]
    by_cases hk : token = k
    · subst hk
      rw [h.none_stored hr htoken]
      simp [ClaimCall.stores]
    · simpa [ClaimCall.stores, hk] using h.once k

/-! ## Runs -/

/-- What one call adds to the table and the log. -/
theorem runClaims_append (t : GitHubRequests) (calls : List ClaimCall) (c : ClaimCall) :
    runClaims t (calls ++ [c]) = ((c.run (runClaims t calls).1).2,
      (runClaims t calls).2 ++ [(c, (c.run (runClaims t calls).1).1)]) := by
  unfold runClaims
  rw [List.foldl_append]
  rfl

/-- The log holds the calls. -/
theorem runClaims_calls (t : GitHubRequests) (calls : List ClaimCall) :
    (runClaims t calls).2.map Prod.fst = calls := by
  induction calls using List.reverseRecOn with
  | nil => rfl
  | append_singleton calls c ih =>
    rw [runClaims_append, List.map_append, ih]
    rfl

theorem mem_of_mem_log {e : ClaimCall × Bool} {calls : List ClaimCall} (h : e ∈ (runClaims t calls).2) :
    e.1 ∈ calls := by
  rw [← runClaims_calls t calls]
  exact List.mem_map_of_mem h

/-- **One call** keeps the invariant, if its token is new where it acquires one. -/
theorem ClaimsOK.step (h : ClaimsOK t log) (c : ClaimCall)
    (hnew : ∀ k, c.acquires? = some k → ∀ i, ¬ ClaimAcquired i k log)
    (hclock : ∀ now, c.now? = some now → ∀ x ∈ log, ∀ earlier, x.1.now? = some earlier → earlier ≤ now) :
    ClaimsOK (c.run t).2 (log ++ [(c, (c.run t).1)]) := by
  cases c with
  | acquire i k now =>
    rcases acquire_cases h.ids i k now (now + publicationClaimTtl) with ⟨heq, -⟩ | ⟨r, hr, rfl, hclaim, heq⟩
    · rw [show (ClaimCall.acquire i k now).run t = _ from heq]
      exact h.failed _
    · rw [show (ClaimCall.acquire r.id k now).run t = _ from heq]
      exact h.acquired hr hclaim (hnew k rfl)
  | renew i k now =>
    rcases renew_cases h.ids i k now (now + publicationClaimTtl) with heq | ⟨r, hr, rfl, htoken, ⟨e, he, -⟩, heq⟩
    · rw [show (ClaimCall.renew i k now).run t = _ from heq]
      exact h.failed _
    · rw [show (ClaimCall.renew r.id k now).run t = _ from heq]
      exact h.renewed hr htoken he (hclock now rfl)
  | finalize i k values =>
    rcases finalize_cases h.ids i k values with ⟨heq, -⟩ | ⟨r, hr, rfl, htoken, heq⟩
    · rw [show (ClaimCall.finalize i k values).run t = _ from heq]
      exact h.failed _
    · rw [show (ClaimCall.finalize r.id k values).run t = _ from heq]
      exact h.stored hr htoken values

/-- The readings that a call comes after. -/
theorem ClaimsInOrder.le {calls : List ClaimCall} {c x : ClaimCall} {now earlier : Time}
    (h : ClaimsInOrder (calls ++ [c])) (hc : c.now? = some now) (hx : x ∈ calls) (hearlier : x.now? = some earlier) :
    earlier ≤ now := by
  unfold ClaimsInOrder at h
  rw [List.filterMap_append, List.pairwise_append] at h
  refine h.2.2 earlier (List.mem_filterMap.2 ⟨x, hx, hearlier⟩) now ?_
  simp [hc]

theorem ClaimsInOrder.init {calls rest : List ClaimCall} (h : ClaimsInOrder (calls ++ rest)) : ClaimsInOrder calls := by
  unfold ClaimsInOrder at *
  rw [List.filterMap_append, List.pairwise_append] at h
  exact h.1

theorem TokensDistinct.init {calls rest : List ClaimCall} (h : TokensDistinct (calls ++ rest)) :
    TokensDistinct calls := by
  unfold TokensDistinct at *
  rw [List.filterMap_append] at h
  exact h.of_append_left

theorem TokensDistinct.new {calls : List ClaimCall} {c : ClaimCall} {k : String} (h : TokensDistinct (calls ++ [c]))
    (hc : c.acquires? = some k) {x : ClaimCall} (hx : x ∈ calls) : x.acquires? ≠ some k := by
  intro hk
  unfold TokensDistinct at h
  rw [List.filterMap_append, List.nodup_append] at h
  exact h.2.2 k (List.mem_filterMap.2 ⟨x, hx, hk⟩) k (by simp [hc]) rfl

/-- **Every sequence of calls** keeps the invariant. -/
theorem runClaims_ok (ht : Unclaimed t) {calls : List ClaimCall} (hclock : ClaimsInOrder calls)
    (htokens : TokensDistinct calls) : ClaimsOK (runClaims t calls).1 (runClaims t calls).2 := by
  induction calls using List.reverseRecOn with
  | nil => exact ht.ok
  | append_singleton calls c ih =>
    rw [runClaims_append]
    refine (ih hclock.init htokens.init).step c (fun k hk i => ?_) fun now hnow x hx earlier hearlier => ?_
    · rintro ⟨now, hmem⟩
      exact htokens.new hk (mem_of_mem_log hmem) rfl
    · exact hclock.le hnow (mem_of_mem_log hx) hearlier

/-- A token that is superseded or finalized is on no row. -/
theorem ClaimsOK.stale (h : ClaimsOK t log) {c : ClaimCall}
    (hc : (∃ now, c = .renew requestId token now) ∨ ∃ values, c = .finalize requestId token values)
    (hstale : ClaimSuperseded requestId token log ∨ ClaimFinalized requestId token log) : c.run t = (false, t) := by
  have hoff : ∀ r ∈ t, r.id = requestId → r.publicationClaimToken ≠ some token := by
    rintro r hr rfl htoken
    obtain ⟨-, hsuperseded, hfinalized⟩ := h.held r hr token htoken
    exact hstale.elim hsuperseded hfinalized
  rcases hc with ⟨now, rfl⟩ | ⟨values, rfl⟩
  · rcases renew_cases h.ids requestId token now (now + publicationClaimTtl) with heq | ⟨r, hr, hid, htoken, -⟩
    · exact heq
    · exact absurd htoken (hoff r hr hid)
  · rcases finalize_cases h.ids requestId token values with ⟨heq, -⟩ | ⟨r, hr, hid, htoken, -⟩
    · exact heq
    · exact absurd htoken (hoff r hr hid)

/-- A token with time left can only have been given up. -/
theorem ClaimsOK.exclusive (h : ClaimsOK t log) {other : String} {d : Time}
    (hgranted : ClaimGranted requestId token log d) (hnow : now < d)
    (hclock : ∀ x ∈ log, ∀ earlier, x.1.now? = some earlier → earlier ≤ now)
    (hacquires : ((ClaimCall.acquire requestId other now).run t).1 = true) : ClaimFinalized requestId token log := by
  rcases h.granted requestId token d hgranted with hf | ⟨x, hx, earlier, hearlier, hpassed⟩ | ⟨r, hr, hid, htoken, e, he, hle⟩
  · exact hf
  · exact absurd (hpassed.trans (hclock x hx earlier hearlier)) (not_le.2 hnow)
  · -- the row shows a claim with time left, so the acquisition fails
    exfalso
    rcases acquire_cases h.ids requestId other now (now + publicationClaimTtl) with ⟨heq, -⟩ |
      ⟨x, hx, hxid, hclaim, -⟩
    · rw [show (ClaimCall.acquire requestId other now).run t = _ from heq] at hacquires
      cases hacquires
    · obtain rfl := h.ids.eq_of_key hx hr (hxid.trans hid.symm)
      simp only [claimable, htoken, he, Option.isNone_some, Bool.false_or, Option.any_some, decide_eq_true_eq] at hclaim
      exact absurd (hle.trans hclaim) (not_le.2 hnow)

/-- **Publication claims are fenced**: in every sequence of acquisitions, renewals and results of publishers with
tokens of their own, under a clock that does not go backwards. -/
theorem runClaims_fenced (ht : Unclaimed t) {calls : List ClaimCall} (hclock : ClaimsInOrder calls)
    (htokens : TokensDistinct calls) : ClaimsFenced t calls where
  stale before c after requestId token hcalls hc hstale := by
    subst hcalls
    exact (runClaims_ok ht hclock.init htokens.init).stale hc hstale
  once := (runClaims_ok ht hclock htokens).once
  exclusive before now after requestId token other d hcalls _ hgranted hnow hacquires := by
    subst hcalls
    refine (runClaims_ok ht hclock.init htokens.init).exclusive hgranted hnow (fun x hx earlier hearlier => ?_) hacquires
    rw [← List.singleton_append, ← List.append_assoc] at hclock
    exact hclock.init.le rfl (mem_of_mem_log hx) hearlier

/-- A request on which a publisher is superseded by a second one. -/
def sampleRequest : GitHubValidationRequest :=
  { id := 1
    identity :=
      { idempotencyKey := "k", githubApiUrl := "https://api.github.com", githubHost := "github.com"
        repositoryFullName := "o/r", repositoryId := 1, repositoryNodeId := "R_1", githubActorId := some 1
        githubActorNodeId := some "U_1", pullRequestNumber := 1, pullRequestId := 1, pullRequestNodeId := "PR_1"
        pullRequestState := "open", pullRequestDraft := false, pullRequestMerged := false, baseRef := "main"
        baseSha := "b", headRef := "topic", headSha := "a", headRepositoryFullName := "o/r", headRepositoryId := 1
        manifestName := "python-quality", manifestVersion := "1", manifestDigest := "d", operatorId := "operator"
        workOrderId := 1 }
    lastTransportReason := some "github_pr_resolved", lastResolvedAt := 0 }

/-- The first publisher comes back after its claim has run out. -/
def supersededClaims : List ClaimCall :=
  [.acquire 1 "p" 0, .acquire 1 "q" 1, .acquire 1 "q2" publicationClaimTtl,
    .finalize 1 "p" { publicationState := some .failed }, .finalize 1 "q2" { publicationState := some .publishedCurrent }]

theorem sampleRequest_unclaimed : Unclaimed [sampleRequest] where
  ids := List.nodup_singleton _
  tokens := by decide

theorem runClaims_fenced_sample : ClaimsFenced [sampleRequest] supersededClaims :=
  runClaims_fenced sampleRequest_unclaimed (by unfold ClaimsInOrder; decide) (by unfold TokensDistinct; decide)

/-- The late result is refused, and the second one is stored. -/
example : (runClaims [sampleRequest] supersededClaims).2.map Prod.snd = [true, false, true, false, true] := by decide

end Switchboard
