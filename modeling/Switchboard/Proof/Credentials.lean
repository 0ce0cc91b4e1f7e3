import Switchboard.Spec.Credentials

/-!
# Which tokens authenticate

* `matchToken_iff`: the pattern matches the tokens that can be minted, and no other text.
* `Keyring`: what the rows say about the history of the successful calls; `step_keyring`,
  `runCredentials_keyring`: every call keeps it.
* `runCredentials_authenticate`: a token authenticates as a worker if and only if it is the
  last one that the worker was given and has not been revoked since.
-/

namespace Switchboard

open Transaction Credentials

/-! ## Tokens -/

theorem matchToken_token (m : Minted) : matchToken m.token = some (m.credentialId.text, m.secret.text) := by
  have hid := m.credentialId.length
  have hsecret := m.secret.length
  have hbefore : m.token.take 7 = "swb_w1.".toList := rfl
  have hrest : m.token.drop 7 = m.credentialId.text ++ '.' :: m.secret.text := rfl
  have htake : (m.credentialId.text ++ '.' :: m.secret.text).take 32 = m.credentialId.text := by
    rw [List.take_append_of_le_length (by omega), List.take_of_length_le (by omega)]
  have hdot : (m.credentialId.text ++ '.' :: m.secret.text)[32]? = some '.' := by
    rw [List.getElem?_append_right (by omega), hid]
    rfl
  have hdrop : (m.credentialId.text ++ '.' :: m.secret.text).drop 33 = m.secret.text := by
    rw [List.drop_append, hid, List.drop_of_length_le (by omega)]
    rfl
  unfold matchToken
  simp only [hbefore, hrest, htake, hdot, hdrop]
  rw [if_pos ⟨trivial, by omega, m.credentialId.hex, trivial, by omega, m.secret.hex⟩]

/-- **The pattern matches exactly the tokens that can be minted.** -/
theorem matchToken_iff {token a b : List Char} :
    matchToken token = some (a, b) ↔ ∃ m : Minted, token = m.token ∧ a = m.credentialId.text ∧ b = m.secret.text := by
  constructor
  · intro h
    simp only [matchToken, Option.ite_none_right_eq_some, Option.some.injEq, Prod.mk.injEq] at h
    obtain ⟨⟨hbefore, hid, hidHex, hdot, hsecret, hsecretHex⟩, rfl, rfl⟩ := h
    refine ⟨⟨⟨_, hid, hidHex⟩, ⟨_, hsecret, hsecretHex⟩⟩, ?_, rfl, rfl⟩
    have hrest : token.drop 7 = (token.drop 7).take 32 ++ '.' :: (token.drop 7).drop 33 := by
      conv_lhs => rw [← List.take_append_drop 32 (token.drop 7)]
      congr 1
      obtain ⟨hlt, hget⟩ := List.getElem?_eq_some_iff.1 hdot
      rw [List.drop_eq_getElem_cons hlt, hget]
    calc token = token.take 7 ++ token.drop 7 := (List.take_append_drop 7 token).symm
      _ = "swb_w1.".toList ++ ((token.drop 7).take 32 ++ '.' :: (token.drop 7).drop 33) := by rw [hbefore, ← hrest]
  · rintro ⟨m, rfl, rfl, rfl⟩
    exact matchToken_token m

theorem Minted.token_inj {m m' : Minted} (h : m.token = m'.token) :
    m.credentialId.text = m'.credentialId.text ∧ m.secret.text = m'.secret.text := by
  have heq := matchToken_token m
  rw [h, matchToken_token m'] at heq
  simp only [Option.some.injEq, Prod.mk.injEq] at heq
  exact ⟨heq.1.symm, heq.2.symm⟩

/-! ## Calls -/

section calls

variable {sha256 : List Char → String} {ss ss' : Session CredentialStore} {w : String} {expected : List Char}
  {m : Minted} {now : Time}

theorem getCredential_some {s : CredentialStore} {row : WorkerCredential} (h : getCredential w s = some row) :
    row ∈ s.credentials ∧ row.workerId = w :=
  ⟨List.mem_of_find?_eq_some h, by simpa using List.find?_some h⟩

theorem getCredential_none {s : CredentialStore} (h : getCredential w s = none) :
    ∀ r ∈ s.credentials, r.workerId ≠ w := by
  intro r hr
  simpa using List.find?_eq_none.1 h r hr

/-- The row of a new credential. -/
def issuedRow (sha256 : List Char → String) (w : String) (m : Minted) (now : Time) : WorkerCredential :=
  { workerId := w, credentialId := m.credentialId.text, verifier := sha256 m.secret.text, createdAt := now
    rotatedAt := none, revokedAt := none }

theorem ensureWorker_ok {u : Unit} (h : ensureWorker w now ss = .ok (u, ss')) :
    ss'.db.credentials = ss.db.credentials := by
  obtain ⟨known, _, hread, h⟩ := bind_ok.1 h
  obtain ⟨-, rfl⟩ := read_ok.1 hread
  split at h
  · obtain ⟨-, rfl⟩ := pure_ok.1 h
    rfl
  · obtain ⟨-, rfl⟩ := exec_ok.1 h
    rfl

theorem issue_ok {out : WorkerCredential × List Char} (h : issue sha256 w m now ss = .ok (out, ss')) :
    out.2 = m.token ∧ (∀ r ∈ ss.db.credentials, r.workerId ≠ w ∧ r.credentialId ≠ m.credentialId.text) ∧
      ss'.db.credentials = ss.db.credentials ++ [issuedRow sha256 w m now] := by
  simp only [issue, bind_ok, read_ok, require_ok, exec_ok, pure_ok] at h
  obtain ⟨_, _, ⟨rfl, rfl⟩, _, _, ⟨hnone, rfl⟩, _, ss₁, hworker, _, _, ⟨rfl, rfl⟩, _, _, ⟨htaken, rfl⟩, _, _, ⟨-, rfl⟩,
    rfl, rfl⟩ := h
  have hsame := ensureWorker_ok hworker
  refine ⟨rfl, fun r hr => ⟨getCredential_none (Option.isNone_iff_eq_none.1 hnone) r hr, ?_⟩, ?_⟩
  · rw [← hsame] at hr
    intro heq
    simp only [Bool.not_eq_true', List.any_eq_false, beq_iff_eq] at htaken
    exact htaken r hr heq
  · show ss₁.db.credentials ++ [issuedRow sha256 w m now] = _
    rw [hsame]

/-- The row of a rotated credential. -/
def rotatedRow (sha256 : List Char → String) (m : Minted) (now : Time) (r : WorkerCredential) : WorkerCredential :=
  { r with
    credentialId := m.credentialId.text, verifier := sha256 m.secret.text, rotatedAt := some now, revokedAt := none }

/-- The row that an expected id guards. -/
def guards (w : String) (expected : List Char) (r : WorkerCredential) : Bool :=
  r.workerId == w && r.credentialId == expected

theorem rotate_ok {out : WorkerCredential × List Char} (h : rotate sha256 w expected m now ss = .ok (out, ss')) :
    out.2 = m.token ∧ (∃ r ∈ ss.db.credentials, guards w expected r = true) ∧
      (∀ r ∈ ss.db.credentials, guards w expected r = false → r.credentialId ≠ m.credentialId.text) ∧
      ss'.db.credentials = ss.db.credentials.map fun r =>
        if guards w expected r then rotatedRow sha256 m now r else r := by
  simp only [rotate, bind_ok, read_ok, require_ok, exec_ok, requireSome_ok, pure_ok] at h
  obtain ⟨_, _, ⟨rfl, rfl⟩, _, _, ⟨hclash, rfl⟩, _, _, ⟨rfl, rfl⟩, _, _, ⟨hcount, rfl⟩, _, _, ⟨-, rfl⟩, _, _, ⟨-, rfl⟩,
    rfl, rfl⟩ := h
  have hrow : ∃ r ∈ ss.db.credentials, guards w expected r = true := by
    have hcount' : ss.db.credentials.countP (guards w expected) = 1 := beq_iff_eq.1 hcount
    exact List.countP_pos_iff.1 (by omega)
  refine ⟨rfl, hrow, fun r hr hguard heq => ?_, rfl⟩
  have hany : ss.db.credentials.any (guards w expected) = true := List.any_eq_true.2 hrow
  have hother : (ss.db.credentials.any fun r => !guards w expected r && r.credentialId == m.credentialId.text) = true :=
    List.any_eq_true.2 ⟨r, hr, by simp [hguard, heq]⟩
  have hboth : (ss.db.credentials.any (guards w expected) &&
      ss.db.credentials.any fun r => !guards w expected r && r.credentialId == m.credentialId.text) = true := by
    rw [hany, hother]
    rfl
  change (!(ss.db.credentials.any (guards w expected) &&
      ss.db.credentials.any fun r => !guards w expected r && r.credentialId == m.credentialId.text)) = true at hclash
  rw [hboth] at hclash
  cases hclash

/-- The row of a revoked credential. -/
def revokedRow (now : Time) (r : WorkerCredential) : WorkerCredential := { r with revokedAt := some now }

theorem revoke_ok {out : WorkerCredential} (h : revoke w expected now ss = .ok (out, ss')) :
    out.workerId = w ∧ out.credentialId = expected ∧ out ∈ ss'.db.credentials ∧
      ss'.db.credentials = ss.db.credentials.map fun r =>
        if guards w expected r && r.revokedAt.isNone then revokedRow now r else r := by
  simp only [revoke, bind_ok, read_ok, require_ok, exec_ok, requireSome_ok, pure_ok] at h
  obtain ⟨_, _, ⟨-, rfl⟩, _, _, ⟨hget, rfl⟩, row, _, ⟨hrow, rfl⟩, _, _, ⟨hid, rfl⟩, rfl, rfl⟩ := h
  rw [hrow] at hget
  obtain ⟨hmem, hworker⟩ := getCredential_some hget
  exact ⟨hworker, by simpa using hid, hmem, rfl⟩

end calls

/-! ## The invariant -/

/-- What one row says about the history: it holds the last credential of its worker, and whether it was revoked. -/
structure RowOK (sha256 : List Char → String) (history : List CredentialEvent) (r : WorkerCredential) : Prop where
  last : ∃ m : Minted, lastToken r.workerId history = some m.token ∧ r.credentialId = m.credentialId.text ∧
    r.verifier = sha256 m.secret.text
  revoked : r.revokedAt = none ↔ revokedSince r.workerId history = false

/-- **The rows are the last credentials of the workers.** -/
structure Keyring (sha256 : List Char → String) (history : List CredentialEvent) (rows : List WorkerCredential) :
    Prop where
  worker : ∀ r ∈ rows, ∀ r' ∈ rows, r.workerId = r'.workerId → r = r'
  id : ∀ r ∈ rows, ∀ r' ∈ rows, r.credentialId = r'.credentialId → r = r'
  row : ∀ r ∈ rows, RowOK sha256 history r
  issued : ∀ w token, lastToken w history = some token → ∃ r ∈ rows, r.workerId = w

section keyring

variable {sha256 : List Char → String} {history : List CredentialEvent} {rows : List WorkerCredential}
  {r r' : WorkerCredential} {w : String} {expected : List Char} {m : Minted} {now : Time} {e : CredentialEvent}

theorem Keyring.init : Keyring sha256 [] [] :=
  ⟨by simp, by simp, by simp, by simp [lastToken]⟩

/-- An event of another worker says nothing about the row. -/
theorem RowOK.other (h : RowOK sha256 history r) (he : e.call.workerId ≠ r.workerId) : RowOK sha256 (e :: history) r := by
  refine ⟨?_, ?_⟩
  · simpa only [lastToken, he, false_and, if_false] using h.last
  · simpa only [revokedSince, he, if_false] using h.revoked

theorem lastToken_other (he : e.call.workerId ≠ w) : lastToken w (e :: history) = lastToken w history := by
  simp only [lastToken, he, false_and, if_false]

/-- A row that was written by the newest event. -/
theorem RowOK.fresh (he : e.call.workerId = r.workerId) (htoken : e.token = some m.token)
    (hid : r.credentialId = m.credentialId.text) (hverifier : r.verifier = sha256 m.secret.text)
    (hrevoked : r.revokedAt = none) : RowOK sha256 (e :: history) r := by
  refine ⟨⟨m, ?_, hid, hverifier⟩, ?_⟩
  · simp only [lastToken, he, htoken, Option.isSome_some, and_self, if_true]
  · simp only [revokedSince, he, htoken, hrevoked, if_true, Option.isNone_some]

theorem Keyring.issue (h : Keyring sha256 history rows)
    (hnew : ∀ r ∈ rows, r.workerId ≠ w ∧ r.credentialId ≠ m.credentialId.text) (he : e.call.workerId = w)
    (htoken : e.token = some m.token) :
    Keyring sha256 (e :: history) (rows ++ [issuedRow sha256 w m now]) where
  worker := by
    intro r hr r' hr' heq
    rw [List.mem_append, List.mem_singleton] at hr hr'
    rcases hr with hr | rfl <;> rcases hr' with hr' | rfl
    · exact h.worker r hr r' hr' heq
    · exact absurd heq (hnew r hr).1
    · exact absurd heq.symm (hnew r' hr').1
    · rfl
  id := by
    intro r hr r' hr' heq
    rw [List.mem_append, List.mem_singleton] at hr hr'
    rcases hr with hr | rfl <;> rcases hr' with hr' | rfl
    · exact h.id r hr r' hr' heq
    · exact absurd heq (hnew r hr).2
    · exact absurd heq.symm (hnew r' hr').2
    · rfl
  row := by
    intro r hr
    rcases List.mem_append.1 hr with hr | hr
    · exact (h.row r hr).other (by rw [he]; exact (hnew r hr).1.symm)
    · obtain rfl := List.mem_singleton.1 hr
      exact RowOK.fresh he htoken rfl rfl rfl
  issued := by
    intro w' token hlast
    by_cases hw : w = w'
    · exact ⟨_, List.mem_append_right _ List.mem_cons_self, hw⟩
    · rw [lastToken_other (by rw [he]; exact hw)] at hlast
      obtain ⟨r, hr, hrw⟩ := h.issued w' token hlast
      exact ⟨r, List.mem_append_left _ hr, hrw⟩

/-- A statement that leaves the worker of every row alone. -/
theorem Keyring.map_worker (h : Keyring sha256 history rows) {f : WorkerCredential → WorkerCredential}
    (hf : ∀ r, (f r).workerId = r.workerId) :
    ∀ r ∈ rows.map f, ∀ r' ∈ rows.map f, r.workerId = r'.workerId → r = r' := by
  intro r hr r' hr' heq
  obtain ⟨x, hx, rfl⟩ := List.mem_map.1 hr
  obtain ⟨y, hy, rfl⟩ := List.mem_map.1 hr'
  rw [hf, hf] at heq
  rw [h.worker x hx y hy heq]

theorem guards_worker (h : guards w expected r = true) : r.workerId = w := by
  simp only [guards, Bool.and_eq_true, beq_iff_eq] at h
  exact h.1

theorem Keyring.rotate (h : Keyring sha256 history rows) (hrow : ∃ r ∈ rows, guards w expected r = true)
    (hfree : ∀ r ∈ rows, guards w expected r = false → r.credentialId ≠ m.credentialId.text) (he : e.call.workerId = w)
    (htoken : e.token = some m.token) :
    Keyring sha256 (e :: history)
      (rows.map fun r => if guards w expected r then rotatedRow sha256 m now r else r) := by
  have hkeep : ∀ r : WorkerCredential,
      (if guards w expected r then rotatedRow sha256 m now r else r).workerId = r.workerId := by
    intro r
    split <;> rfl
  -- the guarded row is the row of its worker
  have hguard : ∀ x ∈ rows, x.workerId = w → guards w expected x = true := by
    intro x hx hxw
    obtain ⟨r, hr, hg⟩ := hrow
    rwa [h.worker x hx r hr (hxw.trans (guards_worker hg).symm)]
  refine ⟨h.map_worker hkeep, ?_, ?_, ?_⟩
  · intro r hr r' hr' heq
    obtain ⟨x, hx, rfl⟩ := List.mem_map.1 hr
    obtain ⟨y, hy, rfl⟩ := List.mem_map.1 hr'
    cases hgx : guards w expected x <;> cases hgy : guards w expected y <;> simp only [hgx, hgy] at heq ⊢
    · exact h.id x hx y hy heq
    · exact absurd heq (hfree x hx hgx)
    · exact absurd heq.symm (hfree y hy hgy)
    · rw [h.worker x hx y hy ((guards_worker hgx).trans (guards_worker hgy).symm)]
  · intro r hr
    obtain ⟨x, hx, rfl⟩ := List.mem_map.1 hr
    cases hg : guards w expected x with
    | true => exact RowOK.fresh (he.trans (guards_worker hg).symm) htoken rfl rfl rfl
    | false =>
      refine (h.row x hx).other ?_
      rw [he]
      intro hw
      rw [hguard x hx hw.symm] at hg
      cases hg
  · intro w' token hlast
    by_cases hw : w = w'
    · obtain ⟨r, hr, hg⟩ := hrow
      exact ⟨_, List.mem_map_of_mem hr, (hkeep r).trans ((guards_worker hg).trans hw)⟩
    · rw [lastToken_other (by rw [he]; exact hw)] at hlast
      obtain ⟨r, hr, hrw⟩ := h.issued w' token hlast
      exact ⟨_, List.mem_map_of_mem hr, (hkeep r).trans hrw⟩

theorem Keyring.revoke (h : Keyring sha256 history rows)
    (hrow : ∃ r ∈ rows, guards w expected r = true) (he : e.call.workerId = w) (htoken : e.token = none) :
    Keyring sha256 (e :: history)
      (rows.map fun r => if guards w expected r && r.revokedAt.isNone then revokedRow now r else r) := by
  have hkeep : ∀ r : WorkerCredential,
      (if guards w expected r && r.revokedAt.isNone then revokedRow now r else r).workerId = r.workerId ∧
      (if guards w expected r && r.revokedAt.isNone then revokedRow now r else r).credentialId = r.credentialId ∧
      (if guards w expected r && r.revokedAt.isNone then revokedRow now r else r).verifier = r.verifier := by
    intro r
    split <;> exact ⟨rfl, rfl, rfl⟩
  have hlasts : ∀ w', lastToken w' (e :: history) = lastToken w' history := by
    intro w'
    simp only [lastToken, htoken, Option.isSome_none, Bool.false_eq_true, and_false, if_false]
  refine ⟨h.map_worker fun r => (hkeep r).1, ?_, ?_, ?_⟩
  · intro r hr r' hr' heq
    obtain ⟨x, hx, rfl⟩ := List.mem_map.1 hr
    obtain ⟨y, hy, rfl⟩ := List.mem_map.1 hr'
    rw [(hkeep x).2.1, (hkeep y).2.1] at heq
    rw [h.id x hx y hy heq]
  · intro r hr
    obtain ⟨x, hx, rfl⟩ := List.mem_map.1 hr
    obtain ⟨hw, hid, hverifier⟩ := hkeep x
    refine ⟨?_, ?_⟩
    · rw [hw, hid, hverifier, hlasts]
      exact (h.row x hx).last
    · rw [hw]
      by_cases hxw : x.workerId = w
      · -- the guarded row is revoked now, if it was not before
        have hg : guards w expected x = true := by
          obtain ⟨r, hr, hg⟩ := hrow
          rwa [h.worker x hx r hr (hxw.trans (guards_worker hg).symm)]
        simp only [revokedSince, he, hxw, htoken, if_true, Option.isNone_none, hg, Bool.true_and]
        cases hrevoked : x.revokedAt with
        | none => simp [revokedRow]
        | some t => simp [hrevoked]
      · have hg : guards w expected x = false := by
          by_contra hcontra
          exact hxw (guards_worker (Bool.not_eq_false _ ▸ hcontra))
        simp only [hg, Bool.false_and, Bool.false_eq_true, if_false]
        exact ((h.row x hx).other (by rw [he]; exact fun heq => hxw heq.symm)).revoked
  · intro w' token hlast
    rw [hlasts] at hlast
    obtain ⟨r, hr, hrw⟩ := h.issued w' token hlast
    exact ⟨_, List.mem_map_of_mem hr, (hkeep r).1.trans hrw⟩

end keyring

/-! ## Runs -/

section runs

variable {sha256 : List Char → String}

/-- Every call keeps the keyring. -/
theorem step_keyring {run : CredentialRun} (h : Keyring sha256 run.history run.session.db.credentials)
    (c : CredentialCall) :
    Keyring sha256 (run.step sha256 c).history (run.step sha256 c).session.db.credentials := by
  unfold CredentialRun.step
  cases hc : c.perform sha256 run.session with
  | error e => exact h
  | ok out =>
    obtain ⟨token, ss⟩ := out
    cases c with
    | issue w m now =>
      obtain ⟨row, _, hissue, hpure⟩ := bind_ok.1 hc
      obtain ⟨rfl, rfl⟩ := pure_ok.1 hpure
      obtain ⟨htoken, hnew, hrows⟩ := issue_ok hissue
      show Keyring sha256 _ _
      rw [hrows]
      exact h.issue hnew rfl (congrArg some htoken)
    | rotate w expected m now =>
      obtain ⟨row, _, hrotate, hpure⟩ := bind_ok.1 hc
      obtain ⟨rfl, rfl⟩ := pure_ok.1 hpure
      obtain ⟨htoken, hrow, hfree, hrows⟩ := rotate_ok hrotate
      show Keyring sha256 _ _
      rw [hrows]
      exact h.rotate hrow hfree rfl (congrArg some htoken)
    | revoke w expected now =>
      obtain ⟨row, _, hrevoke, hpure⟩ := bind_ok.1 hc
      obtain ⟨rfl, rfl⟩ := pure_ok.1 hpure
      obtain ⟨hworker, hid, hmem, hrows⟩ := revoke_ok hrevoke
      -- the row that is returned was there before, under the same id
      have hrow : ∃ r ∈ run.session.db.credentials, guards w expected r = true := by
        rw [hrows] at hmem
        obtain ⟨x, hx, rfl⟩ := List.mem_map.1 hmem
        refine ⟨x, hx, ?_⟩
        split at hworker
        · rename_i hg
          exact (Bool.and_eq_true_iff.1 hg).1
        · rename_i hg
          rw [if_neg hg] at hid
          simp [guards, hworker, hid]
      show Keyring sha256 _ _
      rw [hrows]
      exact h.revoke hrow rfl rfl

theorem runCredentials_keyring (calls : List CredentialCall) :
    Keyring sha256 (runCredentials sha256 calls).history (runCredentials sha256 calls).session.db.credentials := by
  unfold runCredentials
  have hinit : Keyring sha256 (CredentialRun.mk ⟨CredentialStore.init, []⟩ []).history
      (CredentialRun.mk ⟨CredentialStore.init, []⟩ []).session.db.credentials := Keyring.init
  generalize CredentialRun.mk ⟨CredentialStore.init, []⟩ [] = run at hinit
  induction calls generalizing run with
  | nil => exact hinit
  | cons c calls ih => exact ih _ (step_keyring hinit c)

/-- A row is what its own token finds. -/
theorem authenticate_row {s : CredentialStore} {history : List CredentialEvent}
    (h : Keyring sha256 history s.credentials) {r : WorkerCredential} (hr : r ∈ s.credentials) {m : Minted}
    (hid : r.credentialId = m.credentialId.text) (hverifier : r.verifier = sha256 m.secret.text)
    (hrevoked : r.revokedAt = none) : authenticate sha256 s m.token = some ⟨r.workerId, r.credentialId⟩ := by
  have hfind : (s.credentials.find? fun x => x.credentialId == m.credentialId.text) = some r := by
    cases hf : s.credentials.find? fun x => x.credentialId == m.credentialId.text with
    | none => exact absurd hid (by simpa using List.find?_eq_none.1 hf r hr)
    | some x =>
      have hx : x.credentialId = m.credentialId.text := by simpa using List.find?_some hf
      rw [h.id x (List.mem_of_find?_eq_some hf) r hr (hx.trans hid.symm)]
  simp only [authenticate, matchToken_token, hfind, hverifier, hrevoked, and_self, if_true]

/-- What a token that authenticates has found. -/
theorem authenticate_some {s : CredentialStore} {token : List Char} {p : WorkerPrincipal}
    (h : authenticate sha256 s token = some p) :
    ∃ m : Minted, token = m.token ∧ ∃ r ∈ s.credentials, r.credentialId = m.credentialId.text ∧
      sha256 m.secret.text = r.verifier ∧ r.revokedAt = none ∧ p = ⟨r.workerId, r.credentialId⟩ := by
  unfold authenticate at h
  split at h
  · cases h
  · rename_i a b hmatch
    obtain ⟨m, rfl, rfl, rfl⟩ := matchToken_iff.1 hmatch
    split at h
    · cases h
    · rename_i row hfind
      rw [Option.ite_none_right_eq_some, Option.some.injEq] at h
      obtain ⟨⟨hverifier, hrevoked⟩, rfl⟩ := h
      exact ⟨m, rfl, row, List.mem_of_find?_eq_some hfind, by simpa using List.find?_some hfind, hverifier, hrevoked,
        rfl⟩

/-- The secrets have different hashes. -/
def InjectiveOnSecrets (sha256 : List Char → String) : Prop :=
  ∀ a b : TokenHex 32, sha256 a.text = sha256 b.text → a.text = b.text

theorem Keyring.authenticate_iff (hsha : InjectiveOnSecrets sha256) {s : CredentialStore}
    {history : List CredentialEvent} (h : Keyring sha256 history s.credentials) (w : String) (token : List Char) :
    (∃ id, authenticate sha256 s token = some ⟨w, id⟩) ↔
      lastToken w history = some token ∧ revokedSince w history = false := by
  constructor
  · rintro ⟨id, hauth⟩
    obtain ⟨m, rfl, r, hr, hid, hverifier, hrevoked, hp⟩ := authenticate_some hauth
    obtain ⟨rfl, rfl⟩ := WorkerPrincipal.mk.inj hp
    obtain ⟨m', hlast, hid', hverifier'⟩ := (h.row r hr).last
    have hsecret : m.secret.text = m'.secret.text := hsha _ _ (hverifier.trans hverifier')
    have htoken : m'.token = m.token := by
      unfold Minted.token
      rw [← hid', hid, hsecret]
    exact ⟨htoken ▸ hlast, (h.row r hr).revoked.1 hrevoked⟩
  · rintro ⟨hlast, hrevoked⟩
    obtain ⟨r, hr, rfl⟩ := h.issued w token hlast
    obtain ⟨m, hlast', hid, hverifier⟩ := (h.row r hr).last
    obtain rfl : m.token = token := Option.some.inj (hlast'.symm.trans hlast)
    exact ⟨_, authenticate_row h hr hid hverifier ((h.row r hr).revoked.2 hrevoked)⟩

/-- **Which tokens authenticate.** After any sequence of calls a token authenticates as a worker if and only if it is
what the worker's last successful `issue` or `rotate` returned and there was no successful `revoke` since. So a worker
has at most one valid token, a token has at most one worker, and `issue` on a worker that has a credential, revoked
or not, changes nothing. -/
theorem runCredentials_authenticate (sha256 : List Char → String) (hsha : InjectiveOnSecrets sha256)
    (calls : List CredentialCall) :
    (∀ w token, (∃ id, authenticate sha256 (runCredentials sha256 calls).session.db token = some ⟨w, id⟩) ↔
      lastToken w (runCredentials sha256 calls).history = some token ∧
      revokedSince w (runCredentials sha256 calls).history = false) ∧
    (∀ w token token' id id', authenticate sha256 (runCredentials sha256 calls).session.db token = some ⟨w, id⟩ →
      authenticate sha256 (runCredentials sha256 calls).session.db token' = some ⟨w, id'⟩ → token = token') ∧
    (∀ w w' token, lastToken w (runCredentials sha256 calls).history = some token →
      lastToken w' (runCredentials sha256 calls).history = some token → w = w') ∧
    (∀ w m now, (lastToken w (runCredentials sha256 calls).history).isSome = true →
      runCredentials sha256 (calls ++ [.issue w m now]) = runCredentials sha256 calls) := by
  have h : Keyring sha256 (runCredentials sha256 calls).history (runCredentials sha256 calls).session.db.credentials :=
    runCredentials_keyring calls
  have hiff := h.authenticate_iff hsha
  refine ⟨hiff, ?_, ?_, ?_⟩
  · intro w token token' id id' hauth hauth'
    have hlast := ((hiff w token).1 ⟨id, hauth⟩).1
    have hlast' := ((hiff w token').1 ⟨id', hauth'⟩).1
    exact Option.some.inj (hlast.symm.trans hlast')
  · intro w w' token hlast hlast'
    obtain ⟨r, hr, rfl⟩ := h.issued w token hlast
    obtain ⟨r', hr', rfl⟩ := h.issued w' token hlast'
    obtain ⟨m, hm, hid, -⟩ := (h.row r hr).last
    obtain ⟨m', hm', hid', -⟩ := (h.row r' hr').last
    have htoken : m.token = m'.token := by
      rw [hlast] at hm
      rw [hlast'] at hm'
      exact Option.some.inj (hm.symm.trans hm')
    rw [h.id r hr r' hr' (hid.trans ((Minted.token_inj htoken).1.trans hid'.symm))]
  · intro w m now hissued
    obtain ⟨token, hlast⟩ := Option.isSome_iff_exists.1 hissued
    obtain ⟨r, hr, hrw⟩ := h.issued w token hlast
    have hstep : runCredentials sha256 (calls ++ [.issue w m now]) =
        (runCredentials sha256 calls).step sha256 (.issue w m now) := by
      unfold runCredentials
      rw [List.foldl_append]
      rfl
    rw [hstep]
    unfold CredentialRun.step
    cases hc : (CredentialCall.issue w m now).perform sha256 (runCredentials sha256 calls).session with
    | error e => rfl
    | ok out =>
      obtain ⟨row, _, hok, -⟩ := bind_ok.1 hc
      exact absurd hrw ((issue_ok hok).2.1 r hr).1

end runs

/-! ## A rotation -/

/-- SHA-256 on the two secrets of the sample. -/
def sampleSha256 (secret : List Char) : String :=
  if secret = List.replicate 64 '0' then "60e05bd1b195af2f94112fa7197a5c88289058840ce7c6df9693756bc6250f55"
  else if secret = List.replicate 64 '1' then "3138bb9bc78df27c473ecfd1410f7bd45ebac1f59cf3ff9cfe4db77aab7aedd3"
  else String.ofList ('s' :: secret)

theorem sampleSha256_injective : InjectiveOnSecrets sampleSha256 := by
  intro a b h
  unfold sampleSha256 at h
  -- a text that begins with an `s` is no digest
  have hdigest : ∀ t : List Char, String.ofList ('s' :: t) ≠
        "60e05bd1b195af2f94112fa7197a5c88289058840ce7c6df9693756bc6250f55" ∧
      String.ofList ('s' :: t) ≠ "3138bb9bc78df27c473ecfd1410f7bd45ebac1f59cf3ff9cfe4db77aab7aedd3" := by
    intro t
    constructor <;> intro ht <;> simpa using congrArg (fun u => u.toList.head?) ht
  by_cases ha : a.text = List.replicate 64 '0' <;> by_cases hb : b.text = List.replicate 64 '0'
  · rw [ha, hb]
  · rw [if_pos ha, if_neg hb] at h
    split at h
    · exact absurd h (by decide)
    · exact absurd h.symm (hdigest _).1
  · rw [if_neg ha, if_pos hb] at h
    split at h
    · exact absurd h (by decide)
    · exact absurd h (hdigest _).1
  · rw [if_neg ha, if_neg hb] at h
    by_cases ha' : a.text = List.replicate 64 '1' <;> by_cases hb' : b.text = List.replicate 64 '1'
    · rw [ha', hb']
    · rw [if_pos ha', if_neg hb'] at h
      exact absurd h.symm (hdigest _).2
    · rw [if_neg ha', if_pos hb'] at h
      exact absurd h (hdigest _).2
    · rw [if_neg ha', if_neg hb'] at h
      simpa using String.ofList_injective h

def sampleMinted (c : Char) (h : isHexChar c = true) : Minted :=
  ⟨⟨List.replicate 32 c, by simp, by simp [h]⟩, ⟨List.replicate 64 c, by simp, by simp [h]⟩⟩

def sampleIssued : Minted := sampleMinted '0' (by decide)

def sampleRotated : Minted := sampleMinted '1' (by decide)

def sampleRotation : List CredentialCall :=
  [.issue "w" sampleIssued 0, .rotate "w" sampleIssued.credentialId.text sampleRotated 1]

/-- After a rotation the new token authenticates and the old one does not. -/
theorem runCredentials_authenticate_sample : InjectiveOnSecrets sampleSha256 ∧
    (∃ id, authenticate sampleSha256 (runCredentials sampleSha256 sampleRotation).session.db sampleRotated.token =
      some ⟨"w", id⟩) ∧
    ¬ ∃ id, authenticate sampleSha256 (runCredentials sampleSha256 sampleRotation).session.db sampleIssued.token =
      some ⟨"w", id⟩ := by
  obtain ⟨hiff, -⟩ := runCredentials_authenticate sampleSha256 sampleSha256_injective sampleRotation
  refine ⟨sampleSha256_injective, (hiff _ _).2 ?_, fun h => ?_⟩
  · decide +kernel
  · exact absurd ((hiff _ _).1 h).1 (by decide +kernel)

end Switchboard
