import Switchboard.Lib.Tx
import Switchboard.Spec.Store

/-!
# Worker credentials

`credentials.py`: one current credential for each worker, issued once, rotated and revoked
under a guard on its id. The random values of a call are part of the call; a random id that
is in use already is a uniqueness violation.

* `authenticate`: the worker of a token.
* `issue`, `rotate`, `revoke`: the calls of the operator.
* `runCredentials`: a sequence of calls, with the history of those that succeeded.
* `lastToken`, `revokedSince`: what the history says about a worker.
-/

namespace Switchboard

open Transaction

/-! ## Tokens -/

/-- `[0-9a-f]`. -/
def isHexChar (c : Char) : Bool := ('0' ≤ c && c ≤ '9') || ('a' ≤ c && c ≤ 'f')

/-- A value of `secrets.token_hex(n)`. -/
structure TokenHex (n : ℕ) where
  text : List Char
  length : text.length = 2 * n
  hex : text.all isHexChar = true

@[ext] theorem TokenHex.ext {n : ℕ} {a b : TokenHex n} (h : a.text = b.text) : a = b := by
  cases a
  cases b
  cases h
  rfl

/-- The random values of `issue` and `rotate`. -/
structure Minted where
  credentialId : TokenHex 16
  secret : TokenHex 32

/-- The bearer token that the operator is shown once. -/
def Minted.token (m : Minted) : List Char :=
  "swb_w1.".toList ++ (m.credentialId.text ++ '.' :: m.secret.text)

/-- `TOKEN_PATTERN.fullmatch`: the two groups. -/
def matchToken (token : List Char) : Option (List Char × List Char) :=
  let rest := token.drop 7
  let credentialId := rest.take 32
  let secret := rest.drop 33
  if token.take 7 = "swb_w1.".toList ∧ credentialId.length = 32 ∧ credentialId.all isHexChar ∧ rest[32]? = some '.' ∧
      secret.length = 64 ∧ secret.all isHexChar then
    some (credentialId, secret)
  else none

/-! ## Rows -/

/-- `WorkerCredential`. -/
structure WorkerCredential where
  workerId : String
  credentialId : List Char
  verifier : String
  createdAt : Time
  rotatedAt : Option Time
  revokedAt : Option Time
  deriving DecidableEq

/-- The two tables that credentials are about. -/
structure CredentialStore where
  workers : List Worker
  credentials : List WorkerCredential

def CredentialStore.init : CredentialStore := ⟨[], []⟩

/-- `WorkerPrincipal`. -/
structure WorkerPrincipal where
  workerId : String
  credentialId : List Char
  deriving DecidableEq

inductive CredentialError
  | conflict (message : String)
  /-- A uniqueness violation at the flush. -/
  | integrity
  deriving DecidableEq, Repr

namespace Credentials

/-- `session.get(WorkerCredential, worker_id)`. -/
def getCredential (workerId : String) (s : CredentialStore) : Option WorkerCredential :=
  s.credentials.find? fun r => r.workerId == workerId

section calls

-- the hexadecimal SHA-256 of a secret
variable (sha256 : List Char → String)

/-- `authenticate`. -/
def authenticate (s : CredentialStore) (token : List Char) : Option WorkerPrincipal :=
  match matchToken token with
  | none => none
  | some (credentialId, secret) =>
    match s.credentials.find? fun r => r.credentialId == credentialId with
    | none => none
    | some row =>
      if sha256 secret = row.verifier ∧ row.revokedAt = none then some ⟨row.workerId, row.credentialId⟩ else none

/-- The row of a worker that has a credential before it has registered. -/
def unregisteredWorker (workerId : String) (now : Time) : Worker :=
  { workerId, maxConcurrency := 1, activeRunCount := 0, status := .offline, lastHeartbeatAt := now
    lastCheckoutPollAt := none
    declaration :=
      { displayName := workerId, operatingSystem := "unregistered", architecture := "unregistered"
        pythonVersion := none, nodeVersion := none, pnpmVersion := none, dockerAvailable := false, browsers := []
        gpuAvailable := false, unityAvailable := false, desktopAvailable := false, capabilities := []
        repositoryFullNames := [], networkPolicyCapability := .workerRestricted
        repositoryWriteCapability := false } }

/-- The worker that a credential refers to, added if it is unknown. -/
def ensureWorker (workerId : String) (now : Time) : Tx CredentialStore CredentialError Unit := do
  let known ← read fun s => s.workers.any fun w => w.workerId == workerId
  if known then return ()
  else exec fun s => ({ s with workers := s.workers ++ [unregisteredWorker workerId now] }, ())

/-- `issue`. -/
def issue (workerId : String) (m : Minted) (now : Time) :
    Tx CredentialStore CredentialError (WorkerCredential × List Char) := do
  let existing ← read (getCredential workerId)
  require existing.isNone (.conflict "credential_already_issued")
  ensureWorker workerId now
  let row : WorkerCredential :=
    { workerId, credentialId := m.credentialId.text, verifier := sha256 m.secret.text, createdAt := now
      rotatedAt := none, revokedAt := none }
  let taken ← read fun s => s.credentials.any fun r => r.credentialId == row.credentialId
  require (!taken) .integrity
  exec fun s => ({ s with credentials := s.credentials ++ [row] }, ())
  return (row, m.token)

/-- The rows of `UPDATE ... WHERE`, and how many of them match. -/
def updateCredentials (p : WorkerCredential → Bool) (f : WorkerCredential → WorkerCredential) (s : CredentialStore) :
    CredentialStore × ℕ :=
  ({ s with credentials := s.credentials.map fun r => if p r then f r else r }, s.credentials.countP p)

/-- `rotate`. -/
def rotate (workerId : String) (expectedId : List Char) (m : Minted) (now : Time) :
    Tx CredentialStore CredentialError (WorkerCredential × List Char) := do
  let guard := fun r : WorkerCredential => r.workerId == workerId && r.credentialId == expectedId
  let clash ← read fun s => s.credentials.any guard &&
    s.credentials.any fun r => !guard r && r.credentialId == m.credentialId.text
  require (!clash) .integrity
  let rowcount ← exec (updateCredentials guard fun r =>
    { r with
      credentialId := m.credentialId.text, verifier := sha256 m.secret.text, rotatedAt := some now
      revokedAt := none })
  require (rowcount == 1) (.conflict "credential_transition_conflict")
  let row ← read (getCredential workerId)
  let row ← requireSome row (.conflict "credential_transition_conflict")
  return (row, m.token)

/-- `revoke`. -/
def revoke (workerId : String) (expectedId : List Char) (now : Time) :
    Tx CredentialStore CredentialError WorkerCredential := do
  let _ ← exec (updateCredentials
    (fun r => r.workerId == workerId && r.credentialId == expectedId && r.revokedAt.isNone) fun r =>
      { r with revokedAt := some now })
  let row ← read (getCredential workerId)
  let row ← requireSome row (.conflict "credential_transition_conflict")
  require (row.credentialId == expectedId) (.conflict "credential_transition_conflict")
  return row

end calls

end Credentials

/-! ## Sequences of calls -/

inductive CredentialCall
  | issue (workerId : String) (minted : Minted) (now : Time)
  | rotate (workerId : String) (expectedId : List Char) (minted : Minted) (now : Time)
  | revoke (workerId : String) (expectedId : List Char) (now : Time)

namespace CredentialCall

def workerId : CredentialCall → String
  | issue w _ _ | rotate w _ _ _ | revoke w _ _ => w

/-- The random values of the call. -/
def minted : CredentialCall → Option Minted
  | issue _ m _ | rotate _ _ m _ => some m
  | revoke _ _ _ => none

/-- The transaction of a call, and the token that it returns. -/
def perform (sha256 : List Char → String) : CredentialCall → Tx CredentialStore CredentialError (Option (List Char))
  | issue w m now => do return some (← Credentials.issue sha256 w m now).2
  | rotate w expected m now => do return some (← Credentials.rotate sha256 w expected m now).2
  | revoke w expected now => do
    let _ ← Credentials.revoke w expected now
    return none

end CredentialCall

/-- A call that succeeded, with the token it returned. -/
structure CredentialEvent where
  call : CredentialCall
  token : Option (List Char)

/-- The store and, newest first, the calls that succeeded. -/
structure CredentialRun where
  session : Session CredentialStore
  history : List CredentialEvent

/-- One call: committed whole, or rolled back. -/
def CredentialRun.step (sha256 : List Char → String) (r : CredentialRun) (c : CredentialCall) : CredentialRun :=
  match c.perform sha256 r.session with
  | .ok (token, ss) => ⟨ss, ⟨c, token⟩ :: r.history⟩
  | .error _ => r

/-- The run of a sequence of calls, from the empty store. -/
def runCredentials (sha256 : List Char → String) (calls : List CredentialCall) : CredentialRun :=
  calls.foldl (CredentialRun.step sha256) ⟨⟨CredentialStore.init, []⟩, []⟩

/-! ## What the history says -/

/-- The token that the most recent successful `issue` or `rotate` of the worker returned. -/
def lastToken (workerId : String) : List CredentialEvent → Option (List Char)
  | [] => none
  | e :: history =>
    if e.call.workerId = workerId ∧ e.token.isSome then e.token else lastToken workerId history

/-- There was a successful `revoke` of the worker since then. -/
def revokedSince (workerId : String) : List CredentialEvent → Bool
  | [] => false
  | e :: history =>
    if e.call.workerId = workerId then e.token.isNone else revokedSince workerId history

end Switchboard
