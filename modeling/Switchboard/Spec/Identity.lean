import Switchboard.Lib.JsonPrint
import Switchboard.Spec.Registry
import Switchboard.Spec.Text

/-!
# Identity hashes

What the service hashes to tell identities apart: the SHA-256 digest of the canonical JSON of a payload. The digest of
a manifest is taken of ASCII text, the other hashes of UTF-8 text.

* `sortKeys`, `canonicalJson`, `canonicalAscii`: `json.dumps` with `sort_keys=True`, without and with `ensure_ascii`.
* `computeReuseIdentityHash`, `computeExecutionPolicyHash`, `TrustedManifest.digest`: the three hashes.
* `Json.Same`, `PolicyInputs.Same`, `TrustedManifest.Same`: equality, whatever the order of keys.
-/

namespace Switchboard

open PyText Transaction

/-! ## Canonical JSON -/

mutual

/-- The document as the encoder sees it. -/
def Json.toValue : Json → JsonText.Value FloatText
  | .null => .null
  | .bool b => .bool b
  | .int i => .int i
  | .float f => .float f
  | .str s => .str s
  | .arr items => .arr (toValues items)
  | .obj fields => .obj (toFields fields)

def Json.toValues : List Json → List (JsonText.Value FloatText)
  | [] => []
  | item :: items => item.toValue :: toValues items

def Json.toFields : List (String × Json) → List (String × JsonText.Value FloatText)
  | [] => []
  | (name, value) :: fields => (name, value.toValue) :: toFields fields

end

def byKey (f g : String × Json) : Bool := decide (f.1 ≤ g.1)

mutual

/-- `sort_keys=True`. -/
def sortKeys : Json → Json
  | .arr items => .arr (sortItems items)
  | .obj fields => .obj ((sortFields fields).mergeSort byKey)
  | value => value

def sortItems : List Json → List Json
  | [] => []
  | item :: items => sortKeys item :: sortItems items

def sortFields : List (String × Json) → List (String × Json)
  | [] => []
  | (name, value) :: fields => (name, sortKeys value) :: sortFields fields

end

/-- `\uXXXX`. -/
def unicodeEscape (n : ℕ) : List Char :=
  ['\\', 'u', hexDigit (n / 4096), hexDigit (n / 256 % 16), hexDigit (n / 16 % 16), hexDigit (n % 16)]

/-- A character of a JSON string, as `json.dumps` writes it with `ensure_ascii`. -/
def escapeAscii (c : Char) : List Char :=
  if c.toNat < 127 then escapeChar c
  else if c.toNat < 65536 then unicodeEscape c.toNat
  else unicodeEscape (0xD800 + (c.toNat - 65536) / 1024) ++ unicodeEscape (0xDC00 + (c.toNat - 65536) % 1024)

def unicodeEncoder : JsonText.Encoder FloatText := ⟨escapeChar, fun f => f.text.toList⟩

def asciiEncoder : JsonText.Encoder FloatText := ⟨escapeAscii, fun f => f.text.toList⟩

/-- `json.dumps(value, sort_keys=True, separators=(",", ":"), ensure_ascii=False)`. -/
def canonicalJson (value : Json) : List Char := JsonText.print unicodeEncoder (sortKeys value).toValue

/-- `json.dumps(value, sort_keys=True, separators=(",", ":"))`. -/
def canonicalAscii (value : Json) : List Char := JsonText.print asciiEncoder (sortKeys value).toValue

/-! ## Hashes -/

section hashes

variable (P : Platform) (sha256 : ByteArray → String)

/-- `hashlib.sha256(text.encode("utf-8")).hexdigest()`. -/
def hashText (text : List Char) : String := sha256 (String.ofList text).toUTF8

/-- `model_dump` of an `EvidenceReuseIdentity`. -/
def ReuseIdentity.payload (identity : ReuseIdentity) : Json :=
  .obj
    [("schema_version", .int 1), ("policy_version", .int 1),
      ("repository_full_name", .str identity.repositoryFullName), ("tested_sha", .str identity.testedSha),
      ("manifest_name", .str identity.manifestName), ("manifest_version", .str identity.manifestVersion),
      ("manifest_digest", .str identity.manifestDigest),
      ("worker_environment_fingerprint", .str identity.workerEnvironmentFingerprint),
      ("dependency_lock_hashes", .arr (identity.dependencyLockHashes.map fun lock =>
        .obj [("relative_path", .str lock.relativePath), ("sha256", .str lock.sha256)])),
      ("execution_policy_hash", .str identity.executionPolicyHash),
      ("result_contract_hash", .str identity.resultContractHash)]

/-- `compute_reuse_identity_hash`. -/
def computeReuseIdentityHash (identity : ReuseIdentity) : String := hashText sha256 (canonicalJson identity.payload)

/-- `canonical_payload_hash`. -/
def canonicalPayloadHash (payload : List (String × Json)) : Except InputError String := do
  validateNoAbsoluteLocalPaths P (.obj payload)
  return hashText sha256 (canonicalJson (.obj payload))

/-- The arguments of `compute_execution_policy_hash`. -/
structure PolicyInputs where
  manifestParameters : List (String × Json)
  requiredCapabilities : List (String × Json)
  permittedPaths : List String
  expectedArtifactKinds : List String
  timeoutSeconds : ℤ
  networkPolicy : String
  repositoryWriteAllowed : Bool
  routingPolicy : String := "first_available"
  maximumCostUnits : Option ℤ := none
  requiredQuotaUnits : ℤ := 0
  preferredExecutor : Option String := none

def PolicyInputs.routing (inputs : PolicyInputs) : Json :=
  .obj
    [("maximum_cost_units", inputs.maximumCostUnits.elim .null .int), ("policy", .str inputs.routingPolicy),
      ("preferred_executor", inputs.preferredExecutor.elim .null .str),
      ("required_quota_units", .int inputs.requiredQuotaUnits), ("schema_version", .int 1)]

def PolicyInputs.payload (inputs : PolicyInputs) : List (String × Json) :=
  [("expected_artifact_kinds", .arr ((Service.sortedTexts inputs.expectedArtifactKinds).map .str)),
    ("manifest_parameters", .obj inputs.manifestParameters), ("network_policy", .str inputs.networkPolicy),
    ("permitted_paths", .arr ((Service.sortedTexts inputs.permittedPaths).map .str)),
    ("repository_write_allowed", .bool inputs.repositoryWriteAllowed),
    ("required_capabilities", .obj inputs.requiredCapabilities), ("routing", inputs.routing),
    ("schema_version", .int 2), ("timeout_seconds", .int inputs.timeoutSeconds)]

/-- `compute_execution_policy_hash`. -/
def computeExecutionPolicyHash (inputs : PolicyInputs) : Except InputError String :=
  canonicalPayloadHash P sha256 inputs.payload

/-- `TrustedManifest.digest`. -/
def TrustedManifest.digest (m : TrustedManifest) : String := hashText sha256 (canonicalAscii m.digestPayload)

end hashes

/-! ## Equality -/

mutual

/-- There is no float in the document. -/
def Json.FloatFree : Json → Prop
  | .float _ => False
  | .arr items => floatFreeItems items
  | .obj fields => floatFreeFields fields
  | _ => True

def Json.floatFreeItems : List Json → Prop
  | [] => True
  | item :: items => item.FloatFree ∧ floatFreeItems items

def Json.floatFreeFields : List (String × Json) → Prop
  | [] => True
  | (_, value) :: fields => value.FloatFree ∧ floatFreeFields fields

end

mutual

/-- The documents are equal, whatever the order of their keys. -/
def Json.Same : Json → Json → Prop
  | .null, .null => True
  | .bool a, .bool b => a = b
  | .int a, .int b => a = b
  | .float a, .float b => a.text = b.text
  | .str a, .str b => a = b
  | .arr as, .arr bs => sameAll as bs
  | .obj as, .obj bs => as.length = bs.length ∧ sameFields as bs
  | _, _ => False

/-- The items are the same, one by one. -/
def Json.sameAll : List Json → List Json → Prop
  | [], [] => True
  | a :: as, b :: bs => a.Same b ∧ sameAll as bs
  | _, _ => False

/-- Every item of the first mapping is one of the second. -/
def Json.sameFields : List (String × Json) → List (String × Json) → Prop
  | [], _ => True
  | (k, v) :: rest, bs => (∃ w, (k, w) ∈ bs ∧ v.Same w) ∧ sameFields rest bs

end

/-- Equality of what may be absent. -/
def sameOption (a b : Option Json) : Prop := Option.Rel Json.Same a b

namespace PolicyInputs

def FloatFree (inputs : PolicyInputs) : Prop :=
  Json.floatFreeFields inputs.manifestParameters ∧ Json.floatFreeFields inputs.requiredCapabilities

/-- The arguments are equal up to the order of the paths, of the artifact kinds and of keys. -/
structure Same (a b : PolicyInputs) : Prop where
  manifestParameters : (Json.obj a.manifestParameters).Same (.obj b.manifestParameters)
  requiredCapabilities : (Json.obj a.requiredCapabilities).Same (.obj b.requiredCapabilities)
  permittedPaths : a.permittedPaths.Perm b.permittedPaths
  expectedArtifactKinds : a.expectedArtifactKinds.Perm b.expectedArtifactKinds
  timeoutSeconds : a.timeoutSeconds = b.timeoutSeconds
  networkPolicy : a.networkPolicy = b.networkPolicy
  repositoryWriteAllowed : a.repositoryWriteAllowed = b.repositoryWriteAllowed
  routingPolicy : a.routingPolicy = b.routingPolicy
  maximumCostUnits : a.maximumCostUnits = b.maximumCostUnits
  requiredQuotaUnits : a.requiredQuotaUnits = b.requiredQuotaUnits
  preferredExecutor : a.preferredExecutor = b.preferredExecutor

end PolicyInputs

/-- Steps that are equal up to the order of the keys of their condition. -/
structure TrustedStep.Same (a b : TrustedStep) : Prop where
  condition : sameOption (a.capabilityCondition.map .obj) (b.capabilityCondition.map .obj)
  others : { a with capabilityCondition := none } = { b with capabilityCondition := none }

namespace TrustedManifest

def FloatFree (m : TrustedManifest) : Prop :=
  Json.floatFreeFields m.metadata.requiredCapabilities ∧ Json.floatFreeItems m.metadata.fixedStepMetadata ∧
    Json.floatFreeFields m.metadata.environmentPolicy ∧ Json.floatFreeItems m.metadata.artifactDeclarations ∧
    (∀ s ∈ m.executionSteps, ∀ condition, s.capabilityCondition = some condition → Json.floatFreeFields condition) ∧
    ∀ contract, m.resultContract = some contract → contract.FloatFree

/-- The manifest and its parts have passed their constructors. -/
structure Constructed (P : Platform) (U : CharTable) (m : TrustedManifest) : Prop where
  manifest : m.validate P = .ok ()
  steps : ∀ s ∈ m.executionSteps, s.validate U = .ok ()
  artifacts : ∀ s ∈ m.executionSteps, ∀ a ∈ s.artifacts, a.validate P = .ok ()

/-- The manifests are equal up to the order of keys; the allowed parameters are a set. -/
structure Same (a b : TrustedManifest) : Prop where
  name : a.metadata.name = b.metadata.name
  version : a.metadata.version = b.metadata.version
  schemaVersion : a.metadata.schemaVersion = b.metadata.schemaVersion
  description : a.metadata.description = b.metadata.description
  registrySource : a.metadata.registrySource = b.metadata.registrySource
  requiredCapabilities : (Json.obj a.metadata.requiredCapabilities).Same (.obj b.metadata.requiredCapabilities)
  fixedStepMetadata : (Json.arr a.metadata.fixedStepMetadata).Same (.arr b.metadata.fixedStepMetadata)
  environmentPolicy : (Json.obj a.metadata.environmentPolicy).Same (.obj b.metadata.environmentPolicy)
  networkPolicy : a.metadata.networkPolicy = b.metadata.networkPolicy
  repositoryWritePolicy : a.metadata.repositoryWritePolicy = b.metadata.repositoryWritePolicy
  timeoutSeconds : a.metadata.timeoutSeconds = b.metadata.timeoutSeconds
  artifactDeclarations : (Json.arr a.metadata.artifactDeclarations).Same (.arr b.metadata.artifactDeclarations)
  allowedParameters : a.allowedParameters.Perm b.allowedParameters
  executionSteps : List.Forall₂ TrustedStep.Same a.executionSteps b.executionSteps
  dependencyLockPaths : a.dependencyLockPaths = b.dependencyLockPaths
  resultContract : sameOption a.resultContract b.resultContract

end TrustedManifest

end Switchboard
