import Switchboard.Spec.Credentials
import Switchboard.Spec.FileStore
import Switchboard.Spec.Schemas

/-!
# Relative paths of evidence

The two validators of relative paths, that of `evidence.py` and that of `workload_profiles.py`, and the
evidence models with a path in them. A model applies the text policy to all of its texts before it looks at
its fields.

* `validateRelativePath`, `validateProfilePath`: the two validators.
* `safePath`: where the worker's evidence store looks for a path.
* `ArtifactFields.make`, `DependencyLockHash.make`: the constructors.
-/

namespace Switchboard

open Transaction

variable (P : Platform)

/-! ## The validator of evidence -/

/-- `_WINDOWS_DEVICES`. -/
def windowsDevices : List String :=
  ["aux", "clock$", "con", "nul", "prn"] ++ (["com", "lpt"].flatMap fun device =>
    ["1", "2", "3", "4", "5", "6", "7", "8", "9"].map fun number => device ++ number)

/-- `part.rstrip(". ")`. -/
def rstripDots (part : List Char) : List Char := (part.reverse.dropWhile fun c => c == '.' || c == ' ').reverse

/-- `part.rstrip(". ").lower() in _WINDOWS_DEVICES`. -/
def namesDevice (part : List Char) : Bool := windowsDevices.contains (P.lower (String.ofList (rstripDots part)))

/-- `PurePosixPath(text).as_posix()` of a relative text. -/
def asPosix (text : List Char) : List Char :=
  match posixParts text with
  | [] => ['.']
  | parts => ['/'].intercalate parts

/-- `validate_relative_path` of `evidence.py`. -/
def validateRelativePath (value : String) : Except InputError Unit := do
  let text := value.toList
  ensure (decide (text ≠ [] ∧ text.length ≤ 512 ∧ '\x00' ∉ text ∧ '\\' ∉ text))
    (.value "evidence path must be a bounded relative POSIX path")
  ensure (decide (':' ∉ text ∧ text.head? ≠ some '/')) (.value "evidence path must not be absolute or device-shaped")
  ensure (decide (asPosix text = text)) (.value "evidence path must be normalized")
  ensure ((posixParts text).all fun part => part != [] && part != ['.'] && part != ['.', '.'])
    (.value "evidence path must not traverse")
  ensure ((posixParts text).all fun part => !namesDevice P part) (.value "evidence path must not name a device")

/-! ## The validator of profiles -/

/-- `_validate_relative_path` of `workload_profiles.py`. -/
def validateProfilePath (kind value : String) : Except InputError Unit := do
  let text := value.toList
  ensure (decide (text ≠ [] ∧ text.length ≤ 512 ∧ '\\' ∉ text ∧ '\x00' ∉ text ∧ text.head? ≠ some '/' ∧ ':' ∉ text))
    (.value s!"{kind} must be a bounded relative POSIX path")
  ensure ((text.splitOn '/').all fun part => part != [] && part != ['.'] && part != ['.', '.'])
    (.value s!"{kind} must not contain traversal or dot segments")

/-! ## The evidence store -/

/-- `_safe_path`, below a resolved root. -/
def safePath (root : Location) (relativePath : String) : Except InputError Location := do
  validateRelativePath P relativePath
  let path := resolveParts root (posixParts relativePath.toList)
  ensure (root.isPrefixOf path) (.value "evidence path escaped its owned run directory")
  return path

/-! ## Models with a path -/

/-- `^[0-9a-f]{64}$`. -/
def isSha256 (value : String) : Bool := decide (value.length = 64) && value.toList.all isHexChar

/-- `^[a-z0-9][...]*$`, where `others` are the further characters behind the first. -/
def identifierOf (others : List Char) : List Char → Bool
  | [] => false
  | c :: cs => keyChar c && cs.all fun c => keyChar c || others.contains c

/-- The pattern of `media_type`. -/
def isMediaType : List Char → Bool
  | [] => false
  | c :: cs => PyText.isAsciiAlnum c &&
    cs.all fun c => PyText.isAsciiAlnum c || ['!', '#', '$', '&', '^', '_', '.', '+', '/', '-'].contains c

/-- The arguments of `ArtifactRecord`. -/
structure ArtifactFields where
  kind : String
  relativePath : String
  sizeBytes : ℤ
  sha256 : String
  mediaType : String
  retentionExpiresAt : DateTime
  redacted : Bool
  producedByStep : Option String

/-- The arguments as the text policy sees them; a datetime holds no text. -/
def ArtifactFields.payload (r : ArtifactFields) : Json :=
  .obj
    [("kind", .str r.kind), ("relative_path", .str r.relativePath), ("size_bytes", .int r.sizeBytes),
      ("sha256", .str r.sha256), ("media_type", .str r.mediaType),
      ("retention_expires_at", .int r.retentionExpiresAt.wall),
      ("redaction_state", .str (if r.redacted then "redacted" else "none")),
      ("produced_by_step", optionalText r.producedByStep)]

/-- `produced_by_step`. -/
def producedByStepField : Option String → Except InputError Unit
  | none => return ()
  | some step => do
    boundedText "produced_by_step" 1 80 step
    ensure (identifierOf ['_', '.', '-'] step.toList) (.field "produced_by_step")

/-- `ArtifactRecord`. -/
def ArtifactFields.make (r : ArtifactFields) : Except InputError ArtifactRecord := do
  validateNoAbsoluteLocalPaths P r.payload
  boundedText "kind" 1 64 r.kind
  ensure (identifierOf ['-'] r.kind.toList) (.field "kind")
  validateRelativePath P r.relativePath
  ensure (decide (0 ≤ r.sizeBytes ∧ r.sizeBytes ≤ 1099511627776)) (.field "size_bytes")
  ensure (isSha256 r.sha256) (.field "sha256")
  boundedText "media_type" 3 128 r.mediaType
  ensure (isMediaType r.mediaType.toList) (.field "media_type")
  ensure r.retentionExpiresAt.isAware (.value "evidence timestamps must be timezone-aware")
  producedByStepField r.producedByStep
  return {
    kind := r.kind, relativePath := r.relativePath, sizeBytes := r.sizeBytes.toNat, sha256 := r.sha256
    mediaType := r.mediaType, retentionExpiresAt := r.retentionExpiresAt.utcNaive, redacted := r.redacted
    producedByStep := r.producedByStep }

/-- `DependencyLockHash`. -/
def DependencyLockHash.make (relativePath sha256 : String) : Except InputError DependencyLockHash := do
  validateNoAbsoluteLocalPaths P (.obj [("relative_path", .str relativePath), ("sha256", .str sha256)])
  validateRelativePath P relativePath
  ensure (isSha256 sha256) (.field "sha256")
  return ⟨relativePath, sha256⟩

end Switchboard
