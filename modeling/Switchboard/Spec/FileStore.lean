import Switchboard.Lib.PyText
import Switchboard.Lib.Table

/-!
# The live-file store

Files under `FILES_ROOT` with a table that caches their digests. A file is kept under its
resolved location, a cached digest under the path as the caller has spelled it.

* `fullPath`: the location of a path, or `invalid path`.
* `putFile`, `etagForPath`: the two operations on the store.
* `runFiles`: a sequence of them, each atomic.
-/

namespace Switchboard

open Table

abbrev Bytes := List UInt8

/-- The components of an absolute path. -/
abbrev Location := List (List Char)

/-- `FileEntry`. -/
structure FileEntry where
  path : String
  sha256 : String
  size : ℕ
  deriving DecidableEq, Repr

structure StoredFile where
  location : Location
  data : Bytes
  deriving DecidableEq, Repr

structure FileStore where
  files : List StoredFile
  /-- The directories below the root. -/
  directories : List Location
  entries : List FileEntry
  deriving DecidableEq, Repr

inductive FileError
  /-- `HTTPException(status_code=400, detail="invalid path")`. -/
  | invalidPath
  /-- A path with a null character, which no call of the operating system takes. -/
  | valueError
  /-- `HTTPException(status_code=500, detail=UNWRITABLE_DETAIL)`, or another error of the operating system. -/
  | unwritable
  | isADirectory
  | notADirectory
  deriving DecidableEq, Repr

/-! ## Paths -/

/-- The parts of `PurePosixPath(text)`. -/
def posixParts (text : List Char) : Location := (text.splitOn '/').filter fun part => part != [] && part != ['.']

/-- `(root / relative).resolve()`, with no symbolic link on the way. -/
def resolveParts (root : Location) (parts : Location) : Location :=
  parts.foldl (fun location part => if part = ['.', '.'] then location.dropLast else location ++ [part]) root

/-- `full_path`. -/
def fullPath (root : Location) (relPath : String) : Except FileError Location := do
  let trimmed := PyText.strip relPath.toList
  if trimmed = [] then throw .invalidPath
  if trimmed.contains '\\' then throw .invalidPath
  if trimmed.head? = some '/' then throw .invalidPath
  if trimmed.contains '\x00' then throw .valueError
  let candidate := resolveParts root (posixParts trimmed)
  if root.isPrefixOf candidate then return candidate else throw .invalidPath

/-! ## Files -/

namespace FileStore

/-- The file at a location. -/
def fileAt (location : Location) (s : FileStore) : Option StoredFile :=
  s.files.find? fun f => f.location == location

def isDirectory (root location : Location) (s : FileStore) : Bool :=
  location.isPrefixOf root || s.directories.contains location

/-- `os.path.exists`. -/
def pathExists (root location : Location) (s : FileStore) : Bool :=
  (s.fileAt location).isSome || s.isDirectory root location

/-- `SELECT ... WHERE path = ...`. -/
def entryFor (relPath : String) (s : FileStore) : Option FileEntry := s.entries.find? fun e => e.path == relPath

/-- The entry of a path is updated, or added. -/
def saveEntry (entry : FileEntry) (s : FileStore) : FileStore :=
  match s.entryFor entry.path with
  | none => { s with entries := s.entries ++ [entry] }
  | some _ =>
    { s with
      entries := updateWhere (fun e => e.path == entry.path)
        (fun e => { e with sha256 := entry.sha256, size := entry.size }) s.entries }

end FileStore

/-- `_write_bytes_atomic`: the parent directories are made, and the file replaces the one at its location. -/
def writeBytesAtomic (root location : Location) (data : Bytes) (s : FileStore) : Except FileError FileStore :=
  let parents := location.inits.dropLast
  if parents.any fun p => (s.fileAt p).isSome then .error .notADirectory
  else if s.isDirectory root location then .error .isADirectory
  else .ok { s with
    files := ⟨location, data⟩ :: deleteWhere (fun f => f.location == location) s.files
    directories := s.directories ++ parents.filter fun p => !s.isDirectory root p }

/-! ## Operations -/

/-- `FileWriteResult`. -/
structure FileWriteResult where
  sha256 : String
  size : ℕ
  deriving DecidableEq, Repr

section operations

-- `hashlib.sha256(data).hexdigest()`, and the resolved `FILES_ROOT`
variable (sha256 : Bytes → String) (root : Location)

/-- `put_file`; the operating system may refuse to write. -/
def putFile (writable : Bool) (relPath : String) (data : Bytes) (s : FileStore) :
    Except FileError (FileWriteResult × FileStore) := do
  if !writable then throw .unwritable
  let location ← fullPath root relPath
  let s ← writeBytesAtomic root location data s
  return (⟨sha256 data, data.length⟩, s.saveEntry ⟨relPath, sha256 data, data.length⟩)

/-- `_ensure_entry_sha`. -/
def ensureEntrySha (relPath : String) (s : FileStore) : Except FileError (Option String × FileStore) :=
  match (s.entryFor relPath).filter fun e => e.sha256 != "" with
  | some entry => .ok (some entry.sha256, s)
  | none => do
    let location ← fullPath root relPath
    if !s.pathExists root location then return (none, s)
    match s.fileAt location with
    | none => throw .isADirectory
    | some file =>
      return (some (sha256 file.data), s.saveEntry ⟨relPath, sha256 file.data, file.data.length⟩)

/-- `etag_for_path`. -/
def etagForPath (relPath : String) (s : FileStore) : Except FileError (Option String × FileStore) := do
  let location ← fullPath root relPath
  if !s.pathExists root location then return (none, s)
  let (sha, s) ← ensureEntrySha sha256 root relPath s
  return (sha.map fun sha => "\"" ++ sha ++ "\"", s)

end operations

/-! ## Sequences of operations -/

inductive FileCall
  | putFile (writable : Bool) (relPath : String) (data : Bytes)
  | etagForPath (relPath : String)

/-- One operation; a failed one changes nothing. -/
def stepFiles (sha256 : Bytes → String) (root : Location) (s : FileStore) : FileCall → FileStore
  | .putFile writable relPath data =>
    match putFile sha256 root writable relPath data s with
    | .ok (_, s') => s'
    | .error _ => s
  | .etagForPath relPath =>
    match etagForPath sha256 root relPath s with
    | .ok (_, s') => s'
    | .error _ => s

/-- The store after the operations. -/
def runFiles (sha256 : Bytes → String) (root : Location) (s : FileStore) (calls : List FileCall) : FileStore :=
  calls.foldl (stepFiles sha256 root) s

end Switchboard
