import Switchboard.Lib.PyText
import Switchboard.Spec.Json

/-!
# Remote text

The text policy of `text_policy.py`, and the worker's side of it: how a result summary is
sanitised and serialised before it is sent.

* `containsAbsoluteLocalPath`: what the service refuses in a text.
* `sanitizeRemoteText`, `serializeSummary`: what the worker sends.
* `EscapesIntoPath`: the texts that turn into such a path when JSON escapes them.
-/

namespace Switchboard

open PyText Matcher

/-! ## The policy of the service -/

/-- `[A-Za-z0-9+.-]` under `re.IGNORECASE`: what may not stand before a URI scheme. -/
def schemeChar (c : Char) : Bool := isLetterIgnoreCase c || isAsciiDigit c || c ∈ ['+', '.', '-']

/-- `[A-Za-z0-9_.-]` under `re.IGNORECASE`. -/
def driverChar (c : Char) : Bool := isLetterIgnoreCase c || isAsciiDigit c || c ∈ ['_', '.', '-']

/-- The characters of a URI: no white space, no angle bracket, no quote. -/
def uriChar (c : Char) : Bool := !isSpace c && c.toNat ∉ [34, 39, 60, 62]

/-- `_WINDOWS_DRIVE_PATH`. -/
def windowsDrivePath : Pattern :=
  { behind := fun c => isLetterIgnoreCase c || isAsciiDigit c || c == '/' || c == '\\'
    body := (one isLetterIgnoreCase).andThen ((one (· == ':')).andThen (one fun c => c == '\\' || c == '/')) }

/-- `_WINDOWS_UNC_PATH`. A run of three backslashes can be matched in part, so that only the first two and
the character after them count. -/
def windowsUncPath : Pattern :=
  { behind := fun c => isAsciiAlnum c || c == ':' || c == '/' || c == '\\'
    body := (one (· == '\\')).andThen ((one (· == '\\')).andThen (notNext isSpace)) }

/-- `_FILE_URI`. -/
def fileUri : Pattern := { behind := schemeChar, body := word "file:".toList }

/-- `_LOCAL_DATABASE_URI`. -/
def localDatabaseUri : Pattern :=
  { behind := schemeChar
    body := (word "sqlite".toList).andThen
      (((word ['+']).andThen ((one driverChar).andThen ((many driverChar).andThen (word ":///".toList)))).orElse
        (word ":///".toList)) }

/-- The schemes of `_SAFE_NONLOCAL_URI`. -/
def safeSchemes : List String :=
  ["https", "http", "wss", "ws", "ftps", "ftp", "ssh", "git", "mailto", "urn"]

/-- `_SAFE_NONLOCAL_URI`. -/
def safeNonlocalUri : Pattern :=
  { behind := schemeChar
    body := (safeSchemes.foldr (fun scheme others => (word (scheme ++ ":").toList).orElse others) fun _ => none).andThen
      ((one uriChar).andThen (many uriChar)) }

/-- `_POSIX_ROOTED_PATH`. -/
def posixRootedPath : Pattern :=
  { behind := fun c => isAsciiAlnum c || c == '/' || c == '.'
    body := (one (· == '/')).andThen (notNext isSpace) }

/-- `contains_absolute_local_path`. -/
def containsAbsoluteLocalPath (value : List Char) : Bool :=
  fileUri.search none value || localDatabaseUri.search none value || windowsDrivePath.search none value ||
    windowsUncPath.search none value || posixRootedPath.search none (safeNonlocalUri.sub [] value)

/-! ## The text of the worker -/

/-- `sqlite(?:\+aiosqlite)?:///`. -/
def localSqlite : Matcher :=
  (word "sqlite".toList).andThen (((word "+aiosqlite".toList).andThen (word ":///".toList)).orElse (word ":///".toList))

/-- `_LOCAL_SQLITE_EXPRESSION`: an f-string expression in braces. -/
def localSqliteExpression : Pattern :=
  { behind := schemeChar
    body := localSqlite.andThen ((one (·.toNat == 123)).andThen
      ((many fun c => c.toNat ∉ [123, 125] && c != '\r' && c != '\n').andThen (one (·.toNat == 125)))) }

/-- `_LOCAL_SQLITE_URI`. -/
def localSqliteUri : Pattern := { behind := schemeChar, body := localSqlite.andThen (many uriChar) }

def localDatabaseUriMarker : List Char := "[LOCAL_DATABASE_URI]".toList

/-- `_sanitize_remote_text`. -/
def sanitizeRemoteText (value : List Char) : List Char :=
  let withoutExpressions := localSqliteExpression.sub localDatabaseUriMarker value
  let withoutLocalDatabases := localSqliteUri.sub localDatabaseUriMarker withoutExpressions
  let normalized := withoutLocalDatabases.flatMap fun c => if c = '\\' then "[BACKSLASH]".toList else [c]
  if containsAbsoluteLocalPath normalized then "[LOCAL_PATH]".toList else normalized

/-! ## JSON text -/

def hexDigit (n : ℕ) : Char := if n < 10 then Char.ofNat (48 + n) else Char.ofNat (87 + n)

/-- The control characters that JSON has a letter for. -/
def escapeLetter (c : Char) : Option Char :=
  match c.toNat with
  | 8 => some 'b'
  | 9 => some 't'
  | 10 => some 'n'
  | 12 => some 'f'
  | 13 => some 'r'
  | _ => none

/-- A character of a JSON string, as `json.dumps` writes it without `ensure_ascii`. -/
def escapeChar (c : Char) : List Char :=
  if c.toNat = 34 || c = '\\' then ['\\', c]
  else if c.toNat < 32 then
    match escapeLetter c with
    | some letter => ['\\', letter]
    | none => ['\\', 'u', '0', '0', hexDigit (c.toNat / 16), hexDigit (c.toNat % 16)]
  else [c]

def quote : Char := Char.ofNat 34

def escapeText (s : List Char) : List Char := s.flatMap escapeChar

/-- A JSON string. -/
def jsonString (s : List Char) : List Char := quote :: escapeText s ++ [quote]

mutual

/-- `json.dumps` with `separators=(",", ":")`. -/
def dumps : Json → List Char
  | .null => "null".toList
  | .bool b => if b then "true".toList else "false".toList
  | .int i => (toString i).toList
  | .float f => f.text.toList
  | .str s => jsonString s.toList
  | .arr [] => ['[', ']']
  | .arr (item :: items) => '[' :: dumps item ++ dumpsItems items ++ [']']
  | .obj [] => [Char.ofNat 123, Char.ofNat 125]
  | .obj ((name, value) :: fields) =>
    Char.ofNat 123 :: jsonString name.toList ++ ':' :: dumps value ++ dumpsFields fields ++ [Char.ofNat 125]

def dumpsItems : List Json → List Char
  | [] => []
  | item :: items => ',' :: dumps item ++ dumpsItems items

def dumpsFields : List (String × Json) → List Char
  | [] => []
  | (name, value) :: fields => ',' :: jsonString name.toList ++ ':' :: dumps value ++ dumpsFields fields

end

mutual

/-- `normalize` of `_serialize_summary`: every string but no key is sanitised. -/
def normalize : Json → Json
  | .str s => .str (String.ofList (sanitizeRemoteText s.toList))
  | .arr items => .arr (normalizeItems items)
  | .obj fields => .obj (normalizeFields fields)
  | value => value

def normalizeItems : List Json → List Json
  | [] => []
  | item :: items => normalize item :: normalizeItems items

def normalizeFields : List (String × Json) → List (String × Json)
  | [] => []
  | (name, value) :: fields => (name, normalize value) :: normalizeFields fields

end

mutual

/-- The keys of a document. -/
def keysOf : Json → List String
  | .arr items => keysOfItems items
  | .obj fields => keysOfFields fields
  | _ => []

def keysOfItems : List Json → List String
  | [] => []
  | item :: items => keysOf item ++ keysOfItems items

def keysOfFields : List (String × Json) → List String
  | [] => []
  | (name, value) :: fields => name :: keysOf value ++ keysOfFields fields

end

mutual

/-- The strings of a document that are not keys. -/
def stringsOf : Json → List String
  | .str s => [s]
  | .arr items => stringsOfItems items
  | .obj fields => stringsOfFields fields
  | _ => []

def stringsOfItems : List Json → List String
  | [] => []
  | item :: items => stringsOf item ++ stringsOfItems items

def stringsOfFields : List (String × Json) → List String
  | [] => []
  | (_, value) :: fields => stringsOf value ++ stringsOfFields fields

end

/-- `_serialize_summary`. -/
def serializeSummary (summary : List (String × Json)) : List Char := dumps (normalize (.obj summary))

/-! ## Texts that escapes turn into paths -/

/-- A control character or a quote: what JSON escapes in a text without backslashes. -/
def isEscaped (c : Char) : Bool := decide (c.toNat < 32) || c == quote

def formFeed : Char := Char.ofNat 12

/-- A form feed before `ile:`. Its escape ends in the `f` of a `file:` URI. -/
def FormFeedUri (t : List Char) : Prop := ∃ u v, t = u ++ formFeed :: v ∧ (word "ile:".toList v).isSome = true

/-- The characters after which a letter is no drive in the escaped text. The escape of a control character
ends in a letter or a digit. -/
def blocksDrive (c : Char) : Bool :=
  isLetterIgnoreCase c || isAsciiDigit c || c == '/' || decide (c.toNat < 32)

/-- A drive letter with its colon directly before an escaped character: the escape begins with a backslash. -/
def DriveBeforeEscape (t : List Char) : Prop :=
  ∃ u c d v, t = u ++ c :: ':' :: d :: v ∧ isLetterIgnoreCase c = true ∧ isEscaped d = true ∧
    ∀ e, u.getLast? = some e → blocksDrive e = false

/-- A slash that is rooted in the escaped text: a control character that followed it, or that kept a nonlocal
URI apart from its surroundings, does so no more. -/
def RootedInEscapes (t : List Char) : Prop :=
  posixRootedPath.search none (safeNonlocalUri.sub [] (escapeText t ++ [quote])) = true

def EscapesIntoPath (t : List Char) : Prop := FormFeedUri t ∨ DriveBeforeEscape t ∨ RootedInEscapes t

end Switchboard
