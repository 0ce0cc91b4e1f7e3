import Mathlib.Data.Int.Notation
import Mathlib.Data.List.Basic
import Mathlib.Data.Nat.Notation

/-!
# JSON text as Python reads it

`json.loads` on a text: the scanner of the standard library with its hooks and its limits.
The floats are those of the caller. A lone surrogate, which is not a character, is read as
U+FFFD.

* `Decoder`: the hooks and the limits.
* `scanValue`: one value at the start of a text, nested at most `limit` deep.
* `loads`: a text that is one value.
-/

namespace JsonText

/-- A value; a mapping holds its items in insertion order. -/
inductive Value (F : Type)
  | null
  | bool (b : Bool)
  | int (i : ℤ)
  | float (f : F)
  | str (s : String)
  | arr (items : List (Value F))
  | obj (fields : List (String × Value F))

/-- The exceptions of `json.loads`. -/
inductive Error
  /-- `JSONDecodeError`, a `ValueError`. -/
  | decode
  /-- A plain `ValueError`: of a hook, or of an integer with too many digits. -/
  | value
  /-- `RecursionError`, which is no `ValueError`. -/
  | recursion
  deriving DecidableEq, Repr

structure Decoder (F : Type) where
  /-- `float` of a literal with a fraction or an exponent. -/
  parseFloat : List Char → F
  /-- `parse_constant` of `NaN`, `Infinity` and `-Infinity`. -/
  parseConstant : List Char → Except Error F
  /-- `object_pairs_hook`; without one, the last value of a key stays, at its first place. -/
  objectPairs : List (String × Value F) → Except Error (List (String × Value F))
  /-- How deep arrays and mappings may nest before the interpreter gives up. -/
  recursionLimit : ℕ
  /-- How many digits `int` converts. -/
  maximumDigits : ℕ

variable {F : Type}

/-- `dict(pairs)`: a repeated key keeps its place and takes the new value. -/
def dictOf : List (String × Value F) → List (String × Value F)
  | pairs => pairs.foldl (fun fields pair =>
      if fields.any fun f => f.1 == pair.1 then fields.map fun f => if f.1 == pair.1 then pair else f
      else fields ++ [pair]) []

/-- What is between two tokens. -/
def isWhitespace (c : Char) : Bool := c = ' ' || c = '\t' || c = '\n' || c = '\r'

def skipWhitespace (s : List Char) : List Char := s.dropWhile isWhitespace

def isDigit (c : Char) : Bool := '0' ≤ c && c ≤ '9'

def digitValue (c : Char) : ℕ := c.toNat - 48

/-- The number that decimal digits write. -/
def natOfDigits (digits : List Char) : ℕ := digits.foldl (fun n c => n * 10 + digitValue c) 0

/-! ## Strings -/

def hexValue (c : Char) : Option ℕ :=
  if '0' ≤ c && c ≤ '9' then some (c.toNat - 48)
  else if 'a' ≤ c && c ≤ 'f' then some (c.toNat - 87)
  else if 'A' ≤ c && c ≤ 'F' then some (c.toNat - 55)
  else none

/-- Four hexadecimal digits. -/
def hexFour (a b c d : Char) : Option ℕ := do
  let a ← hexValue a
  let b ← hexValue b
  let c ← hexValue c
  let d ← hexValue d
  return ((a * 16 + b) * 16 + c) * 16 + d

def isHighSurrogate (n : ℕ) : Bool := decide (0xD800 ≤ n ∧ n ≤ 0xDBFF)

def isLowSurrogate (n : ℕ) : Bool := decide (0xDC00 ≤ n ∧ n ≤ 0xDFFF)

/-- The character of a code point; a surrogate has none. -/
def charOf (n : ℕ) : Char := if isHighSurrogate n || isLowSurrogate n then Char.ofNat 0xFFFD else Char.ofNat n

/-- The letters of the short escapes. -/
def shortEscape (c : Char) : Option Char :=
  if c.toNat = 34 || c = '\\' || c = '/' then some c
  else if c = 'b' then some (Char.ofNat 8)
  else if c = 'f' then some (Char.ofNat 12)
  else if c = 'n' then some '\n'
  else if c = 'r' then some '\r'
  else if c = 't' then some '\t'
  else none

/-- A high surrogate that still waits for its other half. -/
def pending : Option ℕ → List Char
  | none => []
  | some _ => [Char.ofNat 0xFFFD]

/-- The characters of one code unit after `high`, and the high surrogate that it leaves. -/
def unit (high : Option ℕ) (n : ℕ) : List Char × Option ℕ :=
  match high with
  | some h =>
    if isLowSurrogate n then ([Char.ofNat (0x10000 + (h - 0xD800) * 0x400 + (n - 0xDC00))], none)
    else if isHighSurrogate n then ([Char.ofNat 0xFFFD], some n)
    else ([Char.ofNat 0xFFFD, charOf n], none)
  | none => if isHighSurrogate n then ([], some n) else ([charOf n], none)

/-- The rest of a string after its opening quote: its characters, and the text after it. -/
def scanString (high : Option ℕ) : List Char → Except Error (List Char × List Char)
  | [] => .error .decode
  | '\\' :: 'u' :: a :: b :: c :: d :: rest =>
    match hexFour a b c d with
    | none => .error .decode
    | some n => do
      let (s, rest) ← scanString (unit high n).2 rest
      return ((unit high n).1 ++ s, rest)
  | '\\' :: c :: rest =>
    match shortEscape c with
    | none => .error .decode
    | some e => do
      let (s, rest) ← scanString none rest
      return (pending high ++ e :: s, rest)
  | c :: rest =>
    if c.toNat = 34 then .ok (pending high, rest)
    else if c = '\\' || c.toNat < 32 then .error .decode
    else do
      let (s, rest) ← scanString none rest
      return (pending high ++ c :: s, rest)

/-! ## Numbers -/

/-- A fraction: a point and at least one digit. -/
def fraction : List Char → List Char × List Char
  | '.' :: c :: cs => if isDigit c then ('.' :: c :: cs.takeWhile isDigit, cs.dropWhile isDigit) else ([], '.' :: c :: cs)
  | s => ([], s)

/-- The digits of an exponent after `taken`; without any, there is no exponent. -/
def exponentDigits (taken whole : List Char) : List Char → List Char × List Char
  | c :: cs => if isDigit c then (taken ++ c :: cs.takeWhile isDigit, cs.dropWhile isDigit) else ([], whole)
  | [] => ([], whole)

/-- An exponent: a letter, perhaps a sign, and at least one digit. -/
def exponent : List Char → List Char × List Char
  | e :: s =>
    if e = 'e' || e = 'E' then
      match s with
      | sign :: cs =>
        if sign = '+' || sign = '-' then exponentDigits [e, sign] (e :: s) cs else exponentDigits [e] (e :: s) s
      | [] => ([], e :: s)
    else ([], e :: s)
  | [] => ([], [])

/-- The integer part: a zero, or digits that do not begin with one. -/
def integerPart : List Char → Option (List Char × List Char)
  | c :: cs =>
    if c = '0' then some ([c], cs)
    else if isDigit c then some (c :: cs.takeWhile isDigit, cs.dropWhile isDigit)
    else none
  | [] => none

/-- A number after its sign. -/
def scanUnsigned (d : Decoder F) (negative : Bool) (s : List Char) : Except Error (Value F × List Char) :=
  match integerPart s with
  | none => .error .decode
  | some (digits, rest) =>
    let (fractional, afterFraction) := fraction rest
    let (exponential, after) := exponent afterFraction
    if fractional = [] ∧ exponential = [] then
      if d.maximumDigits < digits.length then .error .value
      else .ok (.int (if negative then -(natOfDigits digits : ℤ) else natOfDigits digits), rest)
    else
      .ok (.float (d.parseFloat ((if negative then ['-'] else []) ++ digits ++ fractional ++ exponential)), after)

/-- The text after a prefix. -/
def after (word s : List Char) : Option (List Char) := if word <+: s then some (s.drop word.length) else none

def scanConstant (d : Decoder F) (word s : List Char) (otherwise : Except Error (Value F × List Char)) :
    Except Error (Value F × List Char) :=
  match after word s with
  | none => otherwise
  | some rest => do
    let f ← d.parseConstant word
    return (.float f, rest)

def scanNumber (d : Decoder F) (s : List Char) : Except Error (Value F × List Char) :=
  match s with
  | '-' :: cs => scanConstant d "-Infinity".toList s (scanUnsigned d true cs)
  | _ => scanUnsigned d false s

/-- `null`, `true`, `false`, or nothing else. -/
def scanLiteral (word s : List Char) (v : Value F) : Except Error (Value F × List Char) :=
  match after word s with
  | none => .error .decode
  | some rest => .ok (v, rest)

/-! ## Values -/

/-- How a value is scanned: what it is, and the text after it. -/
abbrev Scanner (F : Type) := List Char → Except Error (Value F × List Char)

/-- The items of an array from one item on; `fuel` bounds their number. -/
def scanItems (scan : Scanner F) : ℕ → List Char → Except Error (List (Value F) × List Char)
  | 0, _ => .error .decode
  | fuel + 1, s => do
    let (v, rest) ← scan s
    match skipWhitespace rest with
    | ',' :: rest => do
      let (vs, rest) ← scanItems scan fuel (skipWhitespace rest)
      return (v :: vs, rest)
    | ']' :: rest => return ([v], rest)
    | _ => .error .decode

/-- The rest of an array after its bracket. -/
def scanArray (scan : Scanner F) (s : List Char) : Except Error (Value F × List Char) :=
  match skipWhitespace s with
  | ']' :: rest => .ok (.arr [], rest)
  | s => do
    let (vs, rest) ← scanItems scan s.length s
    return (.arr vs, rest)

/-- One item of a mapping. -/
def scanPair (scan : Scanner F) : List Char → Except Error ((String × Value F) × List Char)
  | c :: cs =>
    if c.toNat = 34 then do
      let (key, rest) ← scanString none cs
      match skipWhitespace rest with
      | ':' :: rest => do
        let (v, rest) ← scan (skipWhitespace rest)
        return ((String.ofList key, v), rest)
      | _ => .error .decode
    else .error .decode
  | [] => .error .decode

/-- The items of a mapping from one item on; `fuel` bounds their number. -/
def scanPairs (scan : Scanner F) : ℕ → List Char → Except Error (List (String × Value F) × List Char)
  | 0, _ => .error .decode
  | fuel + 1, s => do
    let (pair, rest) ← scanPair scan s
    match skipWhitespace rest with
    | c :: rest =>
      if c = ',' then do
        let (pairs, rest) ← scanPairs scan fuel (skipWhitespace rest)
        return (pair :: pairs, rest)
      else if c.toNat = 125 then return ([pair], rest)
      else .error .decode
    | [] => .error .decode

/-- The rest of a mapping after its brace. -/
def scanObject (d : Decoder F) (scan : Scanner F) (s : List Char) : Except Error (Value F × List Char) :=
  match skipWhitespace s with
  | [] => .error .decode
  | c :: rest =>
    if c.toNat = 125 then do
      let fields ← d.objectPairs []
      return (.obj fields, rest)
    else do
      let (pairs, rest) ← scanPairs scan (c :: rest).length (c :: rest)
      let fields ← d.objectPairs pairs
      return (.obj fields, rest)

/-- A value, given how the rests of arrays and mappings are scanned. -/
def scanWith (d : Decoder F) (array object : Scanner F) : Scanner F
  | [] => .error .decode
  | c :: cs =>
    if c.toNat = 34 then do
      let (s, rest) ← scanString none cs
      return (.str (String.ofList s), rest)
    else if c.toNat = 123 then object cs
    else if c = '[' then array cs
    else if c = 'n' then scanLiteral "null".toList (c :: cs) .null
    else if c = 't' then scanLiteral "true".toList (c :: cs) (.bool true)
    else if c = 'f' then scanLiteral "false".toList (c :: cs) (.bool false)
    else if c = 'N' then scanConstant d "NaN".toList (c :: cs) (.error .decode)
    else if c = 'I' then scanConstant d "Infinity".toList (c :: cs) (.error .decode)
    else scanNumber d (c :: cs)

/-- `scan_once` with `limit` levels of recursion left. -/
def scanValue (d : Decoder F) : ℕ → Scanner F
  | 0 => scanWith d (fun _ => .error .recursion) fun _ => .error .recursion
  | limit + 1 => scanWith d (scanArray (scanValue d limit)) (scanObject d (scanValue d limit))

/-- `json.loads` of a `str`. -/
def loads (d : Decoder F) (s : List Char) : Except Error (Value F) :=
  if s.head? = some (Char.ofNat 0xFEFF) then .error .decode
  else do
    let (v, rest) ← scanValue d d.recursionLimit (skipWhitespace s)
    if skipWhitespace rest = [] then return v else .error .decode

end JsonText
