import Mathlib.Data.List.Basic

/-!
# UTF-8 as it is read

A decoder that takes one byte after the other. A byte that cannot continue the sequence it
stands in ends that sequence, which is then one error, and is read again from the start.

* `decode`: the characters of a text, and its errors.
* `strict`, `replace`: the two ways of treating errors.
* `decode_append`: what the first part of a text decodes to.
-/

namespace Utf8

/-- Between two characters, or within one: how many bytes are owed, between which bounds the next one
lies, and the bits so far. -/
inductive State
  | start
  | within (owed low high bits : ℕ)
  deriving DecidableEq, Repr

/-- The first byte of a character. -/
def lead (b : ℕ) : Option (Option Char × State) :=
  if b < 0x80 then some (some (Char.ofNat b), .start)
  else if 0xC2 ≤ b ∧ b ≤ 0xDF then some (none, .within 1 0x80 0xBF (b - 0xC0))
  else if b = 0xE0 then some (none, .within 2 0xA0 0xBF 0)
  else if b = 0xED then some (none, .within 2 0x80 0x9F 0xD)
  else if 0xE1 ≤ b ∧ b ≤ 0xEF then some (none, .within 2 0x80 0xBF (b - 0xE0))
  else if b = 0xF0 then some (none, .within 3 0x90 0xBF 0)
  else if b = 0xF4 then some (none, .within 3 0x80 0x8F 4)
  else if 0xF1 ≤ b ∧ b ≤ 0xF3 then some (none, .within 3 0x80 0xBF (b - 0xF0))
  else none

/-- What a byte at the start of a character gives: a character, an error, or nothing yet. -/
def first (b : ℕ) : List (Option Char) × State :=
  match lead b with
  | none => ([none], .start)
  | some (none, s) => ([], s)
  | some (some c, s) => ([some c], s)

/-- What one byte gives. -/
def step : State → ℕ → List (Option Char) × State
  | .start, b => first b
  | .within owed low high bits, b =>
    if low ≤ b ∧ b ≤ high then
      if owed = 1 then ([some (Char.ofNat (bits * 64 + (b - 0x80)))], .start)
      else ([], .within (owed - 1) 0x80 0xBF (bits * 64 + (b - 0x80)))
    else (none :: (first b).1, (first b).2)

/-- What the end of the text gives. -/
def flush : State → List (Option Char)
  | .start => []
  | .within _ _ _ _ => [none]

/-- The characters and errors before the end of the text, and the state there. -/
def run : State → List UInt8 → List (Option Char) × State
  | s, [] => ([], s)
  | s, b :: bs => ((step s b.toNat).1 ++ (run (step s b.toNat).2 bs).1, (run (step s b.toNat).2 bs).2)

/-- The characters of a text; `none` is an invalid sequence. -/
def decode (bytes : List UInt8) : List (Option Char) := (run .start bytes).1 ++ flush (run .start bytes).2

/-- U+FFFD. -/
def replacement : Char := Char.ofNat 0xFFFD

/-- `bytes.decode("utf-8")`. -/
def strict (bytes : List UInt8) : Option (List Char) := (decode bytes).mapM id

/-- `bytes.decode("utf-8", errors="replace")`. -/
def replace (bytes : List UInt8) : List Char := (decode bytes).map (Option.getD · replacement)

theorem run_append (s : State) (xs ys : List UInt8) :
    run s (xs ++ ys) = ((run s xs).1 ++ (run (run s xs).2 ys).1, (run (run s xs).2 ys).2) := by
  induction xs generalizing s with
  | nil => simp [run]
  | cons b xs ih => simp only [List.cons_append, run, ih, List.append_assoc]

/-- **What is decoded before a cut stays as it is**; what comes after depends on the state at the cut. -/
theorem decode_append (xs ys : List UInt8) :
    decode (xs ++ ys) =
      (run .start xs).1 ++ ((run (run .start xs).2 ys).1 ++ flush (run (run .start xs).2 ys).2) := by
  unfold decode
  rw [run_append, List.append_assoc]

/-- A text of ASCII characters is one character for each byte. -/
theorem run_ascii {bytes : List UInt8} (h : ∀ b ∈ bytes, b.toNat < 0x80) :
    run .start bytes = (bytes.map fun b => some (Char.ofNat b.toNat), .start) := by
  induction bytes with
  | nil => rfl
  | cons b bs ih =>
    have hb := h b List.mem_cons_self
    have hstep : step .start b.toNat = ([some (Char.ofNat b.toNat)], .start) := by
      simp [step, first, lead, hb]
    simp [run, hstep, ih fun c hc => h c (List.mem_cons_of_mem _ hc)]

theorem strict_ascii {bytes : List UInt8} (h : ∀ b ∈ bytes, b.toNat < 0x80) :
    strict bytes = some (bytes.map fun b => Char.ofNat b.toNat) := by
  have hdecode : decode bytes = (bytes.map fun b => Char.ofNat b.toNat).map some := by
    simp [decode, run_ascii h, flush]
  have hall : ∀ cs : List Char, (cs.map some).mapM id = some cs := by
    intro cs
    induction cs with
    | nil => rfl
    | cons c cs ih => simp [ih]
  rw [strict, hdecode, hall]

example : replace [0xC3, 0xA9, 0xF0, 0x9F] = [Char.ofNat 0xE9, replacement] := by decide

end Utf8
