import Mathlib.Data.Int.Notation
import Mathlib.Data.List.Basic

/-!
# JSON values

The JSON-like values of the program: capability and parameter mappings, resource
metadata, result summaries. An object is the list of its items in insertion order, as
a Python `dict` is. A finite float is kept as the text `json.dumps` writes for it.
-/

namespace Switchboard

/-- The characters of the text of a finite float. -/
def floatChars : List Char := "0123456789+-.e".toList

/-- The JSON text of a finite float. -/
structure FloatText where
  text : String
  chars : ∀ c ∈ text.toList, c ∈ floatChars

instance : BEq FloatText := ⟨fun a b => a.text == b.text⟩

inductive Json
  | null
  | bool (b : Bool)
  | int (i : ℤ)
  | float (f : FloatText)
  | str (s : String)
  | arr (items : List Json)
  | obj (fields : List (String × Json))

/-- `mapping.get(key)`: the last binding wins in a Python literal, but a `dict` holds
each key once, so the first binding is the only one. -/
def lookup (fields : List (String × Json)) (name : String) : Option Json :=
  (fields.find? fun f => f.1 == name).map Prod.snd

/-! ## Equality -/

mutual

/-- Python's `==`: mappings are equal whatever the order of their items, and `bool` is an `int`.
The compared values never mix integers and floats. -/
def Json.beq : Json → Json → Bool
  | .null, .null => true
  | .bool a, .bool b => a == b
  | .bool a, .int i => i == if a then 1 else 0
  | .int i, .bool a => i == if a then 1 else 0
  | .int a, .int b => a == b
  | .float a, .float b => a == b
  | .str a, .str b => a == b
  | .arr as, .arr bs => Json.beqItems as bs
  | .obj as, .obj bs => as.length == bs.length && Json.beqFields as bs
  | _, _ => false

/-- Equality of two sequences. -/
def Json.beqItems : List Json → List Json → Bool
  | [], [] => true
  | a :: as, b :: bs => Json.beq a b && Json.beqItems as bs
  | _, _ => false

/-- Every item of the first mapping is one of the second. -/
def Json.beqFields : List (String × Json) → List (String × Json) → Bool
  | [], _ => true
  | (k, v) :: rest, bs => (bs.any fun f => f.1 == k && Json.beq v f.2) && Json.beqFields rest bs

end

instance : BEq Json := ⟨Json.beq⟩

/-- `==` of two mappings. -/
def sameMapping (a b : List (String × Json)) : Bool := Json.obj a == Json.obj b

/-- `==` of two lists. -/
def sameItems (a b : List Json) : Bool := Json.arr a == Json.arr b

mutual

theorem Json.beq_refl : ∀ v : Json, Json.beq v v = true
  | .null => rfl
  | .bool a => by simp [Json.beq]
  | .int a => by simp [Json.beq]
  | .float a => by simp [Json.beq, BEq.beq]
  | .str a => by simp [Json.beq]
  | .arr as => by
    unfold Json.beq
    exact Json.beqItems_refl as
  | .obj as => by
    unfold Json.beq
    simp [Json.beqFields_refl as as fun _ h => h]

theorem Json.beqItems_refl : ∀ vs : List Json, Json.beqItems vs vs = true
  | [] => rfl
  | v :: vs => by simp [Json.beqItems, Json.beq_refl v, Json.beqItems_refl vs]

theorem Json.beqFields_refl : ∀ (as bs : List (String × Json)), (∀ f ∈ as, f ∈ bs) → Json.beqFields as bs = true
  | [], _, _ => by simp [Json.beqFields]
  | (k, v) :: rest, bs, h => by
    have hhead : (bs.any fun f => f.1 == k && Json.beq v f.2) = true :=
      List.any_eq_true.2 ⟨(k, v), h _ List.mem_cons_self, by simp [Json.beq_refl v]⟩
    simp [Json.beqFields, hhead, Json.beqFields_refl rest bs fun f hf => h f (List.mem_cons_of_mem _ hf)]

end

@[simp] theorem sameMapping_refl (a : List (String × Json)) : sameMapping a a = true := Json.beq_refl (.obj a)

@[simp] theorem sameItems_refl (a : List Json) : sameItems a a = true := Json.beq_refl (.arr a)

end Switchboard
