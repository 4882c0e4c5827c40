import Jukebox.Json.Basic
import Jukebox.Protocol.Failure

/-!
The fields of a command's data, read by type. Nothing is converted: a number in a string is a
string.
-/

namespace Jukebox.Protocol

/-- The data of a command. -/
abbrev Fields := List (String × Json)

/-- An index: a whole number of 64 bits, also where it is written as a real number. A whole real
number that is too big stands for the greatest index. -/
def index? : Json → Option Nat
  | .number (.integer value) =>
    if 0 ≤ value ∧ value < Key.indexBound then some value.toNat else none
  | .number (.real value) =>
    if value.negative ∧ value.significand ≠ 0 then none
    else value.whole?.map (min · (Key.indexBound - 1))
  | _ => none

namespace Fields

/-- The value of a field. -/
def get (fields : Fields) (field : String) : Except Failure Json :=
  match fields.lookup field with
  | some value => .ok value
  | none => .error (.malformed (.missing field))

/-- The value of a field that may be left out or `null`. -/
def optional (fields : Fields) (field : String) : Option Json :=
  match fields.lookup field with
  | some .null | none => none
  | some value => some value

/-- The failure of a field that is of another type. -/
def mistyped (field expected : String) (found : Json) : Except Failure α :=
  .error (.malformed (.mistyped field expected found))

def string (fields : Fields) (field : String) : Except Failure String := do
  match ← fields.get field with
  | .string s => return s
  | other => mistyped field "string" other

def bool (fields : Fields) (field : String) : Except Failure Bool := do
  match ← fields.get field with
  | .bool b => return b
  | other => mistyped field "bool" other

/-- The index that the value of a field writes. -/
def indexOf (field : String) (value : Json) : Except Failure Nat :=
  match index? value with
  | some index => .ok index
  | none => mistyped field "non-negative integer" value

/-- A field that is an index. -/
def index (fields : Fields) (field : String) : Except Failure Nat := do
  indexOf field (← fields.get field)

/-- A field that is an index or left out. -/
def optionalIndex (fields : Fields) (field : String) : Except Failure (Option Nat) :=
  match fields.optional field with
  | some value => (indexOf field value).map some
  | none => .ok none

/-- A field that is a path. -/
def path (fields : Fields) (field : String) : Except Failure Path := do
  match ← fields.get field with
  | .array items =>
    match Path.ofJson? (.array items) with
    | .ok path => return path
    | .error reason => throw (.malformed (.notPath field reason))
  | other => mistyped field "array" other

end Fields

end Jukebox.Protocol
