import Jukebox.Json.Decoder
import Jukebox.Json.Printer
import Jukebox.Path
import Jukebox.Text.Quoted

/-!
Paths as JSON: an array of strings. On reading, a natural number below the index bound stands for
the key that writes it in decimal.
-/

namespace Jukebox

/-- Why a JSON value is no path. -/
inductive Path.Malformed where
  /-- The value is no array. -/
  | notArray (found : Json)
  /-- An element is neither a string nor an integer. -/
  | notKey (found : Json)
  /-- An element is a negative integer. -/
  | negative (value : Int)
deriving DecidableEq

/-- What a message calls a value that it did not expect. -/
def Json.described : Json → String
  | .null => "null"
  | .bool b => "boolean `" ++ toString b ++ "`"
  | .number (.integer value) => "integer `" ++ toString value ++ "`"
  | .number (.real value) => "floating point `" ++ value.text ++ "`"
  | .string s => "string " ++ Text.quoted s
  | .array _ => "sequence"
  | .object _ => "map"

namespace Path

/-- The text of the reason. -/
def Malformed.message : Malformed → String
  | notArray found => "invalid type: " ++ found.described ++ ", expected a sequence"
  | notKey found =>
    "invalid type: " ++ found.described ++ ", expected a string or a non-negative integer"
  | negative value =>
    "invalid value: integer `" ++ toString value ++ "`, expected a string or a non-negative integer"

end Path

namespace Key

/-- The key that an element of a path stands for. -/
def ofJson? : Json → Except Path.Malformed Key
  | .string s => .ok s
  | .number (.integer value) =>
    if value < 0 then .error (.negative value)
    else if value < indexBound then .ok (ofIndex value.toNat)
    else .error (.notKey (.number (.integer value)))
  | other => .error (.notKey other)

def decoder : Json.Decoder Key
  | _, .string s => s
  | _, .number n => do (ofJson? (.number (← n))).toOption
  | _, _ => none

end Key

namespace Path

/-- The path that a value stands for. -/
def ofJson? : Json → Except Malformed Path
  | .array items => items.mapM Key.ofJson?
  | other => .error (.notArray other)

def decoder : Json.Decoder Path := .list Key.decoder

def toJson (path : Path) : Json := .list .string path

end Path

end Jukebox
