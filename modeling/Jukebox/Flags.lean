import Std.Data.ExtTreeSet
import Jukebox.Path.Codec

/-!
Lists of flagged paths: the favourites and the checklist.
-/

namespace Jukebox

/-- The two lists. -/
inductive FlagList where
  | favourite
  | checklist
deriving DecidableEq, Repr

namespace FlagList

def name : FlagList → String
  | favourite => "favourite"
  | checklist => "checklist"

/-- The list of a name. -/
def ofName? (name : String) : Option FlagList :=
  if name = favourite.name then some favourite
  else if name = checklist.name then some checklist
  else none

/-- Reads a list: its name, or an object whose only member has that name and no value. -/
def decoder : Json.Decoder FlagList
  | _, .string name => do ofName? (← name)
  | _ + 1, .object [(name, .null)] => do ofName? (← name)
  | _, _ => none

end FlagList

/-- The flagged paths of a list. -/
abbrev Flags := Std.ExtTreeSet Path

namespace Flags

/-- Sets or clears the flag of a path. -/
def assign (flags : Flags) (path : Path) (value : Bool) : Flags :=
  if value then flags.insert path else flags.erase path

/-- Whether some path at or below a root is flagged. -/
def anyUnder (flags : Flags) (root : Path) : Bool := flags.toList.any (·.isUnder root)

def decoder : Json.Decoder Flags := fun depth source => do
  return .ofList (← Json.Decoder.list Path.decoder depth source)

/-- The flagged paths in ascending order. -/
def toJson (flags : Flags) : Json := .list Path.toJson flags.toList

end Flags

end Jukebox
