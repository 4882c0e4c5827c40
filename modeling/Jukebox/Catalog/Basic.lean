import Std.Data.ExtTreeMap
import Jukebox.Error

/-!
The catalog that everything browses: groups by path, a search, named filters, and the paths that
were added lately. A group lists the keys of its children or holds tracks; a catalog may fall
short of that, and may list children that it does not hold.
-/

namespace Jukebox

structure Track where
  id : String
  name : String
  album : String
  artist : List String
  composer : List String
  year : Option Nat
  discNumber : Option Nat
  trackNumber : Option Nat
  durationMs : Nat
deriving DecidableEq, Repr

/-- A node of the catalog. -/
structure Group where
  name : String
  keys : List Key
  tracks : List Track
deriving DecidableEq, Repr

/-- A node that is either internal, with the keys of its children, or a leaf, with its tracks. -/
inductive Group.Kind where
  | internal (keys : List Key)
  | leaf (tracks : List Track)
deriving DecidableEq, Repr

/-- The kind of the group at a path; a group with neither children nor tracks, or with both, has
none. -/
def Group.kind (group : Group) (path : Path) : Except Error Group.Kind :=
  match group.keys, group.tracks with
  | [], [] => .error (.barrenNode path)
  | [], tracks => .ok (.leaf tracks)
  | keys, [] => .ok (.internal keys)
  | _, _ => .error (.mixedNode path)

/-- An entry of a filter: a name and the paths it stands for. -/
structure FilterItem where
  name : String
  paths : List Path
deriving DecidableEq, Repr

/-- The library as it is browsed. -/
structure Catalog where
  groups : Std.ExtTreeMap Path Group
  search : String → List Path
  filters : Std.ExtTreeMap String (List FilterItem)
  recent : List Path

namespace Catalog

/-- A catalog of groups with nothing to search for. -/
def ofGroups (groups : Std.ExtTreeMap Path Group) : Catalog := ⟨groups, fun _ => [], ∅, []⟩

def group? (catalog : Catalog) (path : Path) : Option Group := catalog.groups[path]?

def filter? (catalog : Catalog) (name : String) : Option (List FilterItem) := catalog.filters[name]?

/-- The track at a path: the last key is its index in the group that the other keys lead to, which
has no children. -/
def track? (catalog : Catalog) (path : Path) : Option Track := do
  let index ← (← path.getLast?).number?
  let group ← catalog.group? path.dropLast
  if group.keys.isEmpty then group.tracks[index]? else none

/-- The length of the longest path of a group. -/
def depth (catalog : Catalog) : Nat := (catalog.groups.keys.map List.length).foldl max 0

/-- A group that a caller names. -/
def lookup (catalog : Catalog) (path : Path) : Except Error Group :=
  match catalog.group? path with
  | some group => .ok group
  | none => .error (.unknownPath path)

/-- A group that the catalog itself lists. -/
def listed (catalog : Catalog) (path : Path) : Except Error Group :=
  match catalog.group? path with
  | some group => .ok group
  | none => .error (.missingNode path)

end Catalog

end Jukebox
