import Jukebox.Text.Numeral

/-!
Addresses in a library. A path is the list of keys that leads from a collection to one of its
groups or tracks; a track is addressed by the path of its group and its index as a decimal key.
-/

namespace Jukebox

/-- One step of a path. -/
abbrev Key := String

namespace Key

/-- The bound of track indices: they fit a 64-bit word. -/
def indexBound : Nat := UInt64.size

/-- The key of the track at an index. -/
def ofIndex (index : Nat) : Key := toString index

/-- The number that a key writes: an optional plus and decimal digits. -/
def number? (key : Key) : Option Nat :=
  let digits := match key.toList with
    | '+' :: rest => rest
    | chars => chars
  Text.decimal? digits

/-- The index that a key writes: its number, if that is below the bound. -/
def index? (key : Key) : Option Nat := key.number?.filter (· < indexBound)

end Key

/-- The address of a node or a track, from the collection down. -/
abbrev Path := List Key

namespace Path

/-- The path that names a collection. -/
def ofCollection (key : Key) : Path := [key]

/-- The path of a child. -/
def child (path : Path) (key : Key) : Path := path ++ [key]

/-- The path of the parent; the empty path has none. -/
def parent? (path : Path) : Option Path :=
  if path.isEmpty then none else some path.dropLast

/-- The first keys of a path. -/
def truncated (path : Path) (length : Nat) : Path := path.take length

/-- The keys with slashes between them. -/
def display (path : Path) : String := "/".intercalate path

/-- Whether a path lies at or below another. -/
def isUnder (path root : Path) : Bool := root.isPrefixOf path

/-- Whether a path lies below another. -/
def isBelow (path root : Path) : Bool := root.length < path.length && path.isUnder root

end Path

end Jukebox
