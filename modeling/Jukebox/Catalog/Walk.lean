import Jukebox.Catalog.Basic

/-!
Walks over the tracks below a root, in depth-first order of keys and indices, in either direction.
A walk never lists the tracks: it climbs from a track to the nearest ancestor with a later (or
earlier) sibling and descends from there.
-/

namespace Jukebox

inductive Direction where
  | forward
  | backward
deriving DecidableEq, Repr

namespace Direction

/-- The items in the order in which a walk meets them. -/
def order (direction : Direction) (items : List α) : List α :=
  match direction with
  | forward => items
  | backward => items.reverse

/-- The index of the track of a leaf that a walk meets first. -/
def firstIndex (direction : Direction) (count : Nat) : Nat :=
  match direction with
  | forward => 0
  | backward => count - 1

/-- The index that a walk meets next in the same leaf. -/
def nextIndex? (direction : Direction) (index count : Nat) : Option Nat :=
  match direction with
  | forward => if index + 1 < count then some (index + 1) else none
  | backward => if 0 < index then some (index - 1) else none

/-- The items that a walk meets after the one at a position. -/
def beyond (direction : Direction) (position : Nat) (items : List α) : List α :=
  match direction with
  | forward => items.drop (position + 1)
  | backward => (items.take position).reverse

end Direction

namespace Catalog

/-! ### Descending -/

/-- The first track at or below a path that a walk meets, where `levels` bounds the levels below
the path. No group lies deeper than the catalog is deep, so a listed node there is missing. -/
def edgeWithin (catalog : Catalog) (direction : Direction) :
    (levels : Nat) → Path → Except Error (Option Path)
  | 0, path => .error (.missingNode path)
  | levels + 1, path => do
    let group ← catalog.listed path
    match ← group.kind path with
    | .leaf tracks => return some (path.child (Key.ofIndex (direction.firstIndex tracks.length)))
    | .internal keys =>
      (direction.order keys).findSomeM? fun key =>
        catalog.edgeWithin direction levels (path.child key)

/-- The first track at or below a path that a walk meets. -/
def edge (catalog : Catalog) (direction : Direction) (path : Path) : Except Error (Option Path) :=
  catalog.edgeWithin direction (catalog.depth + 1 - path.length) path

def firstTrack (catalog : Catalog) (path : Path) : Except Error (Option Path) :=
  catalog.edge .forward path

def lastTrack (catalog : Catalog) (path : Path) : Except Error (Option Path) :=
  catalog.edge .backward path

/-! ### Locating a track -/

/-- A track within its leaf: the path of the leaf, the index of the track and the count of the
leaf's tracks. -/
structure Located where
  leaf : Path
  index : Nat
  count : Nat
deriving DecidableEq, Repr

/-- Locates a track below a root. The number of its last key is held against the count of the
leaf's tracks, which fits a word, so it needs no bound of its own. -/
def locate (catalog : Catalog) (root track : Path) : Except Error Located := do
  if !track.isBelow root then throw (.notUnder track root)
  let leaf := track.dropLast
  let group ← catalog.lookup leaf
  match ← group.kind leaf, track.getLast?.bind Key.number? with
  | .leaf tracks, some index =>
    if index < tracks.length then return ⟨leaf, index, tracks.length⟩
    else throw (.notTrack track)
  | _, _ => throw (.notTrack track)

/-- Checks that a path leads to a track below a root. -/
def ensureTrack (catalog : Catalog) (root track : Path) : Except Error Unit := do
  discard (catalog.locate root track)

/-! ### Climbing -/

/-- The paths of the siblings of a node that a walk meets after it. -/
def siblingsBeyond (catalog : Catalog) (direction : Direction) (path : Path) :
    Except Error (List Path) := do
  let parent : Path := path.dropLast
  let group ← catalog.listed parent
  match ← group.kind parent, path.getLast? with
  | .internal keys, some key =>
    match keys.idxOf? key with
    | some position => return (direction.beyond position keys).map (Path.child parent)
    | none => throw (.unlistedNode path)
  | _, _ => throw (.unlistedNode path)

/-- The first track that a walk meets after everything at or below a path, staying below the
ancestor that many `levels` above it. -/
def climb (catalog : Catalog) (direction : Direction) :
    (levels : Nat) → Path → Except Error (Option Path)
  | 0, _ => return none
  | levels + 1, path => do
    match ← (← catalog.siblingsBeyond direction path).findSomeM? (catalog.edge direction) with
    | some track => return some track
    | none => catalog.climb direction levels path.dropLast

/-- The track that a walk below a root meets after a given one; none at its end. -/
def step (catalog : Catalog) (direction : Direction) (root track : Path) :
    Except Error (Option Path) := do
  let located ← catalog.locate root track
  match direction.nextIndex? located.index located.count with
  | some index => return some (located.leaf.child (Key.ofIndex index))
  | none => catalog.climb direction (located.leaf.length - root.length) located.leaf

/-- The track after a given one; none after the last. -/
def nextTrack (catalog : Catalog) (root track : Path) : Except Error (Option Path) :=
  catalog.step .forward root track

/-- The track before a given one; none before the first. -/
def prevTrack (catalog : Catalog) (root track : Path) : Except Error (Option Path) :=
  catalog.step .backward root track

/-- The paths of the children that a node lists; none if there is no such node. -/
def childPaths (catalog : Catalog) (root : Path) : List Path :=
  match catalog.group? root with
  | some group => group.keys.map root.child
  | none => []

end Catalog

end Jukebox
