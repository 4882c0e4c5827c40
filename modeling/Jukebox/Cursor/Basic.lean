import Jukebox.Catalog.Walk

/-!
Cursors: each points at a track below the anchor, the root of what cursors move over, or at
nothing, and moves through the tracks in the order of the catalog.
-/

namespace Jukebox

structure Cursor where
  current : Option Path := none
deriving DecidableEq, Repr

namespace Cursor

/-- The track after the current one; the first track if there is none. -/
def following (catalog : Catalog) (anchor : Path) : Option Path → Except Error (Option Path)
  | some track => catalog.nextTrack anchor track
  | none => do
    discard (catalog.lookup anchor)
    catalog.firstTrack anchor

/-- The track before the current one; none if there is no current one. -/
def preceding (catalog : Catalog) (anchor : Path) : Option Path → Except Error (Option Path)
  | some track => catalog.prevTrack anchor track
  | none => .ok none

/-- Points at a track, or at nothing. A track has to exist below the anchor. -/
def follow (catalog : Catalog) (anchor : Path) (track : Option Path) : Except Error Cursor := do
  if let some track := track then catalog.ensureTrack anchor track
  return ⟨track⟩

/-- Points at a track. -/
def set (catalog : Catalog) (anchor track : Path) : Except Error Cursor :=
  follow catalog anchor (some track)

/-- Moves to the next track; behind the last the cursor points at nothing. -/
def next (cursor : Cursor) (catalog : Catalog) (anchor : Path) : Except Error Cursor := do
  return ⟨← following catalog anchor cursor.current⟩

/-- Moves to the track before; the first track, or nothing, stays. -/
def prev (cursor : Cursor) (catalog : Catalog) (anchor : Path) : Except Error Cursor := do
  match ← preceding catalog anchor cursor.current with
  | some track => return ⟨some track⟩
  | none => return cursor

/-- Points at nothing. -/
def reset : Cursor := {}

/-- Whether the cursor points at nothing or at a track below the anchor. -/
def isValid (cursor : Cursor) (catalog : Catalog) (anchor : Path) : Bool :=
  match cursor.current with
  | some track => (catalog.ensureTrack anchor track).isOk
  | none => true

/-- A cursor as it is shown, with the tracks around it. -/
structure Snapshot where
  name : String
  current : Option Path
  previous : Option Path
  next : Option Path
deriving DecidableEq, Repr

/-- The cursor under its name. Next to nothing lies the first track, if the anchor exists. -/
def snapshot (cursor : Cursor) (catalog : Catalog) (anchor : Path) (name : String) :
    Except Error Snapshot := do
  let next ← match cursor.current with
    | some track => catalog.nextTrack anchor track
    | none => if (catalog.group? anchor).isSome then catalog.firstTrack anchor else pure none
  let previous ← preceding catalog anchor cursor.current
  return ⟨name, cursor.current, previous, next⟩

end Cursor

end Jukebox
