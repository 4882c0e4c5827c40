import Jukebox.Cursor.Basic
import Jukebox.Event

/-!
The named cursors. Every action on a cursor answers with the cursor as it is afterwards, and
reports a change unless it only reads. An action that fails leaves the store as it was.
-/

namespace Jukebox.Cursor

/-- What can be asked of a named cursor. -/
inductive Action where
  | fetch
  | set (track : Path)
  | next
  | prev
  | reset
  /-- Points at what the playlist of the same name plays. -/
  | follow
deriving DecidableEq, Repr

def Action.verb : Action → String
  | fetch => "FETCH"
  | set _ => "SET"
  | next => "NEXT"
  | prev => "PREV"
  | reset => "RESET"
  | follow => "FOLLOW"

/-- The cursor after an action; `played` is the current track of the playlist of its name. -/
def perform (cursor : Cursor) (catalog : Catalog) (anchor : Path) (played : Option Path) :
    Action → Except Error Cursor
  | .fetch => .ok cursor
  | .set track => Cursor.set catalog anchor track
  | .next => cursor.next catalog anchor
  | .prev => cursor.prev catalog anchor
  | .reset => .ok reset
  | .follow => follow catalog anchor played

/-- The cursors by name. -/
abbrev Store := Std.ExtTreeMap String Cursor

namespace Store

/-- The cursor of a name; a name that is not stored means the cursor at nothing. -/
def cursor (store : Store) (name : String) : Cursor := store.getD name {}

/-- The snapshot of a cursor. -/
def get (store : Store) (catalog : Catalog) (anchor : Path) (name : String) :
    Except Error Snapshot :=
  if name.isEmpty then .error .emptyCursorName
  else (store.cursor name).snapshot catalog anchor name

/-- Performs an action on a named cursor. It fails also if the tracks around the new place cannot
be told. -/
def apply (store : Store) (catalog : Catalog) (anchor : Path) (played : Option Path)
    (name : String) (action : Action) : Outcome Store Snapshot :=
  if name.isEmpty then ⟨store, .error .emptyCursorName, []⟩
  else if action = .fetch then ⟨store, store.get catalog anchor name, []⟩
  else
    let moved := do
      let cursor ← (store.cursor name).perform catalog anchor played action
      return (cursor, ← cursor.snapshot catalog anchor name)
    match moved with
    | .ok (cursor, snapshot) => ⟨store.insert name cursor, .ok snapshot, [.cursorChanged name]⟩
    | .error e => ⟨store, .error e, []⟩

/-- The store with every cursor reset that points at no track, as it is after it was read from a
file. -/
def validated (store : Store) (catalog : Catalog) (anchor : Path) : Store :=
  store.map fun _ cursor => if cursor.isValid catalog anchor then cursor else reset

end Store

end Jukebox.Cursor
