import Jukebox.Cursor.Store

/-!
Cursors as JSON: as they are stored, and as they are shown.
-/

namespace Jukebox.Cursor

open Json (Decoder)

def decoder : Decoder Cursor := fun depth source => do
  let (depth, [some current]) ← Decoder.record [⟨["Current"], .null⟩] depth source | none
  return ⟨← Decoder.optional Path.decoder depth current⟩

def toJson (cursor : Cursor) : Json :=
  .object [("Current", .optional Path.toJson cursor.current)]

def Snapshot.toJson (snapshot : Snapshot) : Json := .object [
  ("Name", .string snapshot.name), ("Current", .optional Path.toJson snapshot.current),
  ("Previous", .optional Path.toJson snapshot.previous),
  ("Next", .optional Path.toJson snapshot.next)]

namespace Store

def decoder : Decoder Store := fun depth source => do
  return .ofList (← Decoder.members Cursor.decoder depth source)

/-- The cursors in ascending order of their names. -/
def toJson (store : Store) : Json :=
  .object (store.toList.map fun (name, cursor) => (name, cursor.toJson))

end Store

end Jukebox.Cursor
