import Jukebox.Playlist.Store

/-!
Playlists as JSON: as they are stored, and as they are shown.
-/

namespace Jukebox.Playlist

open Json (Decoder)

namespace Item

def nodeDecoder : Decoder (Path × List Key) := fun depth source => do
  let (depth, [some path, some keys]) ←
    Decoder.record [⟨["Path"], .error⟩, ⟨["Keys"], .error⟩] depth source | none
  return (← Path.decoder depth path, ← Decoder.list Key.decoder depth keys)

/-- Reads an item. Of several nodes with one path the last counts. -/
def decoder : Decoder Item := fun depth source => do
  let (depth, [some id, some root, some nodes, some tracks]) ← Decoder.record
    [⟨["Id"], .error⟩, ⟨["Root"], .error⟩, ⟨["Paths"], .error⟩, ⟨["Tracks"], .error⟩] depth source
    | none
  return {
    id := ← Uuid.decoder depth id
    root := ← Path.decoder depth root
    nodes := .ofList (← Decoder.list nodeDecoder depth nodes)
    tracks := ← Decoder.list Path.decoder depth tracks }

def nodeJson (node : Path × List Key) : Json :=
  .object [("Path", node.1.toJson), ("Keys", .list .string node.2)]

/-- The item with its nodes in ascending order of their paths. -/
def toJson (item : Item) : Json := .object [
  ("Id", item.id.toJson), ("Root", item.root.toJson),
  ("Paths", .list nodeJson item.nodes.toList), ("Tracks", .list Path.toJson item.tracks)]

end Item

namespace Position

def decoder : Decoder Position := fun depth source => do
  let (depth, [some item, some track]) ←
    Decoder.record [⟨["Item"], .error⟩, ⟨["Track"], .error⟩] depth source | none
  return ⟨← Decoder.natural depth item, ← Decoder.natural depth track⟩

def toJson (position : Position) : Json :=
  .object [("Item", .natural position.item), ("Track", .natural position.track)]

end Position

def decoder : Decoder Playlist := fun depth source => do
  let (depth, [some items, some current]) ←
    Decoder.record [⟨["Items"], .error⟩, ⟨["Current"], .null⟩] depth source | none
  return {
    items := ← Decoder.list Item.decoder depth items
    current := ← Decoder.optional Position.decoder depth current }

def toJson (playlist : Playlist) : Json := .object [
  ("Items", .list Item.toJson playlist.items),
  ("Current", .optional Position.toJson playlist.current)]

/-- The current track with its indices and its path. -/
def CurrentTrack.toJson (current : CurrentTrack) : Json := .object [
  ("Item", .natural current.position.item), ("Track", .natural current.position.track),
  ("Path", current.path.toJson)]

def Snapshot.toJson (snapshot : Snapshot) : Json := .object [
  ("Name", .string snapshot.name), ("Items", .list Item.toJson snapshot.items),
  ("Current", .optional CurrentTrack.toJson snapshot.current),
  ("CanNext", .bool snapshot.canNext), ("CanPrev", .bool snapshot.canPrev)]

namespace Store

/-- Reads named playlists and repairs them. -/
def decoder : Decoder Store := fun depth source => do
  let members ← Decoder.members Playlist.decoder depth source
  return (Std.ExtTreeMap.ofList members : Store).repaired

/-- The playlists in ascending order of their names. -/
def toJson (store : Store) : Json :=
  .object (store.toList.map fun (name, playlist) => (name, playlist.toJson))

end Store

end Jukebox.Playlist
