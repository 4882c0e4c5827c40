import Jukebox.Service.Basic

/-!
Saved state: one JSON file for each store. A service is restored file by file; a file that is
missing leaves its store as it is, and the first one that cannot be read ends the restoration.
-/

namespace Jukebox

/-- The files that hold the stores. -/
inductive StoreFile where
  | playlists
  | cursors
  | history
  | flags (list : FlagList)
deriving DecidableEq, Repr

namespace StoreFile

def name : StoreFile → String
  | playlists => "playlists.json"
  | cursors => "cursors.json"
  | history => "history.json"
  | flags list => list.name ++ ".json"

/-- All files, in the order in which they are restored. -/
def all : List StoreFile := [playlists, cursors, history, flags .favourite, flags .checklist]

/-- The file of the store that an event is about. -/
def ofEvent : Event → StoreFile
  | .playlistChanged _ => playlists
  | .cursorChanged _ => cursors
  | .flagChanged list _ _ => flags list
  | .playRecorded _ _ => history

end StoreFile

namespace Service

def document (service : Service) : StoreFile → Json
  | .playlists => service.playlists.toJson
  | .cursors => service.cursors.toJson
  | .history => History.toJson service.history
  | .flags list => Flags.toJson (service.flags list)

/-- The service with the store of a file as the file holds it. Playlists are repaired, and cursors
that point at no track are reset. -/
def load? (service : Service) (file : StoreFile) (source : Json.Source) : Option Service :=
  match file with
  | .playlists => do
    return { service with playlists := ← Json.Decoder.run Playlist.Store.decoder source }
  | .cursors => do
    let cursors ← Json.Decoder.run Cursor.Store.decoder source
    return { service with cursors := cursors.validated service.catalog service.anchor }
  | .history => do return { service with history := ← Json.Decoder.run History.decoder source }
  | .flags list => do return service.withFlags list (← Json.Decoder.run Flags.decoder source)

/-- Restores the stores of some files, given what reading a file gives. -/
def restoreFiles (read : StoreFile → Except Error (Option Json.Source)) :
    Service → List StoreFile → Service × Except Error Unit
  | service, [] => (service, .ok ())
  | service, file :: rest =>
    match read file with
    | .error e => (service, .error e)
    | .ok none => restoreFiles read service rest
    | .ok (some source) =>
      match service.load? file source with
      | some service => restoreFiles read service rest
      | none => (service, .error .undecodable)

/-- Restores all stores. Those before a file that cannot be read stay restored. -/
def restore (service : Service) (read : StoreFile → Except Error (Option Json.Source)) :
    Service × Except Error Unit :=
  restoreFiles read service StoreFile.all

end Service

end Jukebox
