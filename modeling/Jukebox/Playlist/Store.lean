import Jukebox.Event
import Jukebox.Playlist.Basic

/-!
The named playlists. Every action on a playlist answers with the playlist as it is afterwards, and
reports a change unless it only reads.
-/

namespace Jukebox.Playlist

/-- The current track of a playlist: its position and its path. -/
structure CurrentTrack where
  position : Position
  path : Path
deriving DecidableEq, Repr

/-- A playlist as it is shown. -/
structure Snapshot where
  name : String
  items : List Item
  current : Option CurrentTrack
  canNext : Bool
  canPrev : Bool

/-- A playlist under its name. -/
def snapshot (playlist : Playlist) (name : String) : Snapshot where
  name := name
  items := playlist.items
  current := do
    let position ← playlist.current
    return ⟨position, ← playlist.trackAt? position⟩
  canNext := playlist.canNext
  canPrev := playlist.canPrev

/-- What can be asked of a named playlist. -/
inductive Action where
  | fetch
  | append (path : Path)
  | playNow (path : Path)
  | remove (index : Nat) (path : Path)
  | playItem (index : Nat) (path : Path)
  | next
  | prev
  | clear
deriving DecidableEq, Repr

def Action.verb : Action → String
  | fetch => "FETCH"
  | append _ => "APPEND"
  | playNow _ => "PLAY_NOW"
  | remove .. => "REMOVE"
  | playItem .. => "PLAY_ITEM"
  | next => "NEXT"
  | prev => "PREV"
  | clear => "CLEAR"

/-- The playlists by name. -/
abbrev Store := Std.ExtTreeMap String Playlist

namespace Store

/-- The playlist of a name; a name that is not stored means the playlist without items. -/
def playlist (store : Store) (name : String) : Playlist := store.getD name {}

/-- The snapshot of a playlist. -/
def get (store : Store) (name : String) : Except Error Snapshot :=
  if name.isEmpty then .error .emptyPlaylistName else .ok ((store.playlist name).snapshot name)

def currentPath? (store : Store) (name : String) : Option Path := (store.playlist name).currentPath?

/-- Edits a playlist. A playlist that is to be edited is stored from then on, without items if it
is new and the edit fails. -/
def edit (store : Store) (name : String) (change : Playlist → Except Error Playlist) :
    Outcome Store Snapshot :=
  let playlist := store.playlist name
  match change playlist with
  | .ok changed => ⟨store.insert name changed, .ok (changed.snapshot name), [.playlistChanged name]⟩
  | .error e => ⟨store.insert name playlist, .error e, []⟩

/-- Edits a playlist with the item of a subtree of the catalog. A path that cannot be expanded
leaves the store as it is. -/
def editWith (store : Store) (catalog : Catalog) (fresh : Uuid) (name : String) (path : Path)
    (change : Playlist → Item → Playlist) : Outcome Store Snapshot :=
  match Item.expand catalog fresh path with
  | .ok item => store.edit name fun playlist => .ok (change playlist item)
  | .error e => ⟨store, .error e, []⟩

/-- Performs an action on a named playlist; an item that it adds gets the fresh identifier. -/
def apply (store : Store) (catalog : Catalog) (fresh : Uuid) (name : String) (action : Action) :
    Outcome Store Snapshot :=
  if name.isEmpty then ⟨store, .error .emptyPlaylistName, []⟩ else
  match action with
  | .fetch => ⟨store, store.get name, []⟩
  | .append path => store.editWith catalog fresh name path Playlist.append
  | .playNow path => store.editWith catalog fresh name path Playlist.playNow
  | .remove index path => store.edit name (·.remove index path)
  | .playItem index path => store.edit name (·.playItem index path)
  | .next => store.edit name fun playlist => .ok playlist.next
  | .prev => store.edit name fun playlist => .ok playlist.prev
  | .clear => store.edit name fun playlist => .ok playlist.clear

/-- The store with every playlist repaired, as it is after it was read from a file. -/
def repaired (store : Store) : Store := store.map fun _ playlist => playlist.repair

end Store

end Jukebox.Playlist
