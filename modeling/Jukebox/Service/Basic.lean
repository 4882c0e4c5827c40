import Jukebox.Catalog.Codec
import Jukebox.Cursor.Codec
import Jukebox.Players
import Jukebox.Playlist.Codec

/-!
The state that all connections share: the catalog, the anchor below which cursors move, the
players, and what is stored by name or by path.
-/

namespace Jukebox

/-- The shared state. -/
structure Service where
  catalog : Catalog
  anchor : Path
  players : Players := ∅
  playlists : Playlist.Store := ∅
  cursors : Cursor.Store := ∅
  favourites : Flags := ∅
  checklist : Flags := ∅
  history : History := []

namespace Service

/-- The state of a service that was just started, with the collection below which cursors move. -/
def start (catalog : Catalog) (anchor : Key) : Service :=
  { catalog, anchor := Path.ofCollection anchor }

/-- The flags of a list. -/
def flags (service : Service) : FlagList → Flags
  | .favourite => service.favourites
  | .checklist => service.checklist

/-- The service with other flags in a list. -/
def withFlags (service : Service) (list : FlagList) (flags : Flags) : Service :=
  match list with
  | .favourite => { service with favourites := flags }
  | .checklist => { service with checklist := flags }

/-- Sets or clears a flag, and reports it if it was different before. -/
def setFlag (service : Service) (list : FlagList) (path : Path) (value : Bool) :
    Service × List Event :=
  (service.withFlags list ((service.flags list).assign path value),
    if (service.flags list).contains path = value then [] else [.flagChanged list path value])

def recordPlay (service : Service) (play : Play) : Service × List Event :=
  ({ service with history := service.history ++ [play] }, [.playRecorded play.path play.playedAt])

/-- A view with the marks of the two lists. -/
def mark (service : Service) (view : GroupView) : GroupView :=
  view.mark (service.favourites.contains ·) (service.checklist.contains ·)

/-- The children of the anchor with a flagged path at or below them. -/
def flaggedRoots (service : Service) (list : FlagList) : List Path :=
  (service.catalog.childPaths service.anchor).filter (service.flags list).anyUnder

/-- Performs an action on a named playlist. -/
def applyPlaylist (service : Service) (fresh : Uuid) (name : String) (action : Playlist.Action) :
    Outcome Service Playlist.Snapshot :=
  let outcome := service.playlists.apply service.catalog fresh name action
  ⟨{ service with playlists := outcome.store }, outcome.answer, outcome.events⟩

/-- Performs an action on a named cursor. It follows the playlist of its own name. -/
def applyCursor (service : Service) (name : String) (action : Cursor.Action) :
    Outcome Service Cursor.Snapshot :=
  let outcome := service.cursors.apply service.catalog service.anchor
    (service.playlists.currentPath? name) name action
  ⟨{ service with cursors := outcome.store }, outcome.answer, outcome.events⟩

end Service

end Jukebox
