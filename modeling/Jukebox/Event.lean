import Jukebox.Error
import Jukebox.Flags
import Jukebox.History

/-!
Changes of what is stored, as they are reported to whoever follows them.
-/

namespace Jukebox

inductive Event where
  | playlistChanged (name : String)
  | cursorChanged (name : String)
  | flagChanged (list : FlagList) (path : Path) (value : Bool)
  | playRecorded (path : Path) (playedAt : Time.Instant)
deriving DecidableEq, Repr

def Event.toJson : Event → Json
  | playlistChanged name =>
    .object [("type", .string "PlaylistChanged"), ("name", .string name)]
  | cursorChanged name => .object [("type", .string "CursorChanged"), ("name", .string name)]
  | flagChanged list path value => .object [
      ("type", .string "FlagChanged"), ("list", .string list.name), ("path", path.toJson),
      ("value", .bool value)]
  | playRecorded path playedAt => .object [
      ("type", .string "PlayRecorded"), ("path", path.toJson), ("played_at", playedAt.toJson)]

/-- What an operation on a store leaves: the store, its answer, and the changes to report. -/
structure Outcome (σ α : Type) where
  store : σ
  answer : Except Error α
  events : List Event

end Jukebox
