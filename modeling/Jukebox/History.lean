import Jukebox.Path.Codec
import Jukebox.Time.Instant

/-!
The history of plays, oldest first.
-/

namespace Jukebox

/-- A play: what was played, and when. -/
structure Play where
  path : Path
  playedAt : Time.Instant
deriving DecidableEq, Repr

namespace Play

def decoder : Json.Decoder Play := fun depth source => do
  let (depth, [some path, some playedAt]) ←
    Json.Decoder.record [⟨["Path"], .error⟩, ⟨["PlayedAt"], .error⟩] depth source | none
  return ⟨← Path.decoder depth path, ← Time.Instant.decoder depth playedAt⟩

def toJson (play : Play) : Json :=
  .object [("Path", play.path.toJson), ("PlayedAt", play.playedAt.toJson)]

end Play

/-- The plays, oldest first. -/
abbrev History := List Play

namespace History

def decoder : Json.Decoder History := .list Play.decoder

def toJson (history : History) : Json := .list Play.toJson history

end History

end Jukebox
