import Jukebox.Playlist.Item

/-!
Playlists: a row of items and the position that is played. A position names an item and one of its
tracks by their indices.
-/

namespace Jukebox

/-- A track of a playlist: the index of its item and its index in the item. -/
structure Playlist.Position where
  item : Nat
  track : Nat
deriving DecidableEq, Repr

structure Playlist where
  items : List Playlist.Item := []
  current : Option Playlist.Position := none

namespace Playlist

def trackAt? (playlist : Playlist) (position : Position) : Option Path := do
  (← playlist.items[position.item]?).tracks[position.track]?

def currentPath? (playlist : Playlist) : Option Path := playlist.current.bind playlist.trackAt?

/-- The number of tracks of the item at an index. -/
def trackCount (playlist : Playlist) (index : Nat) : Nat :=
  match playlist.items[index]? with
  | some item => item.tracks.length
  | none => 0

/-! ### Adding -/

/-- Adds an item at the end, unless it holds no tracks. -/
def append (playlist : Playlist) (item : Item) : Playlist :=
  if item.isEmpty then playlist else { playlist with items := playlist.items ++ [item] }

/-- Puts an item behind the current one, or at the front if there is none, and makes its first
track the current one. An item that holds no tracks is left out. -/
def playNow (playlist : Playlist) (item : Item) : Playlist :=
  if item.isEmpty then playlist else
  let index := match playlist.current with
    | some position => position.item + 1
    | none => 0
  { items := playlist.items.take index ++ item :: playlist.items.drop index
    current := some ⟨index, 0⟩ }

/-! ### Moving -/

def nextPosition? (playlist : Playlist) : Option Position :=
  match playlist.current with
  | none => if playlist.items.isEmpty then none else some ⟨0, 0⟩
  | some ⟨item, track⟩ =>
    if track + 1 < playlist.trackCount item then some ⟨item, track + 1⟩
    else if item + 1 < playlist.items.length then some ⟨item + 1, 0⟩
    else none

/-- The position before the current one; the first track stays where it is. -/
def prevPosition? (playlist : Playlist) : Option Position :=
  match playlist.current with
  | none => none
  | some ⟨item, track⟩ =>
    if 0 < track then some ⟨item, track - 1⟩
    else if 0 < item then some ⟨item - 1, playlist.trackCount (item - 1) - 1⟩
    else some ⟨item, track⟩

/-- Moves to the next track; after the last there is no current one. -/
def next (playlist : Playlist) : Playlist := { playlist with current := playlist.nextPosition? }

/-- Moves to the track before. -/
def prev (playlist : Playlist) : Playlist := { playlist with current := playlist.prevPosition? }

/-- Whether a move to the next track leads to one. -/
def canNext (playlist : Playlist) : Bool := playlist.nextPosition?.isSome

/-- Whether a move to the track before leads to another one. -/
def canPrev (playlist : Playlist) : Bool :=
  match playlist.current with
  | some ⟨item, track⟩ => 0 < item || 0 < track
  | none => false

/-- Makes a track of an item the current one. -/
def playItem (playlist : Playlist) (index : Nat) (path : Path) : Except Error Playlist :=
  match playlist.items[index]? with
  | none => .error (.unknownItem index)
  | some item =>
    match item.tracks.idxOf? path with
    | some track => .ok { playlist with current := some ⟨index, track⟩ }
    | none => .error (.trackNotInItem path index)

/-! ### Removing -/

/-- The playlist without items. -/
def clear (_ : Playlist) : Playlist := {}

/-- Removes a part of an item, or the item itself if the path is its root or no tracks are left.
There is no current track afterwards. -/
def remove (playlist : Playlist) (index : Nat) (path : Path) : Except Error Playlist :=
  match playlist.items[index]? with
  | none => .error (.unknownItem index)
  | some item =>
    if item.root = path then .ok { items := playlist.items.eraseIdx index }
    else do
      let pruned ← item.remove path
      if pruned.isEmpty then return { items := playlist.items.eraseIdx index }
      return { items := playlist.items.set index pruned }

/-- Drops the items that hold no tracks. There is a current track afterwards only if none was
dropped and the position leads to a track. -/
def repair (playlist : Playlist) : Playlist :=
  let items := playlist.items.filter fun item => !item.isEmpty
  if items.length = playlist.items.length ∧ playlist.currentPath?.isSome then playlist
  else { items }

/-- Whether a repair changes the playlist. -/
def needsRepair (playlist : Playlist) : Bool :=
  playlist.items.any Item.isEmpty ||
    (playlist.current.isSome && playlist.currentPath?.isNone)

end Playlist

end Jukebox
