import Jukebox.Cursor.Store
import Jukebox.Playlist.Store
import Jukebox.Protocol.Fields
import Jukebox.Protocol.Message

/-!
Commands. A text frame holds an envelope; the action of the envelope says which fields its data
have to have. What is done with a command never looks at its data again.
-/

namespace Jukebox.Protocol

/-- The actions of the protocol. -/
inductive Tag where
  | key
  | player
  | recordPlay
  | setFavourite
  | setChecklist
  | playlist
  | cursor
  | fetch
  | search
  | filterList
  | filterPaths
  | fetchPathList
deriving DecidableEq, Repr

namespace Tag

def name : Tag → String
  | key => "KEY"
  | player => "PLAYER"
  | recordPlay => "RECORD_PLAY"
  | setFavourite => "SET_FAVOURITE"
  | setChecklist => "SET_CHECKLIST"
  | playlist => "PLAYLIST"
  | cursor => "CURSOR"
  | fetch => "FETCH"
  | search => "SEARCH"
  | filterList => "FILTER_LIST"
  | filterPaths => "FILTER_PATHS"
  | fetchPathList => "FETCH_PATHLIST"

def all : List Tag :=
  [key, player, recordPlay, setFavourite, setChecklist, playlist, cursor, fetch, search, filterList,
    filterPaths, fetchPathList]

/-- The action of a name. -/
def ofName? (name : String) : Option Tag := all.find? (·.name = name)

end Tag

inductive Command where
  /-- Registers the connection as the player of a key; the empty key takes it off. -/
  | key (key : String)
  /-- Lists the keys of the players. -/
  | players
  /-- Passes an action on to a player. -/
  | forward (key : String) (action : PlayerAction)
  /-- Records a play. -/
  | recordPlay (path : Path)
  /-- Sets or clears a flag. -/
  | setFlag (list : FlagList) (path : Path) (value : Bool)
  /-- Acts on a playlist. -/
  | playlist (name : String) (action : Playlist.Action)
  /-- Acts on a cursor. -/
  | cursor (name : String) (action : Cursor.Action)
  /-- Shows a group. -/
  | fetch (path : Path)
  /-- Searches for words. -/
  | search (input : String)
  /-- Lists the entries of a filter. -/
  | filterList (name : String)
  /-- Shows the groups of an entry of a filter. -/
  | filterPaths (name : String) (path : Path)
  /-- Shows the groups of a list of paths. -/
  | fetchPathList (name : String)
deriving DecidableEq

namespace Command

/-- The action that the response to a command carries. -/
def tag : Command → Tag
  | key _ => .key
  | players | forward .. => .player
  | recordPlay _ => .recordPlay
  | setFlag .favourite .. => .setFavourite
  | setFlag .checklist .. => .setChecklist
  | playlist .. => .playlist
  | cursor .. => .cursor
  | fetch _ => .fetch
  | search _ => .search
  | filterList _ => .filterList
  | filterPaths .. => .filterPaths
  | fetchPathList _ => .fetchPathList

/-- Reads the command to a player. -/
def ofPlayerFields (fields : Fields) : Except Failure Command := do
  let action ← fields.string "action"
  if action = "LIST" then return players
  return forward (← fields.string "key") ⟨action, fields.optional "value"⟩

/-- Reads the action on a playlist. -/
def playlistAction (fields : Fields) : Except Failure Playlist.Action := do
  match ← fields.string "action" with
  | "FETCH" => return .fetch
  | "APPEND" => return .append (← fields.path "path")
  | "PLAY_NOW" => return .playNow (← fields.path "path")
  | "REMOVE" =>
    let index ← fields.optionalIndex "index"
    return .remove (index.getD 0) (← fields.path "path")
  | "PLAY_ITEM" => return .playItem (← fields.index "index") (← fields.path "path")
  | "NEXT" => return .next
  | "PREV" => return .prev
  | "CLEAR" => return .clear
  | verb => throw (.malformed (.playlistVerb verb))

/-- Reads the action on a cursor, without the index. -/
def cursorVerb (fields : Fields) : Except Failure Cursor.Action := do
  match ← fields.string "action" with
  | "FETCH" => return .fetch
  | "SET" => return .set (← fields.path "path")
  | "NEXT" => return .next
  | "PREV" => return .prev
  | "RESET" => return .reset
  | "FOLLOW" => return .follow
  | verb => throw (.malformed (.cursorVerb verb))

/-- Reads the action on a cursor. An index may be given, but means nothing. -/
def cursorAction (fields : Fields) : Except Failure Cursor.Action := do
  let action ← cursorVerb fields
  discard (fields.optionalIndex "index")
  return action

/-- Reads the command of an action from the fields that it needs. -/
def ofFields (fields : Fields) : Tag → Except Failure Command
  | .key => return key (← fields.string "key")
  | .player => ofPlayerFields fields
  | .recordPlay => return recordPlay (← fields.path "path")
  | .setFavourite => return setFlag .favourite (← fields.path "path") (← fields.bool "value")
  | .setChecklist => return setFlag .checklist (← fields.path "path") (← fields.bool "value")
  | .playlist => return playlist (← fields.string "name") (← playlistAction fields)
  | .cursor => return cursor (← fields.string "name") (← cursorAction fields)
  | .fetch => return fetch (← fields.path "path")
  | .search => return search (← fields.string "input")
  | .filterList => return filterList (← fields.string "name")
  | .filterPaths => return filterPaths (← fields.string "name") (← fields.path "path")
  | .fetchPathList => return fetchPathList (← fields.string "name")

/-- The command of an envelope. -/
def ofEnvelope (envelope : Envelope) : Except Failure Command :=
  match Tag.ofName? envelope.action with
  | some tag => ofFields envelope.data tag
  | none => .error (.unknownAction envelope.action)

/-- The command of a text frame. -/
def ofText (text : String) : Except Failure Command :=
  match Json.Decoder.runText Envelope.decoder text with
  | some envelope => ofEnvelope envelope
  | none => .error (.malformed .frame)

end Command

end Jukebox.Protocol
