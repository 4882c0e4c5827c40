import Jukebox.Path

/-!
What can go wrong below the protocol: each cause with what it is about, the kind it belongs to and
the text that reports it.
-/

namespace Jukebox

/-- The kinds of errors. -/
inductive Error.Kind where
  /-- A name, path or key that addresses nothing. -/
  | unknownEntity
  /-- A node of the catalog that is missing or of no kind. -/
  | catalogInconsistency
  /-- An operation that the present state does not allow. -/
  | invalidState
  /-- A library that is no forest of groups. -/
  | invalidInput
  /-- A file that cannot be read or written. -/
  | io
  /-- A text that is not the JSON of what is read from it. -/
  | json
deriving DecidableEq, Repr

/-- What went wrong. -/
inductive Error where
  /-- No node has the path. -/
  | unknownPath (path : Path)
  /-- The empty path was asked for. -/
  | emptyPath
  /-- No collection has the key. -/
  | unknownCollection (key : Key)
  /-- The path does not lead below the root. -/
  | notUnder (path root : Path)
  /-- The path does not lead to a track. -/
  | notTrack (path : Path)
  /-- The path does not lead below the root of a playlist item. -/
  | notBelowItem (path root : Path)
  /-- The playlist item holds nothing at or below the path. -/
  | notInItem (path root : Path)
  /-- The playlist has no item at the index. -/
  | unknownItem (index : Nat)
  /-- The name of a playlist is empty. -/
  | emptyPlaylistName
  /-- The name of a cursor is empty. -/
  | emptyCursorName
  /-- No player has the key. -/
  | unknownPlayer (key : String)
  /-- No filter has the name. -/
  | unknownFilter (name : String)
  /-- The filter has no item of the name. -/
  | unknownFilterItem (name : String)
  /-- A listed child is not in the catalog. -/
  | missingNode (path : Path)
  /-- A node has neither children nor tracks. -/
  | barrenNode (path : Path)
  /-- A node has both children and tracks. -/
  | mixedNode (path : Path)
  /-- A node is in the catalog, but its parent does not list it. -/
  | unlistedNode (path : Path)
  /-- The item of the playlist does not hold the track. -/
  | trackNotInItem (path : Path) (index : Nat)
  /-- The connection of the player takes no more messages. -/
  | playerDisconnected (key : String)
  /-- Two collections of a library have one key. -/
  | duplicateCollection (key : Key)
  /-- A node of a library has both groups and tracks. -/
  | groupsAndTracks (path : Path)
  /-- Two groups of one node have one key. -/
  | duplicateKey (key : Key) (path : Path)
  /-- A file cannot be read or written. -/
  | unreadable
  /-- A text is not the JSON of what is read from it. -/
  | undecodable
deriving DecidableEq, Repr

namespace Error

/-- The kind of an error. -/
def kind : Error → Kind
  | unknownPath _ | emptyPath | unknownCollection _ | notUnder .. | notTrack _ | notBelowItem ..
  | notInItem .. | unknownItem _ | emptyPlaylistName | emptyCursorName | unknownPlayer _
  | unknownFilter _ | unknownFilterItem _ => .unknownEntity
  | missingNode _ | barrenNode _ | mixedNode _ | unlistedNode _ => .catalogInconsistency
  | trackNotInItem .. | playerDisconnected _ => .invalidState
  | duplicateCollection _ | groupsAndTracks _ | duplicateKey .. => .invalidInput
  | unreadable => .io
  | undecodable => .json

/-- The report of an error; what the system or a text format has to say is not reported here. -/
def message? : Error → Option String
  | unknownPath path => "invalid path: " ++ path.display
  | emptyPath => "invalid path: empty"
  | unknownCollection key => "unknown collection: " ++ key
  | notUnder path root => "path " ++ path.display ++ " is not a track under " ++ root.display
  | notTrack path => "path " ++ path.display ++ " is not a track"
  | notBelowItem path root =>
    "path " ++ path.display ++ " is not below playlist item root " ++ root.display
  | notInItem path root => "path " ++ path.display ++ " is not in playlist item " ++ root.display
  | unknownItem index => "invalid playlist item index: " ++ toString index
  | emptyPlaylistName => "empty playlist name"
  | emptyCursorName => "empty cursor name"
  | unknownPlayer key => "invalid player key: " ++ key
  | unknownFilter name => "invalid filter name: " ++ name
  | unknownFilterItem name => "invalid filter item: " ++ name
  | missingNode path => "listed node " ++ path.display ++ " is missing from the catalog"
  | barrenNode path => "node " ++ path.display ++ " has neither children nor tracks"
  | mixedNode path => "node " ++ path.display ++ " has both children and tracks"
  | unlistedNode path => path.display ++ " is not listed under its parent"
  | trackNotInItem path index =>
    "path " ++ path.display ++ " not found in playlist item " ++ toString index
  | playerDisconnected key => "player '" ++ key ++ "' is disconnected"
  | duplicateCollection key => "duplicate collection: " ++ key
  | groupsAndTracks path => "node " ++ path.display ++ " has both groups and tracks"
  | duplicateKey key path => "duplicate key " ++ key ++ " under " ++ path.display
  | unreadable | undecodable => none

end Error

end Jukebox
