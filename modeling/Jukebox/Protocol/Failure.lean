import Jukebox.Error
import Jukebox.Path.Codec

/-!
Why a session ends other than by the wish of its client.
-/

namespace Jukebox.Protocol

/-- Why a message is no command. -/
inductive Malformed where
  /-- The text is no envelope. -/
  | frame
  /-- The message is not text. -/
  | binary
  /-- The data lack a field. -/
  | missing (field : String)
  /-- A field is of another type. -/
  | mistyped (field : String) (expected : String) (found : Json)
  /-- A field is an array, but no path. -/
  | notPath (field : String) (reason : Path.Malformed)
  /-- No action on playlists has the verb. -/
  | playlistVerb (verb : String)
  /-- No action on cursors has the verb. -/
  | cursorVerb (verb : String)
deriving DecidableEq

/-- The text of the reason. -/
def Malformed.message : Malformed → String
  | frame => "invalid command frame"
  | binary => "binary frames are not supported"
  | missing field => "expected '" ++ field ++ "' in data map"
  | mistyped field expected found =>
    "expected '" ++ field ++ "' to be of type '" ++ expected ++ "', got '" ++ found.typeName ++ "'"
  | notPath field reason => "expected '" ++ field ++ "' to be a path: " ++ reason.message
  | playlistVerb verb => "unknown playlist action: " ++ verb
  | cursorVerb verb => "unknown cursor action: " ++ verb

/-- Why the connection itself failed. -/
inductive Disruption where
  /-- The other side takes no more messages. -/
  | writerGone
  /-- The stream of messages broke. -/
  | broken (message : String)
deriving DecidableEq

/-- The text of the reason. -/
def Disruption.message : Disruption → String
  | writerGone => "connection writer has gone away"
  | broken message => message

/-- Why a session ends. -/
inductive Failure where
  /-- A message is no command. -/
  | malformed (reason : Malformed)
  /-- No command has the action. -/
  | unknownAction (action : String)
  /-- The command cannot be carried out. -/
  | refused (error : Error)
  /-- The connection failed. -/
  | transport (reason : Disruption)
deriving DecidableEq

/-- Whether the client is to blame, and not the connection. -/
def Failure.isProtocol : Failure → Bool
  | malformed _ | unknownAction _ | refused _ => true
  | transport _ => false

/-- The report of a failure. -/
def Failure.message? : Failure → Option String
  | malformed reason => some reason.message
  | unknownAction action => some action
  | refused error => error.message?
  | transport reason => some reason.message

instance : Coe Error Failure := ⟨.refused⟩

end Jukebox.Protocol
