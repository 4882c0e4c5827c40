import Std.Data.ExtTreeMap
import Jukebox.Error
import Jukebox.Protocol.Message

/-!
The players: keys that connections have registered, each with the connection that owns it and the
inbox that takes what the player is asked to do. A connection takes a key off only while it owns
it, so that a key which another one has taken over stays.
-/

namespace Jukebox

/-- A registered player. -/
structure Player where
  owner : Nat
  inbox : Nat
deriving DecidableEq, Repr

abbrev Players := Std.ExtTreeMap String Player

namespace Players

/-- Registers a player; one that has the key already gives way. -/
def add (players : Players) (key : String) (player : Player) : Players := players.insert key player

/-- Takes a key off, whoever owns it. -/
def remove (players : Players) (key : String) : Players := players.erase key

def isOwned (players : Players) (owner : Nat) (key : String) : Bool :=
  match players[key]? with
  | some player => player.owner = owner
  | none => false

/-- Takes a key off if a connection owns it. -/
def removeOwned (players : Players) (owner : Nat) (key : String) : Players :=
  if players.isOwned owner key then players.erase key else players

/-- Takes the previous key of a connection off, if it still owns it, and registers another player
for it, if there is one. -/
def bind (players : Players) (owner : Nat) (previous : String) (next : Option (String × Nat)) :
    Players :=
  let players := players.removeOwned owner previous
  match next with
  | some (key, inbox) => players.add key ⟨owner, inbox⟩
  | none => players

/-- The keys in ascending order. -/
def list (players : Players) : List String := players.keys

/-- Passes an action on to a player: the inbox and the message for it. Only an open inbox takes
messages. -/
def forward (players : Players) (isOpen : Nat → Bool) (key : String)
    (action : Protocol.PlayerAction) : Except Error (Nat × Protocol.Response) :=
  match players[key]? with
  | none => .error (.unknownPlayer key)
  | some player =>
    if isOpen player.inbox then .ok (player.inbox, action.control key)
    else .error (.playerDisconnected key)

end Players

end Jukebox
