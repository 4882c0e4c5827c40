import Jukebox.Json.Decoder
import Jukebox.Json.Printer

/-!
The JSON messages of the protocol: the envelope of a command, the response to one, and the action
that is passed on to a player.
-/

namespace Jukebox.Protocol

open Json (Decoder)

/-- A command as received: its action and its data, sorted by name. -/
structure Envelope where
  action : String
  data : List (String × Json)

namespace Envelope

/-- Reads an envelope. Both names may be written small, and the data may be left out. -/
def decoder : Decoder Envelope := fun depth source => do
  let (depth, [some action, data]) ← Decoder.record
    [⟨["Action", "action"], .error⟩, ⟨["Data", "data"], .default⟩] depth source | none
  return ⟨← Decoder.string depth action, ← Decoder.orDefault .object [] depth data⟩

def toJson (envelope : Envelope) : Json :=
  .object [("Action", .string envelope.action), ("Data", .object envelope.data)]

end Envelope

/-- A response: the action it answers, and its data. -/
structure Response where
  action : String
  data : Json

namespace Response

/-- The response with the members of its data put in order. -/
def of (action : String) (data : Json) : Response := ⟨action, data.sorted⟩

def decoder : Decoder Response := fun depth source => do
  let (depth, [some action, some data]) ←
    Decoder.record [⟨["Action"], .error⟩, ⟨["Data"], .error⟩] depth source | none
  return ⟨← Decoder.string depth action, ← Decoder.value depth data⟩

def toJson (response : Response) : Json :=
  .object [("Action", .string response.action), ("Data", response.data)]

/-- The text that is sent. -/
def text (response : Response) : String := response.toJson.compact

end Response

/-- What a player is asked to do: any word, and perhaps a value. -/
structure PlayerAction where
  action : String
  value : Option Json
deriving DecidableEq

namespace PlayerAction

/-- Reads what a player is asked to do; `null` is no value. -/
def decoder : Decoder PlayerAction := fun depth source => do
  let (depth, [some action, value]) ←
    Decoder.record [⟨["Action"], .error⟩, ⟨["Value"], .default⟩] depth source | none
  return ⟨← Decoder.string depth action,
    ← Decoder.orDefault (.optional .value) none depth value⟩

def toJson (action : PlayerAction) : Json :=
  .object [("Action", .string action.action), ("Value", .optional id action.value)]

/-- The message that passes the action on to the player with a key. -/
def control (action : PlayerAction) (key : String) : Response := .of "CTRL" (.object [
  ("Key", .string key), ("Action", .string action.action), ("Value", .optional id action.value)])

end PlayerAction

end Jukebox.Protocol
