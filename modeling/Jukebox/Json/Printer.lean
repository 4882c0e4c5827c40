import Jukebox.Json.Basic
import Jukebox.Binary64.Shortest
import Jukebox.Text.Numeral

/-!
The text of a JSON value: compact, or with one part to a line and two spaces for each level.
-/

namespace Jukebox.Json

def Number.text : Number → String
  | .integer value => toString value
  | .real value => value.text

/-- A character inside a string literal. Only quotes, backslashes and control characters are
escaped. -/
def escape (c : Char) : String :=
  if c = '"' then "\\\""
  else if c = '\\' then "\\\\"
  else if c = '\x08' then "\\b"
  else if c = '\x0c' then "\\f"
  else if c = '\n' then "\\n"
  else if c = '\r' then "\\r"
  else if c = '\t' then "\\t"
  else if c.toNat < 0x20 then "\\u" ++ Text.hexadecimal 4 c.toNat
  else c.toString

/-- A string literal. -/
def quote (s : String) : String :=
  "\"" ++ s.toList.foldl (fun text c => text ++ escape c) "" ++ "\""

/-- Parts between brackets, separated by commas; the parts of the pretty layout stand on lines of
their own. -/
def bracket (opening closing : String) (indent : Option Nat) (parts : List String) : String :=
  if parts.isEmpty then opening ++ closing
  else match indent with
    | none => opening ++ ",".intercalate parts ++ closing
    | some level =>
      let line := "\n" ++ "".pushn ' ' (2 * level)
      opening ++ line ++ "  " ++ ("," ++ line ++ "  ").intercalate parts ++ line ++ closing

mutual

/-- The text of a value; `indent` is the level of the pretty layout, or none for the compact one. -/
def write (indent : Option Nat) : Json → String
  | null => "null"
  | bool true => "true"
  | bool false => "false"
  | number n => n.text
  | string s => quote s
  | array items => bracket "[" "]" indent (writeItems (indent.map (· + 1)) items)
  | object members =>
    bracket "\x7b" "\x7d" indent (writeMembers (indent.map (· + 1)) members)

def writeItems (indent : Option Nat) : List Json → List String
  | [] => []
  | item :: rest => write indent item :: writeItems indent rest

/-- The texts of the members, each a name and a value. -/
def writeMembers (indent : Option Nat) : List (String × Json) → List String
  | [] => []
  | (name, value) :: rest =>
    (quote name ++ (if indent.isSome then ": " else ":") ++ write indent value) ::
      writeMembers indent rest

end

/-- The text without spaces or line breaks. -/
def compact (value : Json) : String := value.write none

/-- The text with one part to a line. -/
def pretty (value : Json) : String := value.write (some 0)

end Jukebox.Json
