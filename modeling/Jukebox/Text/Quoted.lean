import Jukebox.Text.InvisibleTable
import Jukebox.Text.Numeral

/-!
Texts quoted inside a message: what cannot be seen is written by its code point.
-/

namespace Jukebox.Text

/-- Whether a character shows nothing of its own. -/
def isInvisible (c : Char) : Bool :=
  c.toNat < 0x20 || c.toNat == 0x7f ||
    (0x80 ≤ c.toNat && invisibleRanges.any fun (first, last) => first ≤ c.toNat && c.toNat ≤ last)

/-- A character inside a quoted text. -/
def quotedChar (c : Char) : String :=
  if c = '\x00' then "\\0"
  else if c = '\t' then "\\t"
  else if c = '\r' then "\\r"
  else if c = '\n' then "\\n"
  else if c = '"' then "\\\""
  else if c = '\\' then "\\\\"
  else if isInvisible c then "\\u\x7b" ++ hexadecimal 0 c.toNat ++ "\x7d"
  else c.toString

/-- The text between quotes. -/
def quoted (text : String) : String :=
  "\"" ++ text.toList.foldl (fun done c => done ++ quotedChar c) "" ++ "\""

end Jukebox.Text
