import Jukebox.Json.Decoder
import Jukebox.Text.Numeral

/-!
128-bit identifiers and their texts: five groups of hexadecimal digits between hyphens.
-/

namespace Jukebox

/-- A 128-bit identifier. -/
structure Uuid where
  value : BitVec 128
deriving DecidableEq, Repr

namespace Uuid

/-- The hexadecimal digits between hyphens, in groups of 8, 4, 4, 4 and 12. -/
def hyphenate (digits : List Char) : List Char :=
  digits.take 8 ++ '-' :: (digits.drop 8).take 4 ++ '-' :: (digits.drop 12).take 4 ++
    '-' :: (digits.drop 16).take 4 ++ '-' :: digits.drop 20

/-- The text of an identifier, in lower case. -/
def text (id : Uuid) : String :=
  String.ofList (hyphenate (Text.hexadecimal 32 id.value.toNat).toList)

/-- The identifier that 32 hexadecimal digits write. -/
def ofDigits? (digits : List Char) : Option Uuid :=
  if digits.length = 32 then (Text.hexadecimal? digits).map fun n => ⟨BitVec.ofNat 128 n⟩ else none

/-- The identifier that a hyphenated text writes. -/
def ofHyphenated? (text : List Char) : Option Uuid :=
  let digits := text.filter (· ≠ '-')
  if hyphenate digits = text then ofDigits? digits else none

/-- The scheme before an identifier that is written as a name. -/
def scheme : List Char := "urn:uuid:".toList

/-- The text between braces, or after the scheme, whose case does not matter; any other text stays
as it is. -/
def unwrap (text : List Char) : List Char :=
  if text.head? = some '\x7b' ∧ text.getLast? = some '\x7d' then text.tail.dropLast
  else if (text.take scheme.length).map Char.toLower = scheme then text.drop scheme.length
  else text

/-- Reads the text of an identifier: hyphenated, alone or wrapped, or the plain digits. -/
def ofText? (text : String) : Option Uuid :=
  let chars := text.toList
  if chars.length = 32 then ofDigits? chars else ofHyphenated? (unwrap chars)

def decoder : Json.Decoder Uuid := fun depth source => do
  ofText? (← Json.Decoder.string depth source)

def toJson (id : Uuid) : Json := .string id.text

end Uuid

end Jukebox
