import Jukebox.Json.Basic
import Jukebox.Text.Numeral

/-!
Numbers as a JSON text writes them: an optional minus, an integer part without needless zeros,
an optional fraction, an optional exponent.
-/

namespace Jukebox.Json

/-- The parts of a written number. -/
structure Numeral where
  negative : Bool
  whole : List Char
  fraction : List Char
  /-- Whether a fraction or an exponent is written. -/
  isReal : Bool
  exponent : Int

namespace Numeral

/-- The integer part and what follows it: a single zero, or digits that do not start with one. -/
def whole? (text : List Char) : Option (List Char × List Char) :=
  match text with
  | '0' :: rest => some (['0'], rest)
  | _ =>
    let digits := text.takeWhile Char.isDigit
    if digits.isEmpty then none else some (digits, text.dropWhile Char.isDigit)

/-- The digits after the decimal point and what follows them. -/
def fraction? (text : List Char) : Option (List Char × List Char) :=
  match text with
  | '.' :: rest =>
    let digits := rest.takeWhile Char.isDigit
    if digits.isEmpty then none else some (digits, rest.dropWhile Char.isDigit)
  | _ => some ([], text)

/-- The exponent, which ends the number. -/
def exponent? : List Char → Option Int
  | [] => some 0
  | mark :: rest =>
    if mark = 'e' ∨ mark = 'E' then
      match rest with
      | '-' :: digits => (Text.decimal? digits).map fun n => -(n : Int)
      | '+' :: digits => (Text.decimal? digits).map fun n => (n : Int)
      | digits => (Text.decimal? digits).map fun n => (n : Int)
    else none

/-- Reads a whole number text. -/
def ofChars? (text : List Char) : Option Numeral := do
  let (negative, text) := match text with
    | '-' :: rest => (true, rest)
    | _ => (false, text)
  let (whole, afterWhole) ← whole? text
  let (fraction, afterFraction) ← fraction? afterWhole
  let exponent ← exponent? afterFraction
  some ⟨negative, whole, fraction, !afterWhole.isEmpty, exponent⟩

/-- The longest start of a run of digits that continues a number of 64 bits, the digits left
over, and the number. -/
def fitWord (value : Nat) : List Char → Nat × List Char
  | [] => (value, [])
  | c :: rest =>
    let next := 10 * value + (c.toNat - '0'.toNat)
    if next < UInt64.size then fitWord next rest else (value, c :: rest)

/-- The binary64 number that the numeral writes. Digits that do not fit a 64-bit significand
count by their place only. -/
def real? (n : Numeral) : Option Binary64 :=
  let (whole, unread) := fitWord 0 n.whole
  let (significand, left) := fitWord whole n.fraction
  let exponent := (unread.length : Int) + left.length - n.fraction.length
  Binary64.ofDecimal? n.negative significand (exponent + n.exponent)

/-- The number that the numeral writes: an integer if it has neither fraction nor exponent and
fits 64 bits, signed or unsigned, and is not a negative zero; else a binary64 number, if finite. -/
def number? (n : Numeral) : Option Number :=
  let value := Nat.ofDigitChars 10 n.whole 0
  if n.isReal then n.real?.map .real
  else if n.negative then
    if value = 0 ∨ UInt64.size < 2 * value then n.real?.map .real else some (.integer (-value))
  else if value < UInt64.size then some (.integer value)
  else n.real?.map .real

end Numeral

end Jukebox.Json
