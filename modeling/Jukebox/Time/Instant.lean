import Jukebox.Json.Decoder
import Jukebox.Text.Blank
import Jukebox.Text.Reader
import Jukebox.Time.Date

/-!
Points in time and their RFC 3339 texts. Reading is lenient about blanks, letter case and the
number of digits; a time is always written in UTC.
-/

namespace Jukebox.Time

open Text (Reader)

/-- A point in time in UTC. The second is 60 within a leap second. -/
structure Instant where
  date : Date
  minuteOfDay : Nat
  second : Nat
  nanosecond : Nat
  valid : date.isValid ∧ minuteOfDay < 1440 ∧ second ≤ 60 ∧ nanosecond < 1000000000
deriving DecidableEq, Repr

namespace Instant

/-- The point in time of its parts, if there is one. -/
def ofParts? (date : Date) (minuteOfDay second nanosecond : Nat) : Option Instant :=
  if valid : date.isValid ∧ minuteOfDay < 1440 ∧ second ≤ 60 ∧ nanosecond < 1000000000 then
    some ⟨date, minuteOfDay, second, nanosecond, valid⟩
  else none

/-! ### Writing -/

/-- The fraction of a second with the fewest groups of three digits. -/
def fractionText (nanosecond : Nat) : String :=
  if nanosecond = 0 then ""
  else if nanosecond % 1000000 = 0 then "." ++ Text.decimal 3 (nanosecond / 1000000)
  else if nanosecond % 1000 = 0 then "." ++ Text.decimal 6 (nanosecond / 1000)
  else "." ++ Text.decimal 9 nanosecond

/-- The text of a point in time. -/
def text (time : Instant) : String :=
  time.date.text ++ "T" ++ Text.decimal 2 (time.minuteOfDay / 60) ++ ":" ++
    Text.decimal 2 (time.minuteOfDay % 60) ++ ":" ++ Text.decimal 2 time.second ++
    fractionText time.nanosecond ++ "Z"

/-! ### Reading -/

/-- Passes over blanks. -/
def skipBlanks : Reader Unit := discard (Reader.run Text.isBlank)

/-- Reads as many digits as follow, at least one and at most `limit`. -/
def digits (limit : Nat) : Reader (List Char) := do
  let rest ← get
  let digits := (rest.take limit).takeWhile Char.isDigit
  if digits.isEmpty then failure
  set (rest.drop digits.length)
  return digits

/-- Reads a number of at most `limit` digits after blanks. -/
def number (limit : Nat) : Reader Nat := do
  skipBlanks
  return Nat.ofDigitChars 10 (← digits limit) 0

/-- Reads a year: up to four digits, or a sign and any number of digits. -/
def year : Reader Int := do
  skipBlanks
  match ← get with
  | '-' :: rest => set rest; return -(Nat.ofDigitChars 10 (← digits rest.length) 0)
  | '+' :: rest => set rest; return Nat.ofDigitChars 10 (← digits rest.length) 0
  | _ => return Nat.ofDigitChars 10 (← digits 4) 0

/-- Passes over a mark that blanks may precede. -/
def mark (c : Char) : Reader Unit := do
  skipBlanks
  Reader.char c

/-- Reads a fraction of a second in nanoseconds, if there is one. Digits after the ninth do not
count. -/
def fraction : Reader Nat := do
  match ← get with
  | '.' :: rest =>
    set rest
    let digits ← digits 9
    discard (Reader.run Char.isDigit)
    return Nat.ofDigitChars 10 (digits ++ List.replicate (9 - digits.length) '0') 0
  | _ => return 0

/-- Reads exactly two digits. -/
def twoDigits : Reader Nat := return Nat.ofDigitChars 10 (← Reader.exactly 2 Char.isDigit) 0

/-- Reads the hours and minutes of an offset, in minutes. -/
def clockOffset : Reader Nat := do
  let hours ← twoDigits
  discard (Reader.run fun c => c == ':' || Text.isBlank c)
  let minutes ← twoDigits
  if minutes < 60 then return 60 * hours + minutes else failure

/-- Reads the offset from UTC in minutes: a word for UTC itself, or a sign, hours and minutes. -/
def offset : Reader Int := do
  match ← get with
  | u :: t :: c :: rest =>
    if [u, t, c].map Char.toUpper = ['U', 'T', 'C'] then do set rest; return 0
    else match u with
      | 'Z' | 'z' => set (t :: c :: rest); return 0
      | '+' => set (t :: c :: rest); return (← clockOffset)
      | '-' | '−' => set (t :: c :: rest); return -(← clockOffset)
      | _ => failure
  | 'Z' :: rest | 'z' :: rest => set rest; return 0
  | _ => failure

/-- The UTC time of a time of the day at an offset of less than a day. -/
def toUtc (date : Date) (minuteOfDay : Nat) (offset : Int) : Date × Nat :=
  let minute := (minuteOfDay : Int) - offset
  if minute < 0 then (date.previous, (minute + 1440).toNat)
  else if minute < 1440 then (date, minute.toNat)
  else (date.next, (minute - 1440).toNat)

/-- Reads a date, the time of the day and the offset from UTC. -/
def reader : Reader Instant := do
  let year ← year
  mark '-'
  let month ← number 2
  mark '-'
  let day ← number 2
  discard (Reader.one fun c => c == 'T' || c == 't' || c == ' ')
  let hour ← number 2
  mark ':'
  let minute ← number 2
  mark ':'
  let second ← number 2
  let nanosecond ← fraction
  skipBlanks
  let offset ← offset
  skipBlanks
  let there : Date := ⟨year, month, day⟩
  if hour < 24 && minute < 60 && offset.natAbs < 1440 && there.isValid then
    let (date, minuteOfDay) := toUtc there (60 * hour + minute) offset
    ofParts? date minuteOfDay second nanosecond
  else failure

/-- Reads the text of a point in time. -/
def ofText? (text : String) : Option Instant := reader.whole? text.toList

def decoder : Json.Decoder Instant := fun depth source => do
  ofText? (← Json.Decoder.string depth source)

def toJson (time : Instant) : Json := .string time.text

end Instant

end Jukebox.Time
