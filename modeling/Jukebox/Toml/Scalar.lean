import Jukebox.Binary64.Basic
import Jukebox.Text.Numeral
import Jukebox.Text.Reader
import Jukebox.Time.Date
import Jukebox.Toml.Basic

/-!
The scalars of a TOML text: strings of four kinds, integers in four bases, real numbers, truth
values and times.
-/

namespace Jukebox.Toml

open Text (Reader)

/-! ### Blanks and line ends -/

/-- Whether a character is a blank within a line. -/
def isBlank (c : Char) : Bool := c == ' ' || c == '\t'

/-- Whether a character may stand in a comment or in a string without escapes. -/
def isPlain (c : Char) : Bool := c == '\t' || (0x20 ≤ c.toNat && c.toNat != 0x7f)

/-- Passes over blanks. -/
def blanks : Reader Unit := discard (Reader.run isBlank)

/-- The end of a line. -/
def lineEnd : Reader Unit := Reader.char '\n' <|> Reader.word "\r\n"

def comment : Reader Unit := do
  Reader.char '#'
  discard (Reader.run isPlain)

/-- Passes over blanks, comments and line ends. -/
def blankLines : Reader Unit := do
  blanks
  discard (Reader.many (do discard (Reader.optional comment); lineEnd; blanks))

/-! ### Strings -/

/-- The character with a number that four or eight hexadecimal digits write. -/
def codePoint (width : Nat) : Reader Char := do
  let digits ← Reader.exactly width fun c => (Text.hexDigit? c).isSome
  match Text.hexadecimal? digits with
  | some n => if h : n.isValidChar then return Char.ofNatAux n h else failure
  | none => failure

/-- What follows a backslash. -/
def escape : Reader Char := do
  match ← Reader.one fun _ => true with
  | 'b' => return '\x08'
  | 't' => return '\t'
  | 'n' => return '\n'
  | 'f' => return '\x0c'
  | 'r' => return '\r'
  | '"' => return '"'
  | '\\' => return '\\'
  | 'u' => codePoint 4
  | 'U' => codePoint 8
  | _ => failure

/-- A character of a string between quotation marks. -/
def basicChar : Reader Char :=
  (do Reader.char '\\'; escape) <|> Reader.one fun c => isPlain c && c != '"' && c != '\\'

/-- A string between quotation marks. -/
def basicString : Reader String := do
  Reader.char '"'
  let chars ← Reader.many basicChar
  Reader.char '"'
  return String.ofList chars

/-- A string between apostrophes. -/
def literalString : Reader String := do
  Reader.char '\''
  let chars ← Reader.run fun c => isPlain c && c != '\''
  Reader.char '\''
  return String.ofList chars

/-- A line end of a string of several lines; it is always a line feed. -/
def lineFeed : Reader (List Char) := do lineEnd; return ['\n']

/-- A backslash at the end of a line; it takes the blanks and line ends that follow with it. -/
def continuation : Reader (List Char) := do
  Reader.char '\\'
  blanks
  lineEnd
  discard (Reader.many ((discard (Reader.run1 isBlank)) <|> lineEnd))
  return []

/-- One or two marks that do not belong to the end of a string of several lines. -/
def innerMarks (mark : Char) : Reader (List Char) := do
  let marks ← Reader.run1 (· == mark)
  if marks.length ≤ 2 then return marks else failure

/-- The end of a string of several lines, with at most two marks that still belong to it. -/
def closingMarks (mark : Char) : Reader (List Char) := do
  let marks ← Reader.run1 (· == mark)
  if 3 ≤ marks.length ∧ marks.length ≤ 5 then return marks.drop 3 else failure

/-- A string of several lines between three marks on either side. -/
def longString (mark : Char) (part : Reader (List Char)) : Reader String := do
  Reader.word (String.ofList [mark, mark, mark])
  discard (Reader.optional lineEnd)
  let parts ← Reader.many (part <|> innerMarks mark)
  return String.ofList (parts.flatten ++ (← closingMarks mark))

/-- A string of several lines between quotation marks. -/
def longBasicString : Reader String :=
  longString '"' (continuation <|> (return [← basicChar]) <|> lineFeed)

/-- A string of several lines between apostrophes. -/
def longLiteralString : Reader String :=
  longString '\'' ((return [← Reader.one fun c => isPlain c && c != '\'']) <|> lineFeed)

def string : Reader String :=
  longBasicString <|> longLiteralString <|> basicString <|> literalString

/-! ### Numbers -/

/-- Digits, with single underscores between them where one likes. -/
def digitRun (isDigit : Char → Bool) : Reader (List Char) := do
  let first ← Reader.run1 isDigit
  let rest ← Reader.many (do Reader.char '_'; Reader.run1 isDigit)
  return first ++ rest.flatten

/-- A sign; whether it is a minus. -/
def sign : Reader Bool := do
  match ← Reader.optional (Reader.one fun c => c == '+' || c == '-') with
  | some c => return c == '-'
  | none => return false

/-- The digits of a decimal integer: a single zero, or digits that do not start with one. -/
def decimalDigits : Reader (List Char) := do
  match ← Reader.peek? with
  | some '0' => return [← Reader.one (· == '0')]
  | _ => digitRun Char.isDigit

/-- The integer, if it fits 64 bits with a sign. -/
def fit (value : Int) : Reader Value :=
  if Int64.minValue.toInt ≤ value ∧ value ≤ Int64.maxValue.toInt then return .integer value
  else failure

/-- The value of a digit in any base. -/
def digitValue (c : Char) : Nat := (Text.hexDigit? c).getD 0

/-- An integer after the mark of its base. -/
def basedInteger (mark : String) (base : Nat) : Reader Value := do
  Reader.word mark
  let digits ← digitRun fun c => match Text.hexDigit? c with
    | some d => d < base
    | none => false
  fit (digits.foldl (fun value c => base * value + digitValue c) 0 : Nat)

def decimalInteger : Reader Value := do
  let negative ← sign
  let value := Nat.ofDigitChars 10 (← decimalDigits) 0
  fit (if negative then -(value : Int) else value)

def integer : Reader Value :=
  basedInteger "0x" 16 <|> basedInteger "0o" 8 <|> basedInteger "0b" 2 <|> decimalInteger

/-- The exponent of a real number. -/
def exponent : Reader Int := do
  discard (Reader.one fun c => c == 'e' || c == 'E')
  let negative ← sign
  let value := Nat.ofDigitChars 10 (← digitRun Char.isDigit) 0
  return if negative then -(value : Int) else value

/-- Whether `significand * 10 ^ exponent` is beyond the range of binary64. -/
def overflows (significand : Nat) (exponent : Int) : Bool :=
  let digits := (Nat.toDigits 10 significand).length
  if significand = 0 ∨ digits + exponent < 300 then false
  else if 310 < digits + exponent then true
  else
    let num := significand * Binary64.raise 10 exponent
    (Binary64.ofFraction? false num (Binary64.raise 10 (-exponent))).isNone

/-- A real number with a fraction or an exponent. A positive one has to be finite. -/
def finiteReal : Reader Value := do
  let negative ← sign
  let whole ← decimalDigits
  let (fraction, exponent) ← (do
      Reader.char '.'
      let fraction ← digitRun Char.isDigit
      return (fraction, (← Reader.optional exponent).getD 0)) <|> (return ([], ← exponent))
  let significand := Nat.ofDigitChars 10 (whole ++ fraction) 0
  if !negative ∧ overflows significand (exponent - fraction.length) then failure
  return .real

/-- A real number that is no number, or infinite. -/
def specialReal : Reader Value := do
  discard sign
  Reader.word "inf" <|> Reader.word "nan"
  return .real

def bool : Reader Value :=
  (do Reader.word "true"; return .bool true) <|> (do Reader.word "false"; return .bool false)

/-! ### Times -/

/-- A number of exactly that many digits between two bounds. -/
def fixedNumber (width low high : Nat) : Reader Nat := do
  let value := Nat.ofDigitChars 10 (← Reader.exactly width Char.isDigit) 0
  if low ≤ value ∧ value ≤ high then return value else failure

def date : Reader Unit := do
  let year ← fixedNumber 4 0 9999
  Reader.char '-'
  let month ← fixedNumber 2 1 12
  Reader.char '-'
  let day ← fixedNumber 2 1 31
  if day ≤ Time.daysIn year month then return else failure

/-- A time of the day. -/
def clock : Reader Unit := do
  discard (fixedNumber 2 0 23)
  Reader.char ':'
  discard (fixedNumber 2 0 59)
  Reader.char ':'
  discard (fixedNumber 2 0 60)
  discard (Reader.optional (do Reader.char '.'; Reader.run1 Char.isDigit))

/-- The offset of a time from UTC. -/
def offset : Reader Unit :=
  discard (Reader.one fun c => c == 'Z' || c == 'z') <|> do
    discard (Reader.one fun c => c == '+' || c == '-')
    discard (fixedNumber 2 0 23)
    Reader.char ':'
    discard (fixedNumber 2 0 59)

/-- A date, perhaps with a time of the day and an offset, or a time of the day. -/
def time : Reader Value := do
  (do
    date
    discard (Reader.optional (do
      discard (Reader.one fun c => c == 'T' || c == 't' || c == ' ')
      clock
      discard (Reader.optional offset)))) <|> clock
  return .time

/-- A scalar of any kind. -/
def scalar : Reader Value :=
  (return .string (← string)) <|> time <|> finiteReal <|> specialReal <|> integer <|> bool

end Jukebox.Toml
