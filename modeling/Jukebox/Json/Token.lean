import Jukebox.Json.Numeral
import Jukebox.Json.Literal

/-!
The tokens of a JSON text. The reader takes one character at a time; a number or a word ends at
the first character that cannot continue it.

A token may lack a value: a number beyond the range of binary64, or a string with a lone
surrogate. That is an error only where the value is wanted.
-/

namespace Jukebox.Json

/-- A token of a JSON text. -/
inductive Token where
  | openArray
  | closeArray
  | openObject
  | closeObject
  | comma
  | colon
  | null
  | bool (value : Bool)
  | number (value : Option Number)
  | string (value : Option String)

namespace Token

/-- What is being read: nothing, a number or a word, or a string up to its closing quote. The
characters read are held in reverse. -/
inductive Mode where
  | between
  | bare (read : List Char)
  | quoted (read : List Char) (afterBackslash : Bool)

/-- The state of the reader: the finished tokens in reverse, and what is being read. -/
structure Reader where
  done : List Token
  mode : Mode

/-- The token of a number or a word. -/
def ofBare? (text : List Char) : Option Token :=
  if text = ['n', 'u', 'l', 'l'] then some null
  else if text = ['t', 'r', 'u', 'e'] then some (bool true)
  else if text = ['f', 'a', 'l', 's', 'e'] then some (bool false)
  else (Numeral.ofChars? text).map fun numeral => number numeral.number?

/-- The token of the body of a string literal. -/
def ofBody? (body : List Char) : Option Token :=
  (Literal.pieces? body).map fun pieces => string ((Literal.text? pieces).map String.ofList)

/-- The token that a character is on its own. -/
def ofMark? : Char → Option Token
  | '[' => some openArray
  | ']' => some closeArray
  | '{' => some openObject
  | '}' => some closeObject
  | ',' => some comma
  | ':' => some colon
  | _ => none

/-- Whether a character can stand in a number or a word. -/
def isBare (c : Char) : Bool := c.isAlphanum || c == '-' || c == '+' || c == '.'

/-- Whether a character may stand between tokens. -/
def isSpace (c : Char) : Bool := c == ' ' || c == '\t' || c == '\n' || c == '\r'

/-- Starts on a character between tokens. -/
def start? (done : List Token) (c : Char) : Option Reader :=
  if isSpace c then some ⟨done, .between⟩
  else if c = '"' then some ⟨done, .quoted [] false⟩
  else if isBare c then some ⟨done, .bare [c]⟩
  else (ofMark? c).map fun token => ⟨token :: done, .between⟩

/-- Reads one character. -/
def step? (reader : Reader) (c : Char) : Option Reader :=
  match reader.mode with
  | .between => start? reader.done c
  | .bare read =>
    if isBare c then some ⟨reader.done, .bare (c :: read)⟩
    else do start? ((← ofBare? read.reverse) :: reader.done) c
  | .quoted read true => some ⟨reader.done, .quoted (c :: read) false⟩
  | .quoted read false =>
    if c = '"' then do some ⟨(← ofBody? read.reverse) :: reader.done, .between⟩
    else some ⟨reader.done, .quoted (c :: read) (c = '\\')⟩

/-- The tokens of a text; none if some part of it is no token. -/
def ofText? (text : List Char) : Option (List Token) := do
  let reader ← text.foldlM step? ⟨[], .between⟩
  match reader.mode with
  | .between => some reader.done.reverse
  | .bare read => some ((← ofBare? read.reverse) :: reader.done).reverse
  | .quoted _ _ => none

end Token

end Jukebox.Json
