/-!
Readers: each takes a part off the start of a text, or fails and takes nothing.
-/

namespace Jukebox.Text

/-- Takes a value of type `α` off the start of a text. -/
abbrev Reader := StateT (List Char) Option

namespace Reader

/-- The first character of what is left. -/
def peek? : Reader (Option Char) := return (← get).head?

/-- Takes one character of a kind. -/
def one (expected : Char → Bool) : Reader Char := do
  match ← get with
  | c :: rest => if expected c then do set rest; return c else failure
  | [] => failure

/-- Takes one given character. -/
def char (c : Char) : Reader Unit := discard (one (· == c))

/-- Takes a given word. -/
def word (text : String) : Reader Unit := text.toList.forM char

/-- Takes the longest run of characters of a kind. -/
def run (expected : Char → Bool) : Reader (List Char) := do
  let (taken, rest) := (← get).span expected
  set rest
  return taken

/-- Takes the longest run of characters of a kind, which is not empty. -/
def run1 (expected : Char → Bool) : Reader (List Char) := do
  let taken ← run expected
  if taken.isEmpty then failure else return taken

/-- Takes exactly that many characters of a kind. -/
def exactly (count : Nat) (expected : Char → Bool) : Reader (List Char) := do
  let (taken, rest) := (← get).splitAt count
  if taken.length = count ∧ taken.all expected then do set rest; return taken else failure

/-- What a reader takes, if it does not fail. -/
def optional (reader : Reader α) : Reader (Option α) := some <$> reader <|> pure none

/-- Takes one part after the other as long as the reader does not fail, at most that many. -/
def manyWithin (reader : Reader α) : (limit : Nat) → Reader (List α)
  | 0 => return []
  | limit + 1 => do
    match ← optional reader with
    | some a => return a :: (← manyWithin reader limit)
    | none => return []

/-- Takes one part after the other as long as the reader, which takes at least one character for
each, does not fail. -/
def many (reader : Reader α) : Reader (List α) := do manyWithin reader (← get).length

/-- Takes parts with separators between them. -/
def separated (reader : Reader α) (separator : Reader Unit) : Reader (List α) := do
  let first ← reader
  return first :: (← many (do separator; reader))

/-- What the whole text is read as. -/
def whole? (reader : Reader α) (text : List Char) : Option α :=
  match reader text with
  | some (a, []) => some a
  | _ => none

end Reader

end Jukebox.Text
