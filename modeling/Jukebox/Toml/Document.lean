import Jukebox.Toml.Scalar

/-!
TOML texts. A text is a row of lines; each opens a table or assigns a value to a key of the table
that was opened last. No key is assigned twice and no table is opened twice.
-/

namespace Jukebox.Toml

open Text (Reader)

/-! ### Keys -/

/-- A part of a key: a string, or a word of letters, digits, underscores and hyphens. -/
def simpleKey : Reader String :=
  basicString <|> literalString <|>
    (return String.ofList (← Reader.run1 fun c => c.isAlphanum || c == '_' || c == '-'))

/-- The greatest number of parts of a key, and of levels of arrays and inline tables. -/
def maxLevels : Nat := 79

/-- A key: parts with points between them. -/
def key : Reader (List String) := do
  let parts ← Reader.separated (do blanks; let part ← simpleKey; blanks; return part)
    (Reader.char '.')
  if parts.length ≤ maxLevels then return parts else failure

/-- A key without its last part, and that part. -/
def splitKey (key : List String) : List String × String := (key.dropLast, key.getLast?.getD "")

/-! ### Values -/

/-- An array around its items. -/
def arrayOf (value : Reader Value) : Reader Value := do
  Reader.char '['
  let item := do blankLines; let item ← value; blankLines; return item
  let items ← Reader.optional (Reader.separated item (Reader.char ','))
  if items.isSome then discard (Reader.optional (Reader.char ','))
  blankLines
  Reader.char ']'
  return .array (items.getD [])

/-- A key and its value. -/
def assignment (value : Reader Value) : Reader (List String × Value) := do
  let key ← key
  Reader.char '='
  blanks
  return (key, ← value)

/-- The table of some assignments, if no two of them are in each other's way. -/
def tableOf? (assignments : List (List String × Value)) : Option Value := do
  let entries ← assignments.foldlM (fun (entries : Entries) (key, value) =>
    entries.assign? (splitKey key).1 (splitKey key).2 value) []
  some (Node.table .header entries).toValue

/-- An inline table around its values. -/
def inlineTableOf (value : Reader Value) : Reader Value := do
  Reader.char '\x7b'
  let entry := do let entry ← assignment value; blanks; return entry
  let assignments ← Reader.optional (Reader.separated entry (Reader.char ','))
  blanks
  Reader.char '\x7d'
  match tableOf? (assignments.getD []) with
  | some table => return table
  | none => failure

/-- A value with at most that many levels of arrays and inline tables. -/
def valueWithin : (levels : Nat) → Reader Value
  | 0 => scalar
  | levels + 1 => do
    match ← Reader.peek? with
    | some '[' => arrayOf (valueWithin levels)
    | some '\x7b' => inlineTableOf (valueWithin levels)
    | _ => scalar

/-- A value. -/
def value : Reader Value := valueWithin maxLevels

/-! ### Lines -/

/-- What a line says. -/
inductive Line where
  | blank
  | table (key : List String)
  | tables (key : List String)
  | assign (key : List String) (value : Value)

/-- What a line says, without the comment at its end. -/
def line : Reader Line :=
  (do Reader.word "[["; let key ← key; Reader.word "]]"; blanks; return .tables key) <|>
  (do Reader.char '['; let key ← key; Reader.char ']'; blanks; return .table key) <|>
  (do let (key, value) ← assignment value; blanks; return .assign key value) <|>
  (return .blank)

/-- The lines of a text. -/
def lines : Reader (List Line) := do
  discard (Reader.optional (Reader.char '\ufeff'))
  Reader.separated (do
    blanks
    let line ← line
    discard (Reader.optional comment)
    return line) lineEnd

/-- A document that is being read: its entries, and the table that was opened last. -/
structure Draft where
  entries : Entries := []
  opened : List String := []

/-- The draft with what a line says. -/
def Draft.take? (draft : Draft) : Line → Option Draft
  | .blank => some draft
  | .table key => do
    let (parent, last) := splitKey key
    return ⟨← draft.entries.within? (Entries.openTable? last) parent, key⟩
  | .tables key => do
    let (parent, last) := splitKey key
    return ⟨← draft.entries.within? (Entries.openTables? last) parent, key⟩
  | .assign key value => do
    let (path, last) := splitKey key
    return { draft with
      entries := ← draft.entries.within? (·.assign? path last value) draft.opened }

/-- Reads a TOML text as a table. -/
def ofText? (text : String) : Option Value := do
  let lines ← lines.whole? text.toList
  let draft ← lines.foldlM Draft.take? {}
  some (Node.table .header draft.entries).toValue

end Jukebox.Toml
