import Jukebox.Json.Source

/-!
Reading typed data from a JSON source.

A decoder is given the number of arrays and objects that may still be opened inside one another.
A part that no decoder asks for is not looked at: it may be nested deeper, and its numbers and
strings need no value.
-/

namespace Jukebox.Json

/-- How many arrays and objects may be open at once. -/
def maxDepth : Nat := 127

/-- Reads a value of type `α` from a source in which `depth` more arrays or objects may be open. -/
abbrev Decoder (α : Type) := (depth : Nat) → Source → Option α

namespace Decoder

def run (decoder : Decoder α) (source : Source) : Option α := decoder maxDepth source

def runText (decoder : Decoder α) (text : String) : Option α := do
  decoder.run (← Source.ofText? text)

def runJson (decoder : Decoder α) (value : Json) : Option α :=
  decoder.run (.ofJson value)

def string : Decoder String
  | _, .string value => value
  | _, _ => none

def bool : Decoder Bool
  | _, .bool b => some b
  | _, _ => none

/-- An integer from zero up to, but not including, a limit. -/
def below (limit : Nat) : Decoder Nat
  | _, .number (some (.integer value)) =>
    if 0 ≤ value ∧ value < limit then some value.toNat else none
  | _, _ => none

/-- A natural number. An integer that a text writes fits 64 bits anyway. -/
def natural : Decoder Nat
  | _, .number (some (.integer (.ofNat value))) => some value
  | _, _ => none

/-- A value or `null`. -/
def optional (decoder : Decoder α) : Decoder (Option α)
  | _, .null => some none
  | depth, source => (decoder depth source).map some

def list (decoder : Decoder α) : Decoder (List α)
  | depth + 1, .array items => items.mapM (decoder depth)
  | _, _ => none

/-- An object of any names, as its members in order. -/
def members (decoder : Decoder α) : Decoder (List (String × α))
  | depth + 1, .object fields =>
    fields.mapM fun (name, source) => do return (← name, ← decoder depth source)
  | _, _ => none

/-! ### Any value -/

/-- The name of the member that marks an embedded text. -/
def embeddingMark : String := "$serde_json::private::RawValue"

/-- Whether an object stands for a value whose text it holds: its first member has the mark. -/
def isEmbedding : List (Option String × Source) → Bool
  | (some name, _) :: _ => name = embeddingMark
  | _ => false

/-- The text that such an object holds: a string, and nothing after it. -/
def embeddedText? : List (Option String × Source) → Option String
  | [(_, .string text)] => text
  | _ => none

mutual

/-- Any value; the members of its objects are put in order and the last of one name counts. An
embedded text is read by `embedded`. -/
def valueBy (embedded : String → Option Json) : Decoder Json
  | _, .null => some .null
  | _, .bool b => some (.bool b)
  | _, .number n => n.map .number
  | _, .string s => s.map .string
  | depth + 1, .array items => (valueItems embedded depth items).map .array
  | depth + 1, .object fields =>
    if isEmbedding fields then embeddedText? fields >>= embedded
    else (valueMembers embedded depth [] fields).map .object
  | 0, _ => none

def valueItems (embedded : String → Option Json) (depth : Nat) : List Source → Option (List Json)
  | [] => some []
  | item :: rest => do
    return (← valueBy embedded depth item) :: (← valueItems embedded depth rest)

/-- The values of the members, put one by one into those that are in order already. -/
def valueMembers (embedded : String → Option Json) (depth : Nat) (done : List (String × Json)) :
    List (Option String × Source) → Option (List (String × Json))
  | [] => some done
  | (name, source) :: rest => do
    valueMembers embedded depth
      (insertMember (← name) (← valueBy embedded depth source) done) rest

end

/-- The value that an embedded text writes, with at most that many texts inside one another. -/
def embeddedValue : (levels : Nat) → String → Option Json
  | 0, _ => none
  | levels + 1, text => do runText (valueBy (embeddedValue levels)) text

/-- Reads an embedded text. What it embeds itself is shorter, so its length bounds the levels. -/
def embedded (text : String) : Option Json := embeddedValue (text.length + 1) text

/-- Any value, in order and with what it embeds. -/
def value : Decoder Json := valueBy embedded

/-- An object of any names and values, with its members put in order. It is no embedding itself. -/
def object : Decoder (List (String × Json))
  | depth + 1, .object fields => valueMembers embedded depth [] fields
  | _, _ => none

/-! ### Records -/

/-- What the absence of a field means: an error, `null`, or the field's default. -/
inductive Absence where
  | error
  | null
  | default
deriving DecidableEq

/-- A field of a record: the names it may be written under and what its absence means. -/
structure Field where
  names : List String
  absence : Absence := .error

/-- Puts a member into the slot of its field. A member of no field is passed over; a field
written twice is an error. -/
def fill? (name : String) (source : Source) :
    List Field → List (Option Source) → Option (List (Option Source))
  | field :: fields, slot :: slots =>
    if name ∈ field.names then
      if slot.isSome then none else some (some source :: slots)
    else (fill? name source fields slots).map (slot :: ·)
  | _, slots => some slots

/-- Settles the fields that an object does not write. -/
def settleAbsent? : List Field → List (Option Source) → Option (List (Option Source))
  | field :: fields, slot :: slots => do
    let rest ← settleAbsent? fields slots
    match slot, field.absence with
    | some source, _ => some (some source :: rest)
    | none, .error => none
    | none, .null => some (some .null :: rest)
    | none, .default => some (none :: rest)
  | _, slots => some slots

/-- Fits an array to the fields in their order; only fields with a default may be left out at
the end. -/
def fit? : List Field → List Source → Option (List (Option Source))
  | [], [] => some []
  | [], _ :: _ => none
  | _ :: fields, source :: sources => (fit? fields sources).map (some source :: ·)
  | field :: fields, [] =>
    if field.absence = .default then (fit? fields []).map (none :: ·) else none

/-- A record, written as an object or as an array of its fields: the depth left inside it, and
the source of each field, none where a default is meant. -/
def record (fields : List Field) : Decoder (Nat × List (Option Source))
  | depth + 1, .object members => do
    let slots ← members.foldlM (fun slots (name, source) => do
      fill? (← name) source fields slots) (fields.map fun _ => none)
    return (depth, ← settleAbsent? fields slots)
  | depth + 1, .array items => do return (depth, ← fit? fields items)
  | _, _ => none

/-- The value of a field that may be left out. -/
def orDefault (decoder : Decoder α) (default : α) (depth : Nat) : Option Source → Option α
  | none => some default
  | some source => decoder depth source

end Decoder

end Jukebox.Json
