import Jukebox.Json.Token

/-!
JSON texts as they were written: like values, but members keep their order and their repetitions,
and a number or string may lack a value. What is read from a source decides which of its parts
have to have one.
-/

namespace Jukebox.Json

/-- A JSON text as written. -/
inductive Source where
  | null
  | bool (value : Bool)
  | number (value : Option Number)
  | string (value : Option String)
  | array (items : List Source)
  | object (members : List (Option String × Source))

namespace Source

instance : Inhabited Source := ⟨null⟩

/-! ### From a value -/

mutual

/-- The source that writes a value. -/
def ofJson : Json → Source
  | .null => null
  | .bool b => bool b
  | .number n => number (some n)
  | .string s => string (some s)
  | .array items => array (ofItems items)
  | .object members => object (ofMembers members)

def ofItems : List Json → List Source
  | [] => []
  | item :: rest => ofJson item :: ofItems rest

def ofMembers : List (String × Json) → List (Option String × Source)
  | [] => []
  | (name, value) :: rest => (some name, ofJson value) :: ofMembers rest

end

/-! ### From a text -/

/-- An array or object that is still open, with its finished parts in reverse. -/
inductive Frame where
  | array (done : List Source)
  | object (done : List (Option String × Source)) (name : Option String)

/-- What has to come next: a value, a value or the end of an array, a name, a name or the end of
an object, the colon after a name, or the comma or end after a part. `finished` holds the whole. -/
inductive Expecting where
  | value
  | valueOrEnd
  | name (done : List (Option String × Source))
  | nameOrEnd
  | colon (done : List (Option String × Source)) (name : Option String)
  | separator
  | finished (whole : Source)

/-- The state of the assembly: the open frames, innermost first, and what has to come next. -/
structure Assembly where
  frames : List Frame
  expecting : Expecting

/-- Puts a finished value into the innermost frame. -/
def place (frames : List Frame) (value : Source) : Assembly :=
  match frames with
  | [] => ⟨[], .finished value⟩
  | .array done :: outer => ⟨.array (value :: done) :: outer, .separator⟩
  | .object done name :: outer => ⟨.object ((name, value) :: done) none :: outer, .separator⟩

/-- Takes a token where a value has to come. -/
def placeToken? (frames : List Frame) : Token → Option Assembly
  | .null => some (place frames null)
  | .bool b => some (place frames (bool b))
  | .number n => some (place frames (number n))
  | .string s => some (place frames (string s))
  | .openArray => some ⟨.array [] :: frames, .valueOrEnd⟩
  | .openObject => some ⟨frames, .nameOrEnd⟩
  | _ => none

/-- Takes one token. -/
def assemble? (assembly : Assembly) (token : Token) : Option Assembly :=
  match assembly.expecting, assembly.frames, token with
  | .value, frames, token => placeToken? frames token
  | .valueOrEnd, .array _ :: outer, .closeArray => some (place outer (array []))
  | .valueOrEnd, frames, token => placeToken? frames token
  | .nameOrEnd, frames, .closeObject => some (place frames (object []))
  | .nameOrEnd, frames, .string name => some ⟨frames, .colon [] name⟩
  | .name done, frames, .string name => some ⟨frames, .colon done name⟩
  | .colon done name, frames, .colon => some ⟨.object done name :: frames, .value⟩
  | .separator, .array done :: outer, .comma => some ⟨.array done :: outer, .value⟩
  | .separator, .array done :: outer, .closeArray => some (place outer (array done.reverse))
  | .separator, .object done _ :: outer, .comma => some ⟨outer, .name done⟩
  | .separator, .object done _ :: outer, .closeObject => some (place outer (object done.reverse))
  | _, _, _ => none

/-- Reads a JSON text; none if it is not one. -/
def ofText? (text : String) : Option Source := do
  let tokens ← Token.ofText? text.toList
  let assembly ← tokens.foldlM assemble? ⟨[], .value⟩
  match assembly.expecting with
  | .finished whole => some whole
  | _ => none

end Source

end Jukebox.Json
