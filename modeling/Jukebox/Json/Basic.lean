import Jukebox.Binary64.Basic

/-!
JSON values. A number is an integer or a binary64 number; an object is a list of members in the
order in which they are written.
-/

namespace Jukebox

inductive Json.Number where
  | integer (value : Int)
  | real (value : Binary64)
deriving DecidableEq

inductive Json where
  | null
  | bool (value : Bool)
  | number (value : Json.Number)
  | string (value : String)
  | array (items : List Json)
  | object (members : List (String × Json))

namespace Json

instance : Inhabited Json := ⟨null⟩

/-! ### Equality -/

mutual

/-- Whether two values are the same. Equality is decided through it, since none is derived for a type whose
values stand in lists of their own. -/
def beq : Json → Json → Bool
  | null, null => true
  | bool a, bool b => a == b
  | number a, number b => a == b
  | string a, string b => a == b
  | array items, array others => beqItems items others
  | object members, object others => beqMembers members others
  | _, _ => false

def beqItems : List Json → List Json → Bool
  | [], [] => true
  | item :: rest, other :: others => beq item other && beqItems rest others
  | _, _ => false

def beqMembers : List (String × Json) → List (String × Json) → Bool
  | [], [] => true
  | (name, value) :: rest, (otherName, other) :: others =>
    name == otherName && beq value other && beqMembers rest others
  | _, _ => false

end

mutual

theorem beq_iff : ∀ a b : Json, beq a b = true ↔ a = b
  | null, b | bool _, b | number _, b | string _, b => by cases b <;> simp [beq]
  | array items, b => by cases b <;> simp [beq, beqItems_iff items]
  | object members, b => by cases b <;> simp [beq, beqMembers_iff members]

theorem beqItems_iff : ∀ a b : List Json, beqItems a b = true ↔ a = b
  | [], b => by cases b <;> simp [beqItems]
  | item :: rest, b => by cases b <;> simp [beqItems, beq_iff item, beqItems_iff rest]

theorem beqMembers_iff : ∀ a b : List (String × Json), beqMembers a b = true ↔ a = b
  | [], b => by cases b <;> simp [beqMembers]
  | (name, value) :: rest, b => by
    cases b <;> simp [beqMembers, beq_iff value, beqMembers_iff rest, Prod.ext_iff, and_assoc]

end

instance : DecidableEq Json := fun a b => decidable_of_iff _ (beq_iff a b)

/-! ### Parts -/

/-- The natural number `n` as a JSON value. -/
def natural (n : Nat) : Json := number (.integer n)

/-- An optional value; its absence is `null`. -/
def optional (write : α → Json) : Option α → Json
  | none => null
  | some a => write a

def list (write : α → Json) (items : List α) : Json := array (items.map write)

/-- The value of a member, if the object has one of that name. -/
def member? (name : String) : Json → Option Json
  | object members => members.lookup name
  | _ => none

/-- Puts a member into a list that is sorted by name; a member of the same name is replaced. -/
def insertMember (name : String) (value : Json) : List (String × Json) → List (String × Json)
  | [] => [(name, value)]
  | (other, old) :: rest =>
    if name < other then (name, value) :: (other, old) :: rest
    else if name = other then (name, value) :: rest
    else (other, old) :: insertMember name value rest

mutual

/-- The value with the members of every object in ascending order of their names; of several
members with one name the last counts. -/
def sorted : Json → Json
  | array items => array (sortedItems items)
  | object members => object (sortedMembers [] members)
  | other => other

def sortedItems : List Json → List Json
  | [] => []
  | item :: rest => sorted item :: sortedItems rest

/-- The members in order, put one by one into those that are in order already. -/
def sortedMembers (done : List (String × Json)) : List (String × Json) → List (String × Json)
  | [] => done
  | (name, value) :: rest => sortedMembers (insertMember name (sorted value) done) rest

end

def typeName : Json → String
  | null => "null"
  | bool _ => "bool"
  | number _ => "number"
  | string _ => "string"
  | array _ => "array"
  | object _ => "object"

end Json

end Jukebox
