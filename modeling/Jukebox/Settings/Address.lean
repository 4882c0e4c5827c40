import Jukebox.Text.Numeral

/-!
Internet addresses of both versions and their texts.
-/

namespace Jukebox.Settings

/-- An address: four octets, or eight groups of 16 bits. -/
inductive Address where
  | v4 (octets : List Nat)
  | v6 (groups : List Nat)
deriving DecidableEq, Repr

namespace Address

/-! ### Reading -/

/-- The parts of a text between the occurrences of a character. -/
def split (separator : Char) : List Char → List (List Char)
  | [] => [[]]
  | c :: rest =>
    if c = separator then [] :: split separator rest
    else match split separator rest with
      | part :: parts => (c :: part) :: parts
      | [] => [[c]]

/-- An octet in decimal without needless zeros. -/
def octet? (digits : List Char) : Option Nat :=
  if digits.length > 1 ∧ digits.head? = some '0' then none
  else (Text.decimal? digits).filter (· < 256)

/-- Four octets with points between them. -/
def octets? (text : List Char) : Option (List Nat) :=
  let parts := split '.' text
  if parts.length = 4 then parts.mapM octet? else none

/-- A group of one to four hexadecimal digits. -/
def group? (digits : List Char) : Option Nat :=
  if 0 < digits.length ∧ digits.length ≤ 4 then Text.hexadecimal? digits else none

/-- Groups with colons between them; the last two may be written as four octets. -/
def groups? : List (List Char) → Option (List Nat)
  | [] => some []
  | [last] =>
    match octets? last with
    | some [a, b, c, d] => some [256 * a + b, 256 * c + d]
    | _ => (group? last).map ([·])
  | part :: rest => do return (← group? part) :: (← groups? rest)

/-- What comes before and after the first pair of colons, if there is one. -/
def splitAtGap (before : List Char) : List Char → Option (List Char × List Char)
  | ':' :: ':' :: rest => some (before.reverse, rest)
  | c :: rest => splitAtGap (c :: before) rest
  | [] => none

/-- The groups on one side of a pair of colons; there may be none. -/
def side? (text : List Char) : Option (List Nat) :=
  if text.isEmpty then some [] else groups? (split ':' text)

/-- Eight groups, or fewer and a pair of colons that stands for at least one group of zero. Octets
are written at the end only. -/
def v6? (text : List Char) : Option Address := do
  match splitAtGap [] text with
  | none =>
    let groups ← groups? (split ':' text)
    if groups.length = 8 then some (.v6 groups) else none
  | some (before, after) =>
    let head ← side? before
    let tail ← side? after
    if before.contains '.' ∨ 7 < head.length + tail.length then none
    else some (.v6 (head ++ List.replicate (8 - head.length - tail.length) 0 ++ tail))

/-- Reads an address. -/
def ofText? (text : String) : Option Address :=
  match octets? text.toList with
  | some octets => some (.v4 octets)
  | none => v6? text.toList

/-! ### Writing -/

def octetsText (octets : List Nat) : String := ".".intercalate (octets.map toString)

def groupsText (groups : List Nat) : String :=
  ":".intercalate (groups.map (Text.hexadecimal 0))

/-- The number of zeros at the start. -/
def zeros (groups : List Nat) : Nat := (groups.takeWhile (· == 0)).length

/-- The start and the length of the longest run of zeros, the first of several. -/
def longestZeros (groups : List Nat) : Nat × Nat :=
  (List.range groups.length).foldl (fun best start =>
    let length := zeros (groups.drop start)
    if best.2 < length then (start, length) else best) (0, 0)

/-- Groups with a pair of colons for the longest run of at least two zeros. -/
def gapped (groups : List Nat) : String :=
  let (start, length) := longestZeros groups
  if length < 2 then groupsText groups
  else groupsText (groups.take start) ++ "::" ++ groupsText (groups.drop (start + length))

/-- The text of an address. The addresses of version 6 that stand for one of version 4 show it. -/
def text : Address → String
  | v4 octets => octetsText octets
  | v6 [0, 0, 0, 0, 0, 0xffff, high, low] =>
    "::ffff:" ++ octetsText [high / 256, high % 256, low / 256, low % 256]
  | v6 groups => gapped groups

/-- The text of an address with a port. -/
def withPort (address : Address) (port : Nat) : String :=
  match address with
  | v4 _ => address.text ++ ":" ++ toString port
  | v6 _ => "[" ++ address.text ++ "]:" ++ toString port

end Address

end Jukebox.Settings
