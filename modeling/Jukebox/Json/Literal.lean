import Jukebox.Text.Numeral

/-!
Strings as a JSON text writes them between quotes, with their escapes.
-/

namespace Jukebox.Json.Literal

/-- A piece of a string literal: a character, or half of a surrogate pair. -/
inductive Piece where
  | char (c : Char)
  | surrogate (unit : Nat)

/-- The character that a one-letter escape stands for. -/
def escaped? : Char → Option Char
  | '"' => some '"'
  | '\\' => some '\\'
  | '/' => some '/'
  | 'b' => some '\x08'
  | 'f' => some '\x0c'
  | 'n' => some '\n'
  | 'r' => some '\r'
  | 't' => some '\t'
  | _ => none

/-- The piece that a `\u` escape stands for. -/
def unitPiece (unit : Nat) : Piece :=
  if 0xd800 ≤ unit ∧ unit < 0xe000 then .surrogate unit else .char (Char.ofNat unit)

/-- The pieces of the body of a literal; none if an escape is malformed or a control character
stands by itself. -/
def pieces? : List Char → Option (List Piece)
  | [] => some []
  | '\\' :: 'u' :: a :: b :: c :: d :: rest => do
    let unit ← Text.hexadecimal? [a, b, c, d]
    return unitPiece unit :: (← pieces? rest)
  | '\\' :: c :: rest => do return .char (← escaped? c) :: (← pieces? rest)
  | c :: rest => if c.toNat < 0x20 ∨ c = '\\' then none else do return .char c :: (← pieces? rest)

/-- The characters of the pieces; none if a surrogate has no partner. -/
def text? : List Piece → Option (List Char)
  | [] => some []
  | .char c :: rest => (text? rest).map (c :: ·)
  | .surrogate high :: .surrogate low :: rest =>
    if high < 0xdc00 ∧ 0xdc00 ≤ low then
      (text? rest).map (Char.ofNat (0x10000 + (high - 0xd800) * 0x400 + (low - 0xdc00)) :: ·)
    else none
  | .surrogate _ :: _ => none

end Jukebox.Json.Literal
