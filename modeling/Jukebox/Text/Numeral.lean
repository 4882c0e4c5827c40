/-!
Decimal and hexadecimal numerals: the digits of a number, and the number that a run of digits
writes.
-/

namespace Jukebox.Text

/-- The number that a non-empty run of ASCII decimal digits writes. -/
def decimal? (digits : List Char) : Option Nat :=
  if digits ≠ [] ∧ digits.all Char.isDigit then some (Nat.ofDigitChars 10 digits 0) else none

/-- The value of one hexadecimal digit, in either case. -/
def hexDigit? (c : Char) : Option Nat :=
  if c.isDigit then some (c.toNat - '0'.toNat)
  else if 'a' ≤ c ∧ c ≤ 'f' then some (c.toNat - 'a'.toNat + 10)
  else if 'A' ≤ c ∧ c ≤ 'F' then some (c.toNat - 'A'.toNat + 10)
  else none

/-- The number that a run of hexadecimal digits writes; the empty run writes zero. -/
def hexadecimal? (digits : List Char) : Option Nat :=
  (digits.mapM hexDigit?).map (·.foldl (fun value digit => 16 * value + digit) 0)

/-- The lower-case hexadecimal digits of a number, filled up with zeros to a width. -/
def hexadecimal (width value : Nat) : String :=
  let digits := Nat.toDigits 16 value
  String.ofList (List.replicate (width - digits.length) '0' ++ digits)

/-- The decimal digits of a number, filled up with zeros to a width. -/
def decimal (width value : Nat) : String :=
  let digits := Nat.toDigits 10 value
  String.ofList (List.replicate (width - digits.length) '0' ++ digits)

theorem decimal?_toDigits (n : Nat) : decimal? (Nat.toDigits 10 n) = some n := by
  have hne : Nat.toDigits 10 n ≠ [] := Nat.toDigits_ne_nil
  have hall : (Nat.toDigits 10 n).all Char.isDigit = true := by
    rw [List.all_eq_true]
    intro c hc
    exact Nat.isDigit_of_mem_toDigits (by omega) (by omega) hc
  simp [decimal?, hne, hall, Nat.ofDigitChars_toDigits]

end Jukebox.Text
