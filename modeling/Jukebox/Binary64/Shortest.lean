import Jukebox.Binary64.Basic

/-!
The shortest decimal that reads back as a given binary64 number, and its two layouts.

The decimals of `n` digits form a grid; the number is written on the coarsest grid that has a
point in the interval of reals which round to it, at the grid's point nearest to it.
-/

namespace Jukebox.Binary64

/-- Compares `a * 10 ^ t` with `b * 2 ^ p`. -/
def compareScaled (a : Nat) (t : Int) (b : Nat) (p : Int) : Ordering :=
  compare (a * raise 10 t * raise 2 (-p)) (b * raise 2 p * raise 10 (-t))

/-- The decimal exponent: the greatest `e` with `10 ^ e` at most the magnitude. -/
def decimalExponent (x : Binary64) : Int :=
  let atMost (e : Int) := compareScaled 1 e x.significand x.exponent ≠ .gt
  let guess := ((x.significand.log2 : Int) + x.exponent) * 30103 / 100000
  if atMost (guess + 1) then guess + 1 else if atMost guess then guess else guess - 1

/-- Whether `digits * 10 ^ t` rounds to the number. The ends of the interval count when the
significand is even; the lower half is shorter below a power of two. -/
def readsBack (x : Binary64) (digits : Nat) (t : Int) : Bool :=
  let below := if 2 * x.significand = bound ∧ x.exponent ≠ leastExponent then 1 else 2
  let even := x.significand % 2 = 0
  let low := compareScaled digits t (4 * x.significand - below) (x.exponent - 2)
  let high := compareScaled digits t (4 * x.significand + 2) (x.exponent - 2)
  (low == .gt || (even && low == .eq)) && (high == .lt || (even && high == .eq))

/-- The point of the grid with `n` digits that is nearest to the number, if one reads back. -/
def onGrid? (x : Binary64) (n : Nat) : Option (Nat × Int) :=
  let t := x.decimalExponent - (n - 1)
  let num := x.significand * raise 2 x.exponent * raise 10 (-t)
  let den := raise 2 (-x.exponent) * raise 10 t
  let floor := num / den
  let nearest := roundQuotient num den
  let other := if nearest = floor then floor + 1 else floor
  if x.readsBack nearest t then some (nearest, t)
  else if x.readsBack other t then some (other, t)
  else none

/-- The digits, most significant first and without zeros at the end, and the decimal exponent of
the first of them. Zero has the single digit zero. -/
def shortest (x : Binary64) : List Char × Int :=
  if x.significand = 0 then (['0'], 0)
  else
    let (digits, t) := ((List.range' 1 17).findSome? x.onGrid?).getD (x.significand, 0)
    let written := Nat.toDigits 10 digits
    ((written.reverse.dropWhile (· == '0')).reverse, t + (written.length - 1))

/-- Digits around a decimal point, with at least one digit on either side. -/
def positional (digits : List Char) (exponent : Int) : List Char :=
  if exponent < 0 then
    ['0', '.'] ++ List.replicate (-exponent - 1).toNat '0' ++ digits
  else
    let before := exponent.toNat + 1
    let after := digits.drop before
    digits.take before ++ List.replicate (before - digits.length) '0' ++ ['.'] ++
      (if after.isEmpty then ['0'] else after)

/-- One digit, a point if more follow, the others, and the exponent with its sign. -/
def scientific (digits : List Char) (exponent : Int) : List Char :=
  let after := digits.drop 1
  digits.take 1 ++ (if after.isEmpty then [] else '.' :: after) ++ ['e'] ++
    (if exponent < 0 then ['-'] else ['+']) ++ Nat.toDigits 10 exponent.natAbs

/-- The sign of a number as text. -/
def signText (x : Binary64) : List Char := if x.negative then ['-'] else []

/-- The number without an exponent while its decimal exponent is between -5 and 15, and in
scientific layout beyond. -/
def text (x : Binary64) : String :=
  let (digits, exponent) := x.shortest
  String.ofList (x.signText ++
    if -5 ≤ exponent ∧ exponent ≤ 15 then positional digits exponent
    else scientific digits exponent)

end Jukebox.Binary64
