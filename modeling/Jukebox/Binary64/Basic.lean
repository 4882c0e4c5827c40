/-!
Finite binary64 numbers as exact data: a sign and a magnitude `significand * 2 ^ exponent` in the
one form that the format gives it, rounding of fractions to the nearest such number, and the
reading of decimal numerals.
-/

namespace Jukebox

namespace Binary64

/-- The power of a base; one if the exponent is negative. -/
def raise (base : Nat) (exponent : Int) : Nat := base.pow exponent.toNat

def precision : Nat := 53

/-- The bound of significands. -/
def bound : Nat := raise 2 precision

/-- The exponent of the numbers closest to zero. -/
def leastExponent : Int := -1074

/-- The exponent of the numbers farthest from zero. -/
def greatestExponent : Int := 971

/-- Whether a significand and an exponent are the one form of their magnitude: the significand
fills its bits unless the exponent is the least one. -/
def IsNormal (significand : Nat) (exponent : Int) : Prop :=
  significand < bound ∧ leastExponent ≤ exponent ∧ exponent ≤ greatestExponent ∧
    (exponent = leastExponent ∨ bound ≤ 2 * significand)

instance (significand : Nat) (exponent : Int) : Decidable (IsNormal significand exponent) := by
  unfold IsNormal
  infer_instance

end Binary64

/-- A finite binary64 number, with the magnitude `significand * 2 ^ exponent`. -/
structure Binary64 where
  negative : Bool
  significand : Nat
  exponent : Int
  normal : Binary64.IsNormal significand exponent
deriving DecidableEq

namespace Binary64

def zero (negative : Bool) : Binary64 := ⟨negative, 0, leastExponent, by decide⟩

/-- The magnitude as a fraction. -/
def fraction (x : Binary64) : Nat × Nat :=
  (x.significand * raise 2 x.exponent, raise 2 (-x.exponent))

/-- The magnitude, if it is a whole number. -/
def whole? (x : Binary64) : Option Nat :=
  let (num, den) := x.fraction
  if num % den = 0 then some (num / den) else none

/-! ### Rounding -/

/-- The quotient rounded to the nearest whole number, a half to the even neighbour. -/
def roundQuotient (num den : Nat) : Nat :=
  let floor := num / den
  let rest := 2 * (num % den)
  if rest < den then floor
  else if den < rest then floor + 1
  else floor + floor % 2

/-- The quotient `num / den` scaled down by `2 ^ exponent`, as a fraction. -/
def scaleDown (num den : Nat) (exponent : Int) : Nat × Nat :=
  (num * raise 2 (-exponent), den * raise 2 exponent)

/-- The exponent with which the significand of `num / den` fills its bits, or the least one. -/
def exponentOf (num den : Nat) : Int :=
  if num = 0 then leastExponent else
  let guess := max ((num.log2 : Int) - den.log2 - precision) leastExponent
  let (n, d) := scaleDown num den guess
  if bound ≤ n / d then guess + 1 else guess

/-- The number nearest to a fraction, a tie to the even significand; none if the fraction is
beyond the largest finite number. -/
def ofFraction? (negative : Bool) (num den : Nat) : Option Binary64 :=
  let exponent := exponentOf num den
  let (n, d) := scaleDown num den exponent
  let rounded := roundQuotient n d
  let (significand, exponent) :=
    if rounded = bound then (bound / 2, exponent + 1) else (rounded, exponent)
  if h : IsNormal significand exponent then some ⟨negative, significand, exponent, h⟩ else none

/-- The product of the magnitudes, rounded. -/
def times? (x y : Binary64) : Option Binary64 :=
  ofFraction? x.negative (x.fraction.1 * y.fraction.1) (x.fraction.2 * y.fraction.2)

/-- The quotient of the magnitudes, rounded. -/
def over? (x y : Binary64) : Option Binary64 :=
  ofFraction? x.negative (x.fraction.1 * y.fraction.2) (x.fraction.2 * y.fraction.1)

/-! ### Decimal numerals -/

/-- The greatest power of ten that is finite. -/
def greatestPower : Nat := 308

/-- The number nearest to a power of ten. -/
def powerOfTen (n : Nat) : Binary64 := (ofFraction? false (raise 10 n) 1).getD (zero false)

/-- Divides by a power of ten, by the greatest finite one as often as it fits. -/
def shiftDown? : Nat → Binary64 → Nat → Option Binary64
  | 0, x, _ => some (zero x.negative)
  | fuel + 1, x, n =>
    if n ≤ greatestPower then x.over? (powerOfTen n)
    else do shiftDown? fuel (← x.over? (powerOfTen greatestPower)) (n - greatestPower)

/-- Reads `significand * 10 ^ exponent`: the significand and the power of ten are rounded on
their own, and their product or quotient once more. None if the result is not finite. -/
def ofDecimal? (negative : Bool) (significand : Nat) (exponent : Int) : Option Binary64 := do
  let x ← ofFraction? negative significand 1
  if significand = 0 then some x
  else if exponent < 0 then shiftDown? 4 x (-exponent).toNat
  else if exponent.toNat ≤ greatestPower then x.times? (powerOfTen exponent.toNat)
  else none

end Binary64

end Jukebox
