import Jukebox.Proofs.Protocol.Slots
import Mathlib.Algebra.Order.Field.Power
import Mathlib.Algebra.Order.Field.Rat
import Mathlib.Tactic.Linarith

/-!
Which numbers are read as indices, told by the numbers that they stand for. A number has to be whole
and not negative; it may be written as an integer or as a real number. Below the bound of indices it is
read as itself. A real number beyond the bound is read as the greatest index, and no other numbers
share an index.
-/

namespace Jukebox

/-! ### Values of numbers -/

namespace Binary64

variable {x : Binary64} {n : Nat}

/-- The number without its sign. -/
def magnitude (x : Binary64) : ℚ := x.significand * 2 ^ x.exponent

/-- The number. -/
def value (x : Binary64) : ℚ := if x.negative then -x.magnitude else x.magnitude

theorem cast_raise (exponent : Int) : (raise 2 exponent : ℚ) = 2 ^ exponent.toNat := by
  rw [raise, Nat.pow_eq, Nat.cast_pow, Nat.cast_ofNat]

theorem raise_pos (exponent : Int) : 0 < raise 2 exponent := by
  rw [raise, Nat.pow_eq]
  exact Nat.two_pow_pos _

/-- The fraction of a number is its magnitude: of the two powers in it one has the exponent zero. -/
theorem magnitude_mul_den (x : Binary64) : x.magnitude * x.fraction.2 = x.fraction.1 := by
  have hpower : (2 : ℚ) ^ x.exponent * 2 ^ (-x.exponent).toNat = 2 ^ x.exponent.toNat := by
    rw [← zpow_natCast, ← zpow_natCast, ← zpow_add₀ two_ne_zero]
    congr 1
    omega
  simp only [magnitude, fraction, Nat.cast_mul, cast_raise]
  rw [mul_assoc, hpower]

theorem magnitude_nonneg (x : Binary64) : 0 ≤ x.magnitude :=
  mul_nonneg (Nat.cast_nonneg _) (zpow_nonneg zero_le_two _)

theorem magnitude_eq_zero_iff : x.magnitude = 0 ↔ x.significand = 0 := by
  have hpower : (2 : ℚ) ^ x.exponent ≠ 0 := zpow_ne_zero _ two_ne_zero
  rw [magnitude, mul_eq_zero, or_iff_left hpower, Nat.cast_eq_zero]

theorem whole?_eq_some_iff : x.whole? = some n ↔ x.magnitude = n := by
  have hden : 0 < x.fraction.2 := raise_pos _
  have hfraction : x.magnitude = n ↔ x.fraction.1 = n * x.fraction.2 := by
    rw [← Nat.cast_inj (R := ℚ), ← magnitude_mul_den, Nat.cast_mul]
    exact (mul_left_inj' (Nat.cast_ne_zero.2 hden.ne')).symm
  rw [hfraction, whole?]
  dsimp only
  constructor
  · intro h
    obtain ⟨hdvd, hquotient⟩ := Option.ite_none_right_eq_some.1 h
    rw [← Option.some.inj hquotient, Nat.div_mul_cancel (Nat.dvd_of_mod_eq_zero hdvd)]
  · intro h
    rw [h, Nat.mul_mod_left, if_pos rfl, Nat.mul_div_cancel n hden]

/-- A number that is whole and not negative is its magnitude; it has a minus only if it is zero. -/
theorem value_eq_natCast_iff :
    x.value = n ↔ (x.negative = true → x.significand = 0) ∧ x.magnitude = n := by
  unfold value
  split
  · rename_i hnegative
    simp only [hnegative, forall_const, ← magnitude_eq_zero_iff]
    have hmagnitude := x.magnitude_nonneg
    have hn : (0 : ℚ) ≤ n := n.cast_nonneg
    constructor
    · intro h
      exact ⟨by linarith, by linarith⟩
    · rintro ⟨hzero, h⟩
      linarith
  · rename_i hpositive
    simp [hpositive]

end Binary64

namespace Json.Number

/-- The number that a JSON number stands for. -/
def value : Number → ℚ
  | integer n => n
  | real x => x.value

/-- The number is written as a real number. -/
def IsReal (number : Number) : Prop := ∃ x, number = real x

end Json.Number

namespace Protocol

/-! ### Indices of numbers -/

/-- What a number is read as: an integer as itself, if it is an index, and a real number that is whole
and not negative as itself or, beyond the bound, as the greatest index. -/
theorem index?_number_eq_some_iff {number : Json.Number} {index : Nat} :
    index? (.number number) = some index ↔ ∃ whole : Nat, number.value = whole ∧
      (whole < Key.indexBound ∧ index = whole ∨
        Key.indexBound ≤ whole ∧ number.IsReal ∧ index = Key.indexBound - 1) := by
  cases number with
  | integer n =>
    have hvalue (whole : Nat) : (Json.Number.integer n).value = whole ↔ n = whole := by
      simp only [Json.Number.value]
      exact_mod_cast Iff.rfl
    simp only [index?, hvalue, Option.ite_none_right_eq_some, Option.some.injEq]
    constructor
    · rintro ⟨⟨hsign, hbound⟩, rfl⟩
      exact ⟨n.toNat, by omega, .inl ⟨by omega, rfl⟩⟩
    · rintro ⟨whole, rfl, ⟨hlt, rfl⟩ | ⟨-, ⟨x, ⟨⟩⟩, -⟩⟩
      exact ⟨⟨by omega, by omega⟩, Int.toNat_natCast index⟩
  | real x =>
    have hsign : ¬ (x.negative = true ∧ x.significand ≠ 0) ↔
        (x.negative = true → x.significand = 0) := by
      simp
    simp only [index?, Json.Number.value, Binary64.value_eq_natCast_iff,
      Option.ite_none_left_eq_some, hsign, Option.map_eq_some_iff, Binary64.whole?_eq_some_iff]
    have hreal : (Json.Number.real x).IsReal := ⟨x, rfl⟩
    have hpos : 0 < Key.indexBound := by decide
    constructor
    · rintro ⟨hzero, whole, hwhole, rfl⟩
      refine ⟨whole, ⟨hzero, hwhole⟩, ?_⟩
      rcases Nat.lt_or_ge whole Key.indexBound with hlt | hge
      · exact .inl ⟨hlt, by omega⟩
      · exact .inr ⟨hge, hreal, by omega⟩
    · rintro ⟨whole, ⟨hzero, hwhole⟩, hindex⟩
      exact ⟨hzero, whole, hwhole, by omega⟩

/-- **Indices are read exactly below their bound.** A number is read as an index only if it is whole and
not negative. If it is below the bound, the index is the number; beyond it an integer is none, and a real
number stands for the greatest index. Every other number is reported as mistyped. So two numbers with
one index are equal, unless the index is the greatest one and one of them is a real number beyond the
bound. -/
theorem index_of_number (field : String) (number : Json.Number) :
    (∀ index, Fields.indexOf field (.number number) = .ok index ↔
      ∃ whole : Nat, number.value = whole ∧
        (whole < Key.indexBound ∧ index = whole ∨
          Key.indexBound ≤ whole ∧ number.IsReal ∧ index = Key.indexBound - 1)) ∧
    (∀ failure, Fields.indexOf field (.number number) = .error failure →
      failure = .malformed (.mistyped field "non-negative integer" (.number number))) ∧
    ∀ other index, Fields.indexOf field (.number number) = .ok index →
      Fields.indexOf field (.number other) = .ok index →
      number.value = other.value ∨ index = Key.indexBound - 1 ∧ ∃ beyond ∈ [number, other],
        beyond.IsReal ∧ (Key.indexBound : ℚ) ≤ beyond.value := by
  have hread (number : Json.Number) (index : Nat) :
      Fields.indexOf field (.number number) = .ok index ↔ _ :=
    Fields.indexOf_eq_ok_iff.trans index?_number_eq_some_iff
  refine ⟨hread number, fun failure hfailure => ?_, fun other index hnumber hother => ?_⟩
  · unfold Fields.indexOf at hfailure
    split at hfailure
    · cases hfailure
    · cases hfailure
      rfl
  · obtain ⟨whole, hwhole, ⟨-, rfl⟩ | ⟨hbound, hreal, rfl⟩⟩ := (hread number index).1 hnumber
    · obtain ⟨same, hsame, ⟨-, rfl⟩ | ⟨hbound, hreal, hindex⟩⟩ := (hread other index).1 hother
      · exact .inl (hwhole.trans hsame.symm)
      · exact .inr ⟨hindex, other, by simp, hreal, by rw [hsame]; exact_mod_cast hbound⟩
    · exact .inr ⟨rfl, number, by simp, hreal, by rw [hwhole]; exact_mod_cast hbound⟩

/-- Two may be written as a real number, and only two is read as two; less than nothing is not read. -/
theorem index_of_number_two :
    let two : Binary64 := ⟨false, 2 ^ 52, -51, by decide⟩
    let less : Json := .number (.integer (-1))
    Fields.indexOf "index" (.number (.real two)) = .ok 2 ∧
      (∀ other, Fields.indexOf "index" (.number other) = .ok 2 → (2 : ℚ) = other.value) ∧
      ∀ failure, Fields.indexOf "index" less = .error failure →
        failure = .malformed (.mistyped "index" "non-negative integer" less) := by
  intro two less
  have hvalue : (Json.Number.real two).value = (2 : Nat) := by
    norm_num [Json.Number.value, Binary64.value, Binary64.magnitude, two]
  obtain ⟨hread, -, hshared⟩ := index_of_number "index" (.real two)
  obtain ⟨-, hmistyped, -⟩ := index_of_number "index" (.integer (-1))
  have htwo := (hread 2).2 ⟨2, hvalue, .inl ⟨by decide, rfl⟩⟩
  refine ⟨htwo, fun other hother => ?_, hmistyped⟩
  rcases hshared other 2 htwo hother with heq | ⟨hindex, -⟩
  · exact hvalue.symm.trans heq
  · exact absurd hindex (by decide)

/-- The bound of indices, written as a real number, is read as the greatest index, and so is the
greatest index itself. -/
theorem index_not_exact :
    (¬ ∀ (field : String) (number : Json.Number) (index : Nat),
      Fields.indexOf field (.number number) = .ok index ↔
        number.value = index ∧ index < Key.indexBound) ∧
    ¬ ∀ (field : String) (number other : Json.Number) (index : Nat),
      Fields.indexOf field (.number number) = .ok index →
      Fields.indexOf field (.number other) = .ok index → number.value = other.value := by
  let bound : Binary64 := ⟨false, 2 ^ 52, 12, by decide⟩
  let greatest : Json.Number := .integer (Key.indexBound - 1)
  have hvalue : Json.Number.value (.real bound) = Key.indexBound := by
    norm_num [Json.Number.value, Binary64.value, Binary64.magnitude, bound, Key.indexBound,
      UInt64.size]
  have hbound : Fields.indexOf "index" (.number (.real bound)) = .ok (Key.indexBound - 1) :=
    Fields.indexOf_eq_ok_iff.2
      (index?_number_eq_some_iff.2 ⟨_, hvalue, .inr ⟨le_rfl, ⟨bound, rfl⟩, rfl⟩⟩)
  have hgreatest : Fields.indexOf "index" (.number greatest) = .ok (Key.indexBound - 1) := rfl
  constructor
  · intro h
    have hlt := ((h "index" (.real bound) _).1 hbound).1
    rw [hvalue] at hlt
    norm_num [Key.indexBound, UInt64.size] at hlt
  · intro h
    have heq := h "index" (.real bound) greatest _ hbound hgreatest
    rw [hvalue] at heq
    norm_num [Json.Number.value, greatest, Key.indexBound, UInt64.size] at heq

end Protocol

end Jukebox
