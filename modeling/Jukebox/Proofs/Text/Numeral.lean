import Jukebox.Text.Numeral
import Mathlib.Algebra.Ring.Nat
import Mathlib.Data.List.Induction
import Mathlib.Data.Nat.Digits.Defs
import Mathlib.Tactic.Common

/-!
Numerals that are filled up with zeros write the number whose digits they hold, and have the width
that was asked for if the number is small enough. No other decimal numeral writes a number: what is read
as one are the digits of its value, and without zeros in front of them there is one numeral for each.
-/

namespace Jukebox.Text

variable {width value : Nat} {digits : List Char} {c : Char}

/-! ### Hexadecimal numerals -/

theorem hexDigit?_digitChar {digit : Nat} (h : digit < 16) :
    hexDigit? digit.digitChar = some digit := by
  revert digit
  decide

theorem hexadecimal?_concat (digits : List Char) (c : Char) : hexadecimal? (digits ++ [c]) =
    (hexadecimal? digits).bind fun value => (hexDigit? c).map fun digit => 16 * value + digit := by
  unfold hexadecimal?
  rw [List.mapM_append, List.mapM_cons, List.mapM_nil]
  cases digits.mapM hexDigit? with
  | none => rfl
  | some values =>
    cases hexDigit? c with
    | none => rfl
    | some digit => simp [List.foldl_append]

theorem hexadecimal?_toDigits (value : Nat) :
    hexadecimal? (Nat.toDigits 16 value) = some value := by
  induction value using Nat.strongRecOn with
  | ind value ih =>
    rw [Nat.toDigits_eq_if (by omega)]
    split
    · rename_i hlt
      simp [hexadecimal?, hexDigit?_digitChar hlt]
    · rename_i hge
      rw [hexadecimal?_concat, ih (value / 16) (by omega), hexDigit?_digitChar (by omega)]
      simp only [Option.map_some, Option.bind_some, Option.some.injEq]
      omega

theorem hexadecimal?_zero_cons (digits : List Char) :
    hexadecimal? ('0' :: digits) = hexadecimal? digits := by
  have hzero : hexDigit? '0' = some 0 := by decide
  unfold hexadecimal?
  rw [List.mapM_cons, hzero]
  cases digits.mapM hexDigit? <;> simp

theorem hexadecimal?_hexadecimal (width value : Nat) :
    hexadecimal? (hexadecimal width value).toList = some value := by
  rw [hexadecimal, String.toList_ofList]
  generalize width - (Nat.toDigits 16 value).length = zeros
  induction zeros with
  | zero => exact hexadecimal?_toDigits value
  | succ zeros ih => rw [List.replicate_succ, List.cons_append, hexadecimal?_zero_cons, ih]

theorem length_hexadecimal (hwidth : 0 < width) (h : value < 16 ^ width) :
    (hexadecimal width value).toList.length = width := by
  have hle : (Nat.toDigits 16 value).length ≤ width :=
    (Nat.length_toDigits_le_iff (by omega) hwidth).2 h
  simp only [hexadecimal, String.toList_ofList, List.length_append, List.length_replicate]
  omega

theorem exists_digitChar_of_mem_toDigits (h : c ∈ Nat.toDigits 16 value) :
    ∃ digit < 16, c = digit.digitChar := by
  induction value using Nat.strongRecOn with
  | ind value ih =>
    rw [Nat.toDigits_eq_if (by omega)] at h
    split at h
    · rename_i hlt
      exact ⟨value, hlt, List.mem_singleton.1 h⟩
    · rename_i hge
      rcases List.mem_append.1 h with h | h
      · exact ih (value / 16) (by omega) h
      · exact ⟨value % 16, by omega, List.mem_singleton.1 h⟩

theorem exists_digitChar_of_mem (h : c ∈ (hexadecimal width value).toList) :
    ∃ digit < 16, c = digit.digitChar := by
  rw [hexadecimal, String.toList_ofList, List.mem_append] at h
  rcases h with h | h
  · exact ⟨0, by omega, List.eq_of_mem_replicate h⟩
  · exact exists_digitChar_of_mem_toDigits h

/-! ### Decimal numerals -/

theorem isDigit_of_mem_decimal (h : c ∈ (decimal width value).toList) : c.isDigit = true := by
  rw [decimal, String.toList_ofList, List.mem_append] at h
  rcases h with h | h
  · rw [List.eq_of_mem_replicate h]
    decide
  · exact Nat.isDigit_of_mem_toDigits (by omega) (by omega) h

theorem ofDigitChars_decimal (width value : Nat) :
    Nat.ofDigitChars 10 (decimal width value).toList 0 = value := by
  rw [decimal, String.toList_ofList, Nat.ofDigitChars_append, Nat.ofDigitChars_replicate_zero,
    Nat.mul_zero, Nat.ofDigitChars_ten_toDigits]

theorem length_decimal (hwidth : 0 < width) (h : value < 10 ^ width) :
    (decimal width value).toList.length = width := by
  have hle : (Nat.toDigits 10 value).length ≤ width :=
    (Nat.length_toDigits_le_iff (by omega) hwidth).2 h
  simp only [decimal, String.toList_ofList, List.length_append, List.length_replicate]
  omega

theorem decimal_ne_nil : (decimal width value).toList ≠ [] := by
  simp [decimal, Nat.toDigits_ne_nil]

theorem exists_digitChar_of_isDigit (h : c.isDigit = true) :
    ∃ digit < 10, c = digit.digitChar ∧ c.toNat - '0'.toNat = digit := by
  obtain ⟨hlow, hhigh⟩ := Char.isDigit_iff_toNat.1 h
  have hlow : 48 ≤ c.toNat := hlow
  have hhigh : c.toNat ≤ 57 := hhigh
  have hdigit : ∀ digit < 10, (Nat.digitChar digit).toNat = 48 + digit := by decide
  have hlt : c.toNat - 48 < 10 := by omega
  refine ⟨c.toNat - 48, hlt, ?_, rfl⟩
  apply Char.toNat_inj.1
  rw [hdigit _ hlt]
  omega

theorem eq_zero_of_head?_toDigits {value : Nat}
    (h : (Nat.toDigits 10 value).head? = some '0') : value = 0 := by
  induction value using Nat.strongRecOn with
  | ind value ih =>
    rw [Nat.toDigits_eq_if (by omega)] at h
    split at h
    · rename_i hlt
      have hall : ∀ digit < 10, Nat.digitChar digit = '0' → digit = 0 := by decide
      exact hall value hlt (Option.some.inj h)
    · rename_i hge
      obtain ⟨first, rest, hdigits⟩ := List.exists_cons_of_ne_nil (@Nat.toDigits_ne_nil (value / 10) 10)
      have hzero := ih (value / 10) (by omega) (by rw [hdigits] at h ⊢; exact h)
      omega

/-- Digits are those of the number they write, filled up with zeros. The induction adds the last digit:
behind zeros alone it only makes the width greater. -/
theorem exists_decimal_of_isDigit (hne : digits ≠ []) (hdigits : ∀ c ∈ digits, c.isDigit = true) :
    ∃ width, digits = (decimal width (Nat.ofDigitChars 10 digits 0)).toList := by
  suffices h : ∃ zeros, digits =
      List.replicate zeros '0' ++ Nat.toDigits 10 (Nat.ofDigitChars 10 digits 0) by
    obtain ⟨zeros, hzeros⟩ := h
    refine ⟨zeros + (Nat.toDigits 10 (Nat.ofDigitChars 10 digits 0)).length, ?_⟩
    rw [decimal, String.toList_ofList, Nat.add_sub_cancel]
    exact hzeros
  induction digits using List.reverseRecOn with
  | nil => exact absurd rfl hne
  | append_singleton first last ih =>
    obtain ⟨digit, hlt, rfl, hvalue⟩ :=
      exists_digitChar_of_isDigit (hdigits last (List.mem_append_right _ List.mem_cons_self))
    have hnumber : Nat.ofDigitChars 10 (first ++ [digit.digitChar]) 0 =
        10 * Nat.ofDigitChars 10 first 0 + digit := by
      rw [Nat.ofDigitChars_append, Nat.ofDigitChars_cons, Nat.ofDigitChars_nil, hvalue]
    rw [hnumber]
    by_cases hfirst : first = []
    · refine ⟨0, ?_⟩
      rw [hfirst, Nat.ofDigitChars_nil, Nat.mul_zero, Nat.zero_add, Nat.toDigits_of_lt_base hlt]
      rfl
    obtain ⟨zeros, hzeros⟩ := ih hfirst fun c hc => hdigits c (List.mem_append_left _ hc)
    rcases Nat.eq_zero_or_pos (Nat.ofDigitChars 10 first 0) with hzero | hpos
    · refine ⟨zeros + 1, ?_⟩
      have hfirst : first = List.replicate zeros '0' ++ ['0'] := by
        rw [hzero] at hzeros
        exact hzeros
      rw [hzero, Nat.mul_zero, Nat.zero_add, Nat.toDigits_of_lt_base hlt, hfirst,
        List.replicate_succ']
    · refine ⟨zeros, ?_⟩
      rw [← Nat.toDigits_append_toDigits (by omega) hpos hlt, Nat.toDigits_of_lt_base hlt,
        ← List.append_assoc, ← hzeros]

/-- What writes a number is its digits, filled up with zeros to some width. -/
theorem decimal?_eq_some_iff :
    decimal? digits = some value ↔ ∃ width, digits = (decimal width value).toList := by
  constructor
  · intro h
    obtain ⟨⟨hne, hall⟩, heq⟩ := Option.ite_none_right_eq_some.1 h
    obtain ⟨width, hwidth⟩ := exists_decimal_of_isDigit hne (List.all_eq_true.1 hall)
    rw [Option.some.inj heq] at hwidth
    exact ⟨width, hwidth⟩
  · rintro ⟨width, rfl⟩
    have hall : (decimal width value).toList.all Char.isDigit = true :=
      List.all_eq_true.2 fun c hc => isDigit_of_mem_decimal hc
    rw [decimal?, if_pos ⟨decimal_ne_nil, hall⟩, ofDigitChars_decimal]

/-! ### Digits and their values -/

/-- One or more ASCII digits of this value: the last counts ones, the one before it tens, and so on.
Zeros may stand in front. -/
structure IsDigits (digits : List Char) (value : Nat) : Prop where
  ne_nil : digits ≠ []
  isDigit : ∀ c ∈ digits, c.isDigit = true
  value_eq : Nat.ofDigits 10 (digits.reverse.map fun c => c.toNat - '0'.toNat) = value

/-- The decimal numeral of a number: digits of its value, of which the first is a zero only if it is the
only one. -/
structure IsNumeral (digits : List Char) (value : Nat) : Prop extends IsDigits digits value where
  alone : digits.head? = some '0' → digits = ['0']

theorem ofDigitChars_eq_ofDigits (digits : List Char) : Nat.ofDigitChars 10 digits 0 =
    Nat.ofDigits 10 (digits.reverse.map fun c => c.toNat - '0'.toNat) := by
  induction digits using List.reverseRecOn with
  | nil => rfl
  | append_singleton first last ih =>
    rw [Nat.ofDigitChars_append, Nat.ofDigitChars_cons, Nat.ofDigitChars_nil, ih, List.reverse_concat,
      List.map_cons, Nat.ofDigits_cons, Nat.add_comm]

theorem decimal?_eq_some_iff_isDigits : decimal? digits = some value ↔ IsDigits digits value := by
  rw [decimal?, Option.ite_none_right_eq_some, List.all_eq_true, Option.some.injEq,
    ofDigitChars_eq_ofDigits]
  constructor
  · rintro ⟨⟨hne, hdigits⟩, hvalue⟩
    exact ⟨hne, hdigits, hvalue⟩
  · rintro ⟨hne, hdigits, hvalue⟩
    exact ⟨⟨hne, hdigits⟩, hvalue⟩

theorem isNumeral_iff : IsNumeral digits value ↔ digits = Nat.toDigits 10 value := by
  constructor
  · rintro ⟨hdigits, halone⟩
    obtain ⟨width, hwidth⟩ := decimal?_eq_some_iff.1 (decimal?_eq_some_iff_isDigits.2 hdigits)
    rw [decimal, String.toList_ofList] at hwidth
    cases hzeros : width - (Nat.toDigits 10 value).length with
    | zero => rw [hwidth, hzeros, List.replicate_zero, List.nil_append]
    | succ zeros =>
      -- a zero was filled in, so it is the only digit, and there is no room for the digits of the number
      rw [hzeros, List.replicate_succ, List.cons_append] at hwidth
      have honly := halone (by rw [hwidth]; rfl)
      rw [hwidth] at honly
      have hnil := (List.append_eq_nil_iff.1 (List.cons.inj honly).2).2
      exact absurd hnil Nat.toDigits_ne_nil
  · rintro rfl
    refine ⟨decimal?_eq_some_iff_isDigits.1 (decimal?_toDigits value), fun hhead => ?_⟩
    rw [eq_zero_of_head?_toDigits hhead, Nat.toDigits_zero]

end Jukebox.Text
