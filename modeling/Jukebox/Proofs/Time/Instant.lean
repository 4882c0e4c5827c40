import Jukebox.Proofs.Text.Numeral
import Jukebox.Time.Instant
import Mathlib.Data.List.TakeDrop

/-!
A point in time is read back from its text: each part of the text is taken by the reader of that
part, and what follows it is left.
-/

namespace Jukebox.Text

namespace Reader

variable {α β : Type} {reader : Reader α} {text rest : List Char} {a : α}

theorem bind_of_eq_some {next : α → Reader β} (h : reader text = some (a, rest)) :
    (reader >>= next) text = next a rest := by
  simp [bind, StateT.bind, h]

theorem get_bind (next : List Char → Reader β) (text : List Char) :
    (get >>= next) text = next text text := rfl

theorem discard_of_eq_some (h : reader text = some (a, rest)) :
    (discard reader : Reader PUnit) text = some (PUnit.unit, rest) := by
  simp [discard, Functor.discard, Functor.mapConst, StateT.map, h]

theorem run_eq (expected : Char → Bool) (text : List Char) :
    run expected text = some (text.takeWhile expected, text.dropWhile expected) := by
  rw [run, get_bind, List.span_eq_takeWhile_dropWhile]
  rfl

theorem one_cons {expected : Char → Bool} {c : Char} (h : expected c = true) :
    one expected (c :: rest) = some (c, rest) := by
  simp [one, get_bind, h]
  rfl

end Reader

theorem isBlank_of_isDigit {c : Char} (h : c.isDigit = true) : isBlank c = false := by
  simp only [Char.isDigit, Bool.and_eq_true, decide_eq_true_eq, ge_iff_le] at h
  have hle : 48 ≤ c.toNat := UInt32.le_iff_toNat_le.1 h.1
  have hge : c.toNat ≤ 57 := UInt32.le_iff_toNat_le.1 h.2
  simp only [isBlank, Bool.or_eq_false_iff, Bool.and_eq_false_iff, decide_eq_false_iff_not,
    beq_eq_false_iff_ne]
  omega

end Jukebox.Text

namespace Jukebox.Time.Instant

open Text (Reader isBlank)
open Text.Reader (bind_of_eq_some)

variable {piece rest : List Char} {limit value : Nat} {c : Char}

theorem skipBlanks_cons (h : isBlank c = false) :
    skipBlanks (c :: rest) = some ((), c :: rest) := by
  have hrun : Reader.run isBlank (c :: rest) = some ([], c :: rest) := by simp [Reader.run_eq, h]
  exact Reader.discard_of_eq_some hrun

theorem mark_cons (h : isBlank c = false) : mark c (c :: rest) = some ((), rest) := by
  rw [mark, bind_of_eq_some (skipBlanks_cons h)]
  exact Reader.discard_of_eq_some (Reader.one_cons (by simp))

theorem digits_append (hne : piece ≠ []) (hdigits : ∀ c ∈ piece, c.isDigit = true)
    (hlimit : piece.length ≤ limit)
    (hend : piece.length = limit ∨ ∀ c, rest.head? = some c → c.isDigit = false) :
    digits limit (piece ++ rest) = some (piece, rest) := by
  have hstop : (rest.take (limit - piece.length)).takeWhile Char.isDigit = [] := by
    rcases hend with hend | hend
    · simp [hend]
    · cases rest with
      | nil => simp
      | cons c after =>
        have hc : c.isDigit = false := hend c rfl
        cases limit - piece.length <;> simp [hc]
  have htaken : ((piece ++ rest).take limit).takeWhile Char.isDigit = piece := by
    rw [List.take_append, List.take_of_length_le hlimit, List.takeWhile_append_of_pos hdigits,
      hstop, List.append_nil]
  simp only [digits, Reader.get_bind, htaken, List.drop_left]
  rw [if_neg (by simpa using hne)]
  rfl

theorem skipBlanks_decimal (width value : Nat) (rest : List Char) :
    skipBlanks ((Text.decimal width value).toList ++ rest) =
      some ((), (Text.decimal width value).toList ++ rest) := by
  obtain ⟨first, others, hpiece⟩ := List.exists_cons_of_ne_nil (@Text.decimal_ne_nil width value)
  have hfirst : first ∈ (Text.decimal width value).toList := by simp [hpiece]
  rw [hpiece]
  exact skipBlanks_cons (Text.isBlank_of_isDigit (Text.isDigit_of_mem_decimal hfirst))

theorem digits_decimal {width : Nat} (hlimit : (Text.decimal width value).toList.length ≤ limit)
    (hend : (Text.decimal width value).toList.length = limit ∨
      ∀ c, rest.head? = some c → c.isDigit = false) :
    digits limit ((Text.decimal width value).toList ++ rest) =
      some ((Text.decimal width value).toList, rest) :=
  digits_append Text.decimal_ne_nil (fun _ => Text.isDigit_of_mem_decimal) hlimit hend

theorem number_decimal (h : value < 100) :
    number 2 ((Text.decimal 2 value).toList ++ rest) = some (value, rest) := by
  have hlength : (Text.decimal 2 value).toList.length = 2 := Text.length_decimal (by omega) h
  rw [number, bind_of_eq_some (skipBlanks_decimal 2 value rest),
    bind_of_eq_some (digits_decimal (Nat.le_of_eq hlength) (.inl hlength)),
    Text.ofDigitChars_decimal]
  rfl

theorem year_minus {text : List Char} (h : digits text.length text = some (piece, rest)) :
    year ('-' :: text) = some (-(Nat.ofDigitChars 10 piece 0 : Int), rest) := by
  rw [year, bind_of_eq_some (@skipBlanks_cons text '-' rfl)]
  change (digits text.length >>= fun piece =>
    pure (-(Nat.ofDigitChars 10 piece 0 : Int)) : Reader Int) text = _
  rw [bind_of_eq_some h]
  rfl

theorem year_plus {text : List Char} (h : digits text.length text = some (piece, rest)) :
    year ('+' :: text) = some ((Nat.ofDigitChars 10 piece 0 : Int), rest) := by
  rw [year, bind_of_eq_some (@skipBlanks_cons text '+' rfl)]
  change (digits text.length >>= fun piece =>
    pure (Nat.ofDigitChars 10 piece 0 : Int) : Reader Int) text = _
  rw [bind_of_eq_some h]
  rfl

theorem year_decimal (h : value < 10000) :
    year ((Text.decimal 4 value).toList ++ rest) = some ((value : Int), rest) := by
  have hlength : (Text.decimal 4 value).toList.length = 4 := Text.length_decimal (by omega) h
  have hread := @digits_decimal rest 4 value 4 (Nat.le_of_eq hlength) (.inl hlength)
  have hvalue := Text.ofDigitChars_decimal 4 value
  obtain ⟨first, others, hpiece⟩ := List.exists_cons_of_ne_nil (@Text.decimal_ne_nil 4 value)
  have hfirst : first.isDigit = true := Text.isDigit_of_mem_decimal (by rw [hpiece]; simp)
  rw [year, bind_of_eq_some (skipBlanks_decimal 4 value rest), Reader.get_bind]
  -- the text starts with a digit, so that no sign is taken off
  generalize htext : (Text.decimal 4 value).toList ++ rest = text at hread ⊢
  rw [hpiece, List.cons_append] at htext
  split
  · cases htext
    cases hfirst
  · cases htext
    cases hfirst
  · rw [bind_of_eq_some hread, hvalue]
    rfl

theorem year_yearText (value : Int) :
    year ((Date.yearText value).toList ++ '-' :: rest) = some (value, '-' :: rest) := by
  have hhyphen : ∀ c, ('-' :: rest).head? = some c → c.isDigit = false := by
    rintro c ⟨⟩
    rfl
  have hread : ∀ limit, (Text.decimal 4 value.natAbs).toList.length ≤ limit →
      digits limit ((Text.decimal 4 value.natAbs).toList ++ '-' :: rest) =
        some ((Text.decimal 4 value.natAbs).toList, '-' :: rest) :=
    fun limit hlimit => digits_decimal hlimit (.inr hhyphen)
  have hsigned := hread ((Text.decimal 4 value.natAbs).toList ++ '-' :: rest).length (by simp)
  have hvalue := Text.ofDigitChars_decimal 4 value.natAbs
  rw [Date.yearText, String.toList_append, List.append_assoc]
  split
  · rename_i hnegative
    have hread := year_minus hsigned
    rw [hvalue, show -(value.natAbs : Int) = value by omega] at hread
    rw [show "-".toList = ['-'] from rfl, List.singleton_append]
    exact hread
  · rename_i hnonnegative
    have hnatAbs : (value.natAbs : Int) = value := by omega
    split
    · have hread := year_plus hsigned
      rw [hvalue, hnatAbs] at hread
      rw [show "+".toList = ['+'] from rfl, List.singleton_append]
      exact hread
    · have hread := @year_decimal ('-' :: rest) value.natAbs (by omega)
      rw [hnatAbs] at hread
      rw [String.toList_empty, List.nil_append]
      exact hread

theorem fraction_dot {text : List Char} (h : digits 9 text = some (piece, ['Z'])) :
    fraction ('.' :: text) = some
      (Nat.ofDigitChars 10 (piece ++ List.replicate (9 - piece.length) '0') 0, ['Z']) := by
  have hrun : Reader.run Char.isDigit ['Z'] = some ([], ['Z']) := rfl
  change (digits 9 >>= fun digits => discard (Reader.run Char.isDigit) >>= fun _ =>
    pure (Nat.ofDigitChars 10 (digits ++ List.replicate (9 - digits.length) '0') 0) : Reader Nat)
      text = _
  rw [bind_of_eq_some h, bind_of_eq_some (Reader.discard_of_eq_some hrun)]
  rfl

theorem fraction_decimal {width : Nat} (hwidth : 0 < width) (hlimit : width ≤ 9)
    (h : value < 10 ^ width) : fraction (("." ++ Text.decimal width value).toList ++ ['Z']) =
      some (10 ^ (9 - width) * value, ['Z']) := by
  have hlength := Text.length_decimal hwidth h
  have hread := @digits_decimal ['Z'] 9 value width (by omega) (.inr (by simp))
  have hdot : ("." ++ Text.decimal width value).toList ++ ['Z'] =
      '.' :: ((Text.decimal width value).toList ++ ['Z']) := by
    rw [String.toList_append, List.append_assoc, show ".".toList = ['.'] from rfl,
      List.singleton_append]
  rw [hdot, fraction_dot hread, Nat.ofDigitChars_append, Text.ofDigitChars_decimal,
    Nat.ofDigitChars_replicate_zero, hlength]

theorem fraction_fractionText {nanosecond : Nat} (h : nanosecond < 1000000000) :
    fraction ((fractionText nanosecond).toList ++ ['Z']) = some (nanosecond, ['Z']) := by
  unfold fractionText
  split
  · rename_i hzero
    rw [hzero]
    rfl
  · split
    · rename_i hmillis
      rw [fraction_decimal (by omega) (by omega) (by omega)]
      congr 2
      omega
    · split
      · rename_i hmicros
        rw [fraction_decimal (by omega) (by omega) (by omega)]
        congr 2
        omega
      · rw [fraction_decimal (by omega) (by omega) (by omega)]
        congr 2
        omega

theorem toList_text (time : Instant) : time.text.toList =
    (Date.yearText time.date.year).toList ++ '-' :: ((Text.decimal 2 time.date.month).toList ++
    '-' :: ((Text.decimal 2 time.date.day).toList ++
    'T' :: ((Text.decimal 2 (time.minuteOfDay / 60)).toList ++
    ':' :: ((Text.decimal 2 (time.minuteOfDay % 60)).toList ++
    ':' :: ((Text.decimal 2 time.second).toList ++
    ((fractionText time.nanosecond).toList ++ ['Z'])))))) := by
  simp [text, Date.text, String.toList_append]

theorem daysIn_le (year : Int) (month : Nat) : daysIn year month ≤ 31 := by
  unfold daysIn
  split
  · split <;> omega
  · split <;> omega

theorem toUtc_zero (date : Date) {minuteOfDay : Nat} (h : minuteOfDay < 1440) :
    toUtc date minuteOfDay 0 = (date, minuteOfDay) := by
  have hnonneg : ¬ (minuteOfDay : Int) < 0 := by omega
  have hlt : (minuteOfDay : Int) < 1440 := by omega
  simp [toUtc, hnonneg, hlt]

theorem ofParts?_eq (time : Instant) :
    ofParts? time.date time.minuteOfDay time.second time.nanosecond = some time :=
  dif_pos time.valid

/-- **A point in time is read back from its text.** -/
theorem ofText?_text (time : Instant) : ofText? time.text = some time := by
  obtain ⟨hdate, hminute, hsecond, hnanosecond⟩ := time.valid
  have hdays := daysIn_le time.date.year time.date.month
  have hbounds := hdate
  simp only [Date.isValid, Bool.and_eq_true, decide_eq_true_eq] at hbounds
  have hoffset : offset ['Z'] = some (0, []) := rfl
  have hskip : skipBlanks [] = some ((), []) := rfl
  have hsplit : 60 * (time.minuteOfDay / 60) + time.minuteOfDay % 60 = time.minuteOfDay := by omega
  have hhour : time.minuteOfDay / 60 < 24 := by omega
  have hclock : time.minuteOfDay % 60 < 60 := by omega
  have hutc : toUtc ⟨time.date.year, time.date.month, time.date.day⟩ time.minuteOfDay 0 =
      (time.date, time.minuteOfDay) := toUtc_zero time.date hminute
  -- part by part, in the order of the reader
  have hreader : reader time.text.toList = some (time, []) := by
    rw [toList_text, reader, bind_of_eq_some (year_yearText _), bind_of_eq_some (mark_cons rfl),
      bind_of_eq_some (number_decimal (by omega)), bind_of_eq_some (mark_cons rfl),
      bind_of_eq_some (number_decimal (by omega)),
      bind_of_eq_some (Reader.discard_of_eq_some (Reader.one_cons rfl)),
      bind_of_eq_some (number_decimal (by omega)), bind_of_eq_some (mark_cons rfl),
      bind_of_eq_some (number_decimal (by omega)), bind_of_eq_some (mark_cons rfl),
      bind_of_eq_some (number_decimal (by omega)),
      bind_of_eq_some (fraction_fractionText hnanosecond), bind_of_eq_some (skipBlanks_cons rfl),
      bind_of_eq_some hoffset, bind_of_eq_some hskip]
    simp [hsplit, hhour, hclock, hdate, hutc, ofParts?_eq]
    rfl
  rw [ofText?, Reader.whole?, hreader]

end Jukebox.Time.Instant
