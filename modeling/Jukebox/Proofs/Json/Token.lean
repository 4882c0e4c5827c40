import Jukebox.Json.Printer
import Jukebox.Json.Token
import Jukebox.Proofs.Text.Numeral
import Mathlib.Data.List.Basic
import Mathlib.Data.List.TakeWhile

/-!
What a printer writes is read as tokens: string literals, whose characters may stand behind a backslash or
be given by their numbers, words, integers, and the marks and spaces between them. Each of these is said
of a text that goes on behind it. Literals and marks end by themselves; a number or a word ends where the
text behind it cannot go on with it (`Ends`).
-/

namespace Jukebox.Json

/-! ### Characters of a string literal -/

namespace Literal

/-- How a character may be written in a literal: as itself, as a letter behind a backslash, or by its
number. -/
inductive Spells (c : Char) : List Char → Prop
  | plain (hquote : c ≠ '"') (hbackslash : c ≠ '\\') (hcontrol : 0x20 ≤ c.toNat) : Spells c [c]
  | letter {letter : Char} (h : escaped? letter = some c) : Spells c ['\\', letter]
  | unit {digits : List Char} (hlength : digits.length = 4)
      (hvalue : Text.hexadecimal? digits = some c.toNat) (hcontrol : c.toNat < 0x20)
      (hplain : ∀ digit ∈ digits, digit ≠ '"' ∧ digit ≠ '\\') : Spells c ('\\' :: 'u' :: digits)

theorem spells_unit {c : Char} (hcontrol : c.toNat < 0x20) :
    Spells c ('\\' :: 'u' :: (Text.hexadecimal 4 c.toNat).toList) := by
  refine .unit (Text.length_hexadecimal (by omega) (by omega)) (Text.hexadecimal?_hexadecimal 4 _)
    hcontrol fun digit hdigit => ?_
  obtain ⟨value, hvalue, rfl⟩ := Text.exists_digitChar_of_mem hdigit
  have hall : ∀ value < 16, Nat.digitChar value ≠ '"' ∧ Nat.digitChar value ≠ '\\' := by decide
  exact hall value hvalue

/-- Every character is written in one of these ways. -/
theorem spells_escape (c : Char) : Spells c (escape c).toList := by
  unfold escape
  split_ifs with hquote hbackslash hback hfeed hline hreturn htab hcontrol
  · exact hquote ▸ .letter rfl
  · exact hbackslash ▸ .letter rfl
  · exact hback ▸ .letter rfl
  · exact hfeed ▸ .letter rfl
  · exact hline ▸ .letter rfl
  · exact hreturn ▸ .letter rfl
  · exact htab ▸ .letter rfl
  · rw [String.toList_append]
    exact spells_unit hcontrol
  · rw [Char.toString_eq_singleton, String.toList_singleton]
    exact .plain hquote hbackslash (by omega)

theorem Spells.pieces?_append {c : Char} {spelled : List Char} (h : Spells c spelled)
    (rest : List Char) : pieces? (spelled ++ rest) = (pieces? rest).map (.char c :: ·) := by
  cases h with
  | plain hquote hbackslash hcontrol =>
    have hread : ¬ (c.toNat < 0x20 ∨ c = '\\') := by
      rintro (h | h)
      · omega
      · exact hbackslash h
    rw [List.singleton_append, pieces?, if_neg hread, Option.bind_eq_bind]
    · cases pieces? rest <;> rfl
    · intros; contradiction
    · intros; contradiction
  | letter h =>
    unfold escaped? at h
    split at h <;> cases h <;> cases hrest : pieces? rest <;> simp [pieces?, escaped?, hrest]
  | unit hlength hvalue hcontrol =>
    rename_i digits _
    obtain ⟨a, b, c', d, rfl⟩ := List.length_eq_four.1 hlength
    have hpiece : unitPiece c.toNat = .char c := by
      rw [unitPiece, if_neg (by omega), Char.ofNat_toNat]
    cases hrest : pieces? rest <;> simp [pieces?, hvalue, hpiece, hrest]

theorem text?_map_char (chars : List Char) : text? (chars.map .char) = some chars := by
  induction chars with
  | nil => rfl
  | cons c rest ih => rw [List.map_cons, text?, ih, Option.map_some]

end Literal

/-- The body of the literal that is written for some characters. -/
def body (chars : List Char) : List Char := chars.flatMap fun c => (escape c).toList

theorem toList_quote (s : String) : (quote s).toList = '"' :: (body s.toList ++ ['"']) := by
  have hbody (chars : List Char) (text : String) :
      (chars.foldl (fun text c => text ++ escape c) text).toList = text.toList ++ body chars := by
    induction chars generalizing text with
    | nil => simp [body]
    | cons c rest ih =>
      rw [List.foldl_cons, ih, String.toList_append, List.append_assoc]
      rfl
  rw [quote, String.toList_append, String.toList_append, hbody]
  rfl

theorem pieces?_body (chars : List Char) : Literal.pieces? (body chars) = some (chars.map .char) := by
  induction chars with
  | nil => rfl
  | cons c rest ih =>
    rw [body, List.flatMap_cons, (Literal.spells_escape c).pieces?_append]
    exact congrArg (Option.map _) ih

/-! ### Tokens of a text -/

namespace Token

variable {text word : List Char} {done : List Token} {token : Token}

theorem ofBody?_body (s : String) : ofBody? (body s.toList) = some (string (some s)) := by
  rw [ofBody?, pieces?_body, Option.map_some, Literal.text?_map_char, Option.map_some,
    String.ofList_toList]

/-- The tokens of a text that is read on from some state of the reader. -/
def Reader.tokens? (reader : Reader) (text : List Char) : Option (List Token) := do
  let reader ← text.foldlM step? reader
  match reader.mode with
  | .between => some reader.done.reverse
  | .bare read => some ((← ofBare? read.reverse) :: reader.done).reverse
  | .quoted _ _ => none

theorem Reader.tokens?_cons (reader : Reader) (c : Char) (text : List Char) :
    reader.tokens? (c :: text) = (step? reader c).bind (·.tokens? text) := by
  rw [tokens?, List.foldlM_cons, bind_assoc]
  rfl

theorem Reader.tokens?_between (done : List Token) (c : Char) (text : List Char) :
    tokens? ⟨done, .between⟩ (c :: text) = (start? done c).bind (·.tokens? text) :=
  tokens?_cons ..

/-- A number or a word ends before this text. -/
def Ends (text : List Char) : Prop := ∀ c ∈ text.head?, isBare c = false

theorem Ends.append {rest : List Char} (htext : Ends text) (hrest : Ends rest) :
    Ends (text ++ rest) := by
  cases text with
  | nil => exact hrest
  | cons c text => exact htext

theorem Reader.tokens?_bare (hword : ∀ c ∈ word, isBare c = true) (hends : Ends text)
    {read : List Char} (htoken : ofBare? (read.reverse ++ word) = some token) :
    tokens? ⟨done, .bare read⟩ (word ++ text) = tokens? ⟨token :: done, .between⟩ text := by
  induction word generalizing read with
  | nil =>
    rw [List.append_nil] at htoken
    cases text with
    | nil => simp [tokens?, htoken]
    | cons c text =>
      have hc : isBare c = false := hends c rfl
      rw [List.nil_append, tokens?_cons, tokens?_cons]
      simp [step?, hc, htoken]
  | cons c word ih =>
    have hc := hword c List.mem_cons_self
    rw [List.cons_append, tokens?_cons, step?]
    simp only [hc, if_true, Option.bind_some]
    exact ih (fun d hd => hword d (List.mem_cons_of_mem _ hd)) (by simpa using htoken)

theorem isBare_of_isSpace {c : Char} (h : isSpace c = true) : isBare c = false := by
  simp only [isSpace, Bool.or_eq_true, beq_iff_eq] at h
  rcases h with ((rfl | rfl) | rfl) | rfl <;> rfl

theorem isBare_of_ofMark? {c : Char} (h : ofMark? c = some token) : isBare c = false := by
  unfold ofMark? at h
  split at h <;> cases h <;> rfl

theorem start?_of_isBare {c : Char} (h : isBare c = true) :
    start? done c = some ⟨done, .bare [c]⟩ := by
  have hspace : isSpace c = false := by
    by_contra hspace
    rw [isBare_of_isSpace (by simpa using hspace)] at h
    cases h
  have hquote : c ≠ '"' := by
    rintro rfl
    cases h
  simp [start?, hspace, hquote, h]

theorem Reader.tokens?_word (hword : ∀ c ∈ word, isBare c = true) (hends : Ends text)
    (htoken : ofBare? word = some token) :
    tokens? ⟨done, .between⟩ (word ++ text) = tokens? ⟨token :: done, .between⟩ text := by
  cases word with
  | nil => cases htoken
  | cons c word =>
    rw [List.cons_append, tokens?_between, start?_of_isBare (hword c List.mem_cons_self)]
    exact tokens?_bare (fun d hd => hword d (List.mem_cons_of_mem _ hd)) hends htoken

theorem Reader.tokens?_plain {chars read : List Char}
    (h : ∀ c ∈ chars, c ≠ '"' ∧ c ≠ '\\') : tokens? ⟨done, .quoted read false⟩ (chars ++ text) =
      tokens? ⟨done, .quoted (chars.reverse ++ read) false⟩ text := by
  induction chars generalizing read with
  | nil => rfl
  | cons c rest ih =>
    obtain ⟨hquote, hbackslash⟩ := h c List.mem_cons_self
    have hstep : step? ⟨done, .quoted read false⟩ c = some ⟨done, .quoted (c :: read) false⟩ := by
      simp [step?, hquote, hbackslash]
    rw [List.cons_append, tokens?_cons, hstep, Option.bind_some,
      ih fun d hd => h d (List.mem_cons_of_mem _ hd), List.reverse_cons, List.append_assoc]
    rfl

theorem Reader.tokens?_backslash (c : Char) (read : List Char) :
    tokens? ⟨done, .quoted read false⟩ ('\\' :: c :: text) =
      tokens? ⟨done, .quoted (c :: '\\' :: read) false⟩ text := by
  rw [tokens?_cons]
  rfl

theorem Reader.tokens?_spells {c : Char} {spelled read : List Char}
    (h : Literal.Spells c spelled) : tokens? ⟨done, .quoted read false⟩ (spelled ++ text) =
      tokens? ⟨done, .quoted (spelled.reverse ++ read) false⟩ text := by
  cases h with
  | plain hquote hbackslash => exact tokens?_plain (by simp [hquote, hbackslash])
  | letter => exact tokens?_backslash ..
  | unit hlength hvalue hcontrol hplain =>
    rw [List.cons_append, List.cons_append, tokens?_backslash, tokens?_plain hplain]
    simp

theorem Reader.tokens?_body (chars read : List Char) :
    tokens? ⟨done, .quoted read false⟩ (body chars ++ text) =
      tokens? ⟨done, .quoted ((body chars).reverse ++ read) false⟩ text := by
  induction chars generalizing read with
  | nil => rfl
  | cons c rest ih =>
    rw [body, List.flatMap_cons, List.append_assoc, tokens?_spells (Literal.spells_escape c)]
    rw [← body, ih, List.reverse_append, List.append_assoc]

/-- A literal is a token, whatever follows it. -/
theorem Reader.tokens?_quote (s : String) :
    tokens? ⟨done, .between⟩ ((quote s).toList ++ text) =
      tokens? ⟨string (some s) :: done, .between⟩ text := by
  have hopen : start? done '"' = some ⟨done, .quoted [] false⟩ := rfl
  have hclose : step? ⟨done, .quoted (body s.toList).reverse false⟩ '"' =
      some ⟨string (some s) :: done, .between⟩ := by
    simp [step?, ofBody?_body]
  rw [toList_quote, List.cons_append, tokens?_between, hopen, Option.bind_some, List.append_assoc,
    tokens?_body, List.append_nil, List.singleton_append, tokens?_cons, hclose, Option.bind_some]

theorem Reader.tokens?_mark {c : Char} (h : ofMark? c = some token) :
    tokens? ⟨done, .between⟩ (c :: text) = tokens? ⟨token :: done, .between⟩ text := by
  have hstart : start? done c = some ⟨token :: done, .between⟩ := by
    unfold ofMark? at h
    split at h <;> cases h <;> rfl
  rw [tokens?_between, hstart, Option.bind_some]

theorem Reader.tokens?_space {c : Char} (h : isSpace c = true) :
    tokens? ⟨done, .between⟩ (c :: text) = tokens? ⟨done, .between⟩ text := by
  rw [tokens?_between, start?, if_pos h, Option.bind_some]

end Token

/-! ### Integers -/

/-- The integer fits a word, with or without a sign. -/
def FitsWord (n : Int) : Prop := -UInt64.size ≤ 2 * n ∧ n < UInt64.size

theorem toList_toString (n : Int) : (toString n).toList =
    (if n < 0 then ['-'] else []) ++ Nat.toDigits 10 n.natAbs := by
  cases n with
  | ofNat n => exact Nat.toList_repr
  | negSucc n =>
    rw [Int.toString_eq_repr, Int.repr, String.toList_append, Nat.toList_repr,
      if_pos (Int.negSucc_lt_zero n)]
    rfl

theorem isDigit_of_mem_toDigits {n : Nat} {c : Char} (h : c ∈ Nat.toDigits 10 n) :
    c.isDigit = true :=
  Nat.isDigit_of_mem_toDigits (by omega) (by omega) h

namespace Numeral

theorem whole?_toDigits (n : Nat) :
    whole? (Nat.toDigits 10 n) = some (Nat.toDigits 10 n, []) := by
  have hdigits : ∀ c ∈ Nat.toDigits 10 n, c.isDigit = true := fun c => isDigit_of_mem_toDigits
  unfold whole?
  split
  · -- a zero in front is all that is written
    rename_i rest heq
    have hzero := Text.eq_zero_of_head?_toDigits (by rw [heq]; rfl)
    rw [hzero, Nat.toDigits_zero] at heq ⊢
    cases heq
    rfl
  · simp [List.takeWhile_eq_self_iff.2 hdigits, List.dropWhile_eq_nil_iff.2 hdigits,
      Nat.toDigits_ne_nil]

theorem ofChars?_toString (n : Int) : ofChars? (toString n).toList =
    some ⟨decide (n < 0), Nat.toDigits 10 n.natAbs, [], false, 0⟩ := by
  rw [toList_toString]
  split
  · rename_i hnegative
    simp [ofChars?, whole?_toDigits, fraction?, exponent?, hnegative]
  · rename_i hpositive
    rw [List.nil_append, ofChars?]
    · simp [whole?_toDigits, fraction?, exponent?, hpositive]
    · intro rest heq
      have hdigit : '-'.isDigit = true := isDigit_of_mem_toDigits (heq ▸ List.mem_cons_self)
      exact absurd hdigit (by decide)

theorem number?_of_fitsWord {n : Int} (h : FitsWord n) :
    number? ⟨decide (n < 0), Nat.toDigits 10 n.natAbs, [], false, 0⟩ = some (.integer n) := by
  obtain ⟨hlow, hhigh⟩ := h
  simp only [number?, Nat.ofDigitChars_ten_toDigits, decide_eq_true_eq, Bool.false_eq_true, if_false]
  split
  · rename_i hnegative
    rw [if_neg (by omega)]
    congr
    omega
  · rename_i hpositive
    rw [if_pos (by omega)]
    congr
    omega

end Numeral

namespace Token

theorem isBare_of_isDigit {c : Char} (h : c.isDigit = true) : isBare c = true := by
  simp [isBare, Char.isAlphanum, h]

theorem isBare_of_mem_toString {n : Int} {c : Char} (h : c ∈ (toString n).toList) :
    isBare c = true := by
  rw [toList_toString, List.mem_append] at h
  rcases h with h | h
  · split at h
    · cases List.mem_singleton.1 h
      rfl
    · cases h
  · exact isBare_of_isDigit (isDigit_of_mem_toDigits h)

theorem ofBare?_toString {n : Int} (h : FitsWord n) :
    ofBare? (toString n).toList = some (number (some (.integer n))) := by
  -- a digit tells it from the three words
  obtain ⟨digit, rest, hdigits⟩ := List.exists_cons_of_ne_nil (@Nat.toDigits_ne_nil n.natAbs 10)
  have hmem : digit ∈ Nat.toDigits 10 n.natAbs := hdigits ▸ List.mem_cons_self
  have hne {word : List Char} (hword : word.any Char.isDigit = false) :
      (toString n).toList ≠ word := by
    rintro rfl
    rw [toList_toString, List.any_append, Bool.or_eq_false_iff] at hword
    exact Bool.eq_false_iff.1 hword.2
      (List.any_eq_true.2 ⟨digit, hmem, isDigit_of_mem_toDigits hmem⟩)
  rw [ofBare?, if_neg (hne rfl), if_neg (hne rfl), if_neg (hne rfl), Numeral.ofChars?_toString,
    Option.map_some, Numeral.number?_of_fitsWord h]

end Token

end Jukebox.Json
