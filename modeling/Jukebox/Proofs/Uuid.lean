import Jukebox.Proofs.Text.Numeral
import Jukebox.Uuid

/-!
An identifier is read back from its text: its hyphens are where they have to be, and between them
are the digits of its value.
-/

namespace Jukebox.Uuid

variable {digits : List Char}

theorem groups_eq (digits : List Char) : digits.take 8 ++ ((digits.drop 8).take 4 ++
    ((digits.drop 12).take 4 ++ ((digits.drop 16).take 4 ++ digits.drop 20))) = digits := by
  have hstep : ∀ start, (digits.drop start).take 4 ++ digits.drop (start + 4) =
      digits.drop start := by
    intro start
    rw [← List.drop_drop, List.take_append_drop]
  rw [hstep 16, hstep 12, hstep 8, List.take_append_drop]

theorem filter_hyphenate (h : '-' ∉ digits) : (hyphenate digits).filter (· ≠ '-') = digits := by
  have hall : digits.filter (· ≠ '-') = digits := by
    rw [List.filter_eq_self]
    intro c hc
    have hne : c ≠ '-' := fun heq => h (heq ▸ hc)
    simpa using hne
  conv_rhs => rw [← hall, ← groups_eq digits]
  simp [hyphenate]

theorem unwrap_hyphenate (hdigits : ∀ c ∈ digits, ∃ digit < 16, c = Nat.digitChar digit)
    (hne : digits ≠ []) : unwrap (hyphenate digits) = hyphenate digits := by
  obtain ⟨first, rest, rfl⟩ := List.exists_cons_of_ne_nil hne
  obtain ⟨digit, hdigit, rfl⟩ := hdigits first List.mem_cons_self
  have hfirst : ∀ digit < 16, Nat.digitChar digit ≠ '\x7b' ∧
      (Nat.digitChar digit).toLower ≠ 'u' := by decide
  obtain ⟨hbrace, hscheme⟩ := hfirst digit hdigit
  have hword : scheme = 'u' :: "rn:uuid:".toList := rfl
  simp [unwrap, hyphenate, hbrace, hword, hscheme]

theorem ofHyphenated?_hyphenate (hdigits : ∀ c ∈ digits, ∃ digit < 16, c = Nat.digitChar digit)
    (hlength : digits.length = 32) {value : Nat} (h : Text.hexadecimal? digits = some value) :
    ofHyphenated? (hyphenate digits) = some ⟨BitVec.ofNat 128 value⟩ := by
  have hdash : '-' ∉ digits := by
    intro hmem
    obtain ⟨digit, hdigit, heq⟩ := hdigits '-' hmem
    revert digit
    decide
  simp only [ofHyphenated?, filter_hyphenate hdash, ofDigits?, hlength, h, if_true, Option.map_some]

/-- **An identifier is read back from its text.** -/
theorem ofText?_text (id : Uuid) : ofText? id.text = some id := by
  have hlt : id.value.toNat < 16 ^ 32 := id.value.isLt
  have hvalue := Text.hexadecimal?_hexadecimal 32 id.value.toNat
  have hlength := Text.length_hexadecimal (by omega) hlt
  have hdigits : ∀ c ∈ (Text.hexadecimal 32 id.value.toNat).toList,
      ∃ digit < 16, c = Nat.digitChar digit := fun c => Text.exists_digitChar_of_mem
  have hunwrap := unwrap_hyphenate hdigits (List.ne_nil_of_length_pos (by omega))
  have hlong : (hyphenate (Text.hexadecimal 32 id.value.toNat).toList).length = 36 := by
    simp [hyphenate, hlength]
  have hread := ofHyphenated?_hyphenate hdigits hlength hvalue
  rw [BitVec.ofNat_toNat, BitVec.setWidth_eq] at hread
  rw [ofText?, text, String.toList_ofList, hlong, if_neg (by omega), hunwrap, hread]

end Jukebox.Uuid
