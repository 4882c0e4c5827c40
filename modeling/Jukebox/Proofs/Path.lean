import Jukebox.Path
import Jukebox.Proofs.Text.Numeral
import Mathlib.Tactic.Common

/-!
Paths as prefixes of one another, the one way in which a path that is not empty is the child of
its parent, and the keys of indices: the key of an index is its decimal numeral, and an index is read
of every key that has its digits.
-/

namespace Jukebox

/-! ### Keys of indices -/

namespace Key

variable {key : Key} {index : Nat}

theorem toList_ofIndex (index : Nat) : (ofIndex index).toList = Nat.toDigits 10 index := by
  simp [ofIndex, Nat.toString_eq_repr, Nat.toList_repr]

theorem isNumeral_iff : Text.IsNumeral key.toList index ↔ key = ofIndex index := by
  rw [Text.isNumeral_iff, ← toList_ofIndex, String.toList_inj]

theorem number?_eq_some_iff_isDigits : key.number? = some index ↔
    ∃ digits, (key.toList = digits ∨ key.toList = '+' :: digits) ∧ Text.IsDigits digits index := by
  unfold number?
  dsimp only
  split
  · rename_i rest hplus
    rw [Text.decimal?_eq_some_iff_isDigits]
    constructor
    · intro h
      exact ⟨rest, .inr hplus, h⟩
    · rintro ⟨digits, hdigits | hdigits, h⟩
      · -- a plus is no digit
        have hdigit := h.isDigit '+' (by rw [← hdigits, hplus]; exact List.mem_cons_self)
        exact absurd hdigit (by decide)
      · rw [hplus] at hdigits
        exact (List.cons.inj hdigits).2 ▸ h
  · rename_i hplus
    rw [Text.decimal?_eq_some_iff_isDigits]
    constructor
    · intro h
      exact ⟨key.toList, .inl rfl, h⟩
    · rintro ⟨digits, hdigits | hdigits, h⟩
      · exact hdigits ▸ h
      · exact absurd hdigits (hplus digits)

theorem number?_ofIndex (index : Nat) : (ofIndex index).number? = some index :=
  number?_eq_some_iff_isDigits.2 ⟨_, .inl rfl, (isNumeral_iff.2 rfl).toIsDigits⟩

theorem index?_eq_some_iff : key.index? = some index ↔ index < indexBound ∧
    ∃ digits, (key.toList = digits ∨ key.toList = '+' :: digits) ∧ Text.IsDigits digits index := by
  rw [index?, Option.filter_eq_some_iff, number?_eq_some_iff_isDigits, decide_eq_true_iff, and_comm]

theorem index?_ofIndex (hindex : index < indexBound) : (ofIndex index).index? = some index :=
  index?_eq_some_iff.2 ⟨hindex, number?_eq_some_iff_isDigits.1 (number?_ofIndex index)⟩

theorem ofIndex_injective {i j : Nat} (h : ofIndex i = ofIndex j) : i = j := by
  have hnumber := congrArg number? h
  rw [number?_ofIndex, number?_ofIndex] at hnumber
  exact Option.some.inj hnumber

end Key

namespace Path

variable {path root : Path} {key : Key}

/-! ### Children -/

theorem child_inj {path other : Path} {key otherKey : Key}
    (h : path.child key = other.child otherKey) : path = other ∧ key = otherKey := by
  have := List.append_inj' h rfl
  exact ⟨this.1, List.singleton_inj.1 this.2⟩

theorem child_ofIndex_inj {path other : Path} {i j : Nat}
    (h : path.child (Key.ofIndex i) = other.child (Key.ofIndex j)) : path = other ∧ i = j :=
  (child_inj h).imp_right Key.ofIndex_injective

@[simp] theorem length_child (path : Path) (key : Key) : (path.child key).length = path.length + 1 := by
  simp [child]

@[simp] theorem dropLast_child (path : Path) (key : Key) : (path.child key).dropLast = path := by
  simp [child]

@[simp] theorem getLast?_child (path : Path) (key : Key) : (path.child key).getLast? = some key := by
  simp [child]

theorem child_ne_self (path : Path) (key : Key) : path.child key ≠ path := by
  intro h
  have := congrArg List.length h
  simp at this

theorem eq_child_of_getLast? (h : path.getLast? = some key) : path = child path.dropLast key := by
  obtain ⟨above, rfl⟩ := List.getLast?_eq_some_iff.1 h
  simp [child]

/-! ### Prefixes -/

theorem isUnder_iff : path.isUnder root = true ↔ root <+: path := by
  simp [isUnder]

theorem isBelow_iff : path.isBelow root = true ↔ root <+: path ∧ root ≠ path := by
  rw [isBelow, Bool.and_eq_true, decide_eq_true_iff, isUnder_iff]
  constructor
  · rintro ⟨hlength, hunder⟩
    exact ⟨hunder, fun h => by rw [h] at hlength; omega⟩
  · rintro ⟨hunder, hne⟩
    refine ⟨Nat.lt_of_le_of_ne hunder.length_le fun h => hne ?_, hunder⟩
    exact hunder.eq_of_length h

theorem prefix_child (path : Path) (key : Key) : path <+: path.child key :=
  List.prefix_append path [key]

theorem prefix_child_iff : root <+: path.child key ↔ root = path.child key ∨ root <+: path :=
  List.prefix_concat_iff

theorem child_isBelow_iff : (path.child key).isBelow root = true ↔ root <+: path := by
  rw [isBelow_iff, prefix_child_iff]
  constructor
  · rintro ⟨rfl | h, hne⟩
    · exact absurd rfl hne
    · exact h
  · intro h
    refine ⟨.inr h, fun heq => ?_⟩
    have hlength := h.length_le
    rw [heq, length_child] at hlength
    omega

theorem key_eq_of_child_prefix {below : Path} {other : Key} (h : path.child key <+: below)
    (hother : path.child other <+: below) : key = other := by
  have hunder := List.prefix_of_prefix_length_le h hother (by simp)
  exact (child_inj (hunder.eq_of_length (by simp))).2

/-- What lies at or below a path lies at or below one of its children, or is the path. -/
theorem eq_or_child_prefix (h : root <+: path) : root = path ∨ ∃ key, root.child key <+: path := by
  obtain ⟨rest, rfl⟩ := h
  cases rest with
  | nil => exact .inl (by simp)
  | cons key rest => exact .inr ⟨key, rest, by simp [child]⟩

end Path

end Jukebox
