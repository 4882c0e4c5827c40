import Std.Data.ExtTreeMap

/-!
Maps by key: what a map holds after an entry is put in or taken out, and what a map that is made of
a list of entries holds.
-/

namespace Jukebox.Map

variable {κ α : Type} [Ord κ] [Std.TransOrd κ] {map : Std.ExtTreeMap κ α}
  {key other : κ} {value : α}

theorem mem_of_getElem? (h : map[key]? = some value) : key ∈ map :=
  Std.ExtTreeMap.mem_iff_isSome_getElem?.2 (by simp [h])

theorem exists_getElem? (h : key ∈ map) : ∃ value, map[key]? = some value :=
  Option.isSome_iff_exists.1 (Std.ExtTreeMap.mem_iff_isSome_getElem?.1 h)

section

variable [Std.LawfulEqOrd κ]

theorem map_eq_self {change : κ → α → α}
    (h : ∀ key value, map[key]? = some value → change key value = value) :
    map.map change = map := by
  refine Std.ExtTreeMap.ext_getElem? fun key => ?_
  rw [Std.ExtTreeMap.getElem?_map]
  cases hget : map[key]? with
  | none => rfl
  | some value => rw [Option.map_some, h key value hget]

variable [DecidableEq κ]

theorem getElem?_insert (map : Std.ExtTreeMap κ α) (key other : κ) (value : α) :
    (map.insert key value)[other]? = if key = other then some value else map[other]? := by
  rw [Std.ExtTreeMap.getElem?_insert]
  simp

theorem getElem?_erase (map : Std.ExtTreeMap κ α) (key other : κ) :
    (map.erase key)[other]? = if key = other then none else map[other]? := by
  rw [Std.ExtTreeMap.getElem?_erase]
  simp

theorem mem_insert_of_getElem? (h : map[key]? = some value) (replacement : α) :
    other ∈ map.insert key replacement ↔ other ∈ map := by
  simp only [Std.ExtTreeMap.mem_iff_isSome_getElem?, getElem?_insert]
  by_cases heq : key = other
  · simp [← heq, h]
  · simp [heq]

theorem mem_erase : other ∈ map.erase key ↔ key ≠ other ∧ other ∈ map := by
  simp only [Std.ExtTreeMap.mem_iff_isSome_getElem?, getElem?_erase]
  by_cases heq : key = other <;> simp [heq]

/-- A map that is made of entries holds just these, if no two of them differ under one key. -/
theorem getElem?_ofList_eq_some_iff {entries : List (κ × α)}
    (h : ∀ key value other, (key, value) ∈ entries → (key, other) ∈ entries → value = other) :
    (Std.ExtTreeMap.ofList entries)[key]? = some value ↔ (key, value) ∈ entries := by
  have hget : (Std.ExtTreeMap.ofList entries : Std.ExtTreeMap κ α)[key]? =
      entries.reverse.findSome? fun entry => if entry.1 = key then some entry.2 else none := by
    rw [Std.ExtTreeMap.ofList_eq_insertMany_empty, Std.ExtTreeMap.getElem?_insertMany_list,
      ← List.findSomeRev?_eq_findSome?_reverse]
    simp
  rw [hget]
  constructor
  · intro hfind
    obtain ⟨⟨other, found⟩, hmem, hsome⟩ := List.exists_of_findSome?_eq_some hfind
    dsimp only at hsome
    split at hsome
    · rename_i heq
      cases hsome
      exact heq ▸ List.mem_reverse.1 hmem
    · cases hsome
  · intro hmem
    cases hfind : entries.reverse.findSome? fun entry =>
        if entry.1 = key then some entry.2 else none with
    | none =>
      have := List.findSome?_eq_none_iff.1 hfind (key, value) (List.mem_reverse.2 hmem)
      simp at this
    | some found =>
      obtain ⟨⟨other, found⟩, hmemFound, hsome⟩ := List.exists_of_findSome?_eq_some hfind
      dsimp only at hsome
      split at hsome
      · rename_i heq
        cases hsome
        subst heq
        rw [h other found value (List.mem_reverse.1 hmemFound) hmem]
      · cases hsome

theorem ofList_toList (map : Std.ExtTreeMap κ α) : Std.ExtTreeMap.ofList map.toList = map := by
  refine Std.ExtTreeMap.ext_getElem? fun key => Option.ext fun value => ?_
  rw [getElem?_ofList_eq_some_iff, Std.ExtTreeMap.mem_toList_iff_getElem?_eq_some]
  intro key value other hvalue hother
  rw [Std.ExtTreeMap.mem_toList_iff_getElem?_eq_some] at hvalue hother
  exact Option.some.inj (hvalue.symm.trans hother)

end

end Jukebox.Map
