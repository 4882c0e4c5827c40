import Mathlib.Data.List.Forall2

/-!
Results that may be errors: when a chain of steps, or a step for every element of a list, succeeds.
-/

namespace Jukebox.Result

variable {α β ε : Type}

theorem bind_eq_ok_iff {x : Except ε α} {f : α → Except ε β} {b : β} :
    (x >>= f) = .ok b ↔ ∃ a, x = .ok a ∧ f a = .ok b := by
  cases x <;> simp [bind, Except.bind]

theorem bind_eq_error_iff {x : Except ε α} {f : α → Except ε β} {e : ε} :
    (x >>= f) = .error e ↔ x = .error e ∨ ∃ a, x = .ok a ∧ f a = .error e := by
  cases x <;> simp [bind, Except.bind]

theorem pure_eq_ok_iff {a b : α} : (pure a : Except ε α) = .ok b ↔ a = b := by
  simp [pure, Except.pure]

theorem map_eq_ok_iff {x : Except ε α} {f : α → β} {b : β} :
    x.map f = .ok b ↔ ∃ a, x = .ok a ∧ f a = b := by
  cases x <;> simp [Except.map]

theorem mapM_eq_ok_iff {f : α → Except ε β} {items : List α} {results : List β} :
    items.mapM f = .ok results ↔ List.Forall₂ (fun item result => f item = .ok result) items results := by
  induction items generalizing results with
  | nil => cases results <;> simp [pure_eq_ok_iff]
  | cons item rest ih =>
    simp only [List.mapM_cons, bind_eq_ok_iff, pure_eq_ok_iff, List.forall₂_cons_left_iff, ih]
    constructor
    · rintro ⟨result, hitem, results, hrest, rfl⟩
      exact ⟨result, results, hitem, hrest, rfl⟩
    · rintro ⟨result, results, hitem, hrest, rfl⟩
      exact ⟨result, hitem, results, hrest, rfl⟩

theorem mapM_eq_error_iff {f : α → Except ε β} {items : List α} {e : ε} :
    items.mapM f = .error e ↔ ∃ before item after, items = before ++ item :: after ∧
      (∀ earlier ∈ before, ∃ result, f earlier = .ok result) ∧ f item = .error e := by
  induction items with
  | nil => simp [pure, Except.pure]
  | cons first rest ih =>
    simp only [List.mapM_cons, bind_eq_error_iff, pure, Except.pure, reduceCtorEq, and_false,
      exists_false, or_false, ih]
    constructor
    · rintro (hfirst | ⟨result, hfirst, before, item, after, rfl, hbefore, hitem⟩)
      · exact ⟨[], first, rest, rfl, by simp, hfirst⟩
      · exact ⟨first :: before, item, after, rfl,
          List.forall_mem_cons.2 ⟨⟨result, hfirst⟩, hbefore⟩, hitem⟩
    · rintro ⟨before, item, after, heq, hbefore, hitem⟩
      cases before with
      | nil =>
        cases heq
        exact .inl hitem
      | cons head before =>
        cases heq
        obtain ⟨⟨result, hhead⟩, hbefore⟩ := List.forall_mem_cons.1 hbefore
        exact .inr ⟨result, hhead, before, item, after, rfl, hbefore, hitem⟩

theorem exists_mapM_eq_ok {f : α → Except ε β} {items : List α}
    (h : ∀ item ∈ items, ∃ result, f item = .ok result) : ∃ results, items.mapM f = .ok results := by
  cases hresults : items.mapM f with
  | ok results => exact ⟨results, rfl⟩
  | error e =>
    obtain ⟨before, item, after, rfl, -, herror⟩ := mapM_eq_error_iff.1 hresults
    obtain ⟨result, hresult⟩ := h item (by simp)
    rw [hresult] at herror
    cases herror

theorem findSomeM?_cons (f : α → Except ε (Option β)) (item : α) (rest : List α) :
    (item :: rest).findSomeM? f = match f item with
      | .ok none => rest.findSomeM? f
      | answer => answer := by
  rw [List.findSomeM?]
  rcases f item with error | (_ | found) <;> rfl

theorem findSomeM?_map {γ : Type} (g : γ → α) (f : α → Except ε (Option β)) (items : List γ) :
    (items.map g).findSomeM? f = items.findSomeM? fun item => f (g item) := by
  induction items with
  | nil => rfl
  | cons item rest ih => rw [List.map_cons, findSomeM?_cons, findSomeM?_cons, ih]

theorem findSomeM?_congr {f g : α → Except ε (Option β)} {items : List α}
    (h : ∀ item ∈ items, f item = g item) : items.findSomeM? f = items.findSomeM? g := by
  induction items with
  | nil => rfl
  | cons item rest ih =>
    obtain ⟨hitem, hrest⟩ := List.forall_mem_cons.1 h
    rw [findSomeM?_cons, findSomeM?_cons, hitem, ih hrest]

theorem exists_of_findSomeM?_eq_ok {f : α → Except ε (Option β)} {items : List α} {found : β}
    (h : items.findSomeM? f = .ok (some found)) : ∃ item ∈ items, f item = .ok (some found) := by
  induction items with
  | nil => cases h
  | cons item rest ih =>
    rw [List.findSomeM?] at h
    obtain ⟨answer, hitem, h⟩ := bind_eq_ok_iff.1 h
    cases answer with
    | some first =>
      cases h
      exact ⟨item, List.mem_cons_self, hitem⟩
    | none =>
      obtain ⟨other, hother, hfound⟩ := ih h
      exact ⟨other, List.mem_cons_of_mem item hother, hfound⟩

end Jukebox.Result
