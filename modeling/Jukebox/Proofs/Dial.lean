import Mathlib.Logic.Function.Iterate
import Mathlib.Tactic.Common

/-!
Dials. A dial over a row of things points at one of them, by its index, or at nothing. Turned
forward it goes through the row, to nothing, and through the row again; turned backward it stops at
the first index, and nothing stays.
-/

namespace Jukebox

/-- Where a dial points: at an index, or at nothing. -/
abbrev Dial := Option Nat

namespace Dial

variable {count index : Nat} {dial : Dial}

/-- The dial turned forward over a row of that many things. -/
def next (count : Nat) : Dial → Dial
  | none => if 0 < count then some 0 else none
  | some index => if index + 1 < count then some (index + 1) else none

/-- The index before the one that the dial points at. -/
def before? : Dial → Option Nat
  | some (index + 1) => some index
  | _ => none

/-- The dial turned backward: to the index before, or not at all. -/
def prev (dial : Dial) : Dial := dial.before?.or dial

/-- The dial points into a row of that many things, or at nothing. -/
def InRow (dial : Dial) (count : Nat) : Prop := ∀ index, dial = some index → index < count

theorem inRow_none : InRow none count := by
  rintro index ⟨⟩

theorem inRow_some : InRow (some index) count ↔ index < count := by
  simp [InRow]

theorem inRow_next (dial : Dial) (count : Nat) : (next count dial).InRow count := by
  intro index h
  cases dial <;> simp only [next, Option.ite_none_right_eq_some, Option.some.injEq] at h <;> omega

theorem InRow.before? (h : dial.InRow count) : InRow dial.before? count := by
  rcases dial with _ | _ | index
  · exact inRow_none
  · exact inRow_none
  · have := inRow_some.1 h
    exact inRow_some.2 (by omega)

theorem inRow_next_iterate (count turns : Nat) : InRow ((next count)^[turns] none) count := by
  cases turns with
  | zero => exact inRow_none
  | succ turns =>
    rw [Function.iterate_succ_apply']
    exact inRow_next _ count

/-! ### Things in a row -/

section

variable {α : Type} (items : List α)

theorem bind_next_none : (next items.length none).bind (items[·]?) = items[0]? := by
  cases items <;> rfl

theorem bind_next_some (index : Nat) :
    (next items.length (some index)).bind (items[·]?) = items[index + 1]? := by
  rw [next]
  split
  · rfl
  · rename_i hge
    exact (List.getElem?_eq_none (Nat.le_of_not_lt hge)).symm

theorem bind_before?_some (index : Nat) : (before? (some index)).bind (items[·]?) =
    if index = 0 then none else items[index - 1]? := by
  cases index <;> rfl

end

/-! ### Undoing a turn -/

theorem next_prev (h : dial.InRow count) (hmoves : dial.prev ≠ dial) :
    next count dial.prev = dial := by
  rcases dial with _ | _ | index
  · exact absurd rfl hmoves
  · exact absurd rfl hmoves
  · exact if_pos (inRow_some.1 h)

/-- Turning backward undoes a turn forward, unless that led from nothing to the first index or from
the last to nothing. -/
theorem prev_next (hmoves : prev (next count dial) ≠ next count dial) :
    prev (next count dial) = dial := by
  cases dial with
  | none =>
    rw [next] at hmoves
    split at hmoves <;> exact absurd rfl hmoves
  | some index =>
    rw [next] at hmoves ⊢
    split at hmoves
    · rename_i hlt
      rw [if_pos hlt]
      rfl
    · exact absurd rfl hmoves

/-! ### Rounds -/

theorem next_of_le {turns : Nat} (h : turns ≤ count) :
    next count (if turns = 0 then none else some (turns - 1)) =
      if turns = count then none else some turns := by
  cases turns with
  | zero =>
    simp only [if_true, next]
    split <;> split <;> first | rfl | omega
  | succ turns =>
    simp only [Nat.add_one_ne_zero, if_false, next, Nat.add_sub_cancel]
    split <;> split <;> first | rfl | omega

/-- **A dial turns in rounds.** From nothing, a round leads through every index in order and back to
nothing. -/
theorem next_iterate (count turns : Nat) : (next count)^[turns] none =
    if turns % (count + 1) = 0 then none else some (turns % (count + 1) - 1) := by
  induction turns with
  | zero => rfl
  | succ turns ih =>
    have hle : turns % (count + 1) ≤ count := Nat.le_of_lt_succ (Nat.mod_lt turns count.succ_pos)
    rw [Function.iterate_succ_apply', ih, next_of_le hle]
    have hsucc : (turns + 1) % (count + 1) = (turns % (count + 1) + 1) % (count + 1) := by
      rw [Nat.mod_add_mod]
    rw [hsucc]
    by_cases hlast : turns % (count + 1) = count
    · rw [if_pos hlast, hlast, Nat.mod_self, if_pos rfl]
    · have hlt : turns % (count + 1) + 1 < count + 1 := by omega
      rw [if_neg hlast, Nat.mod_eq_of_lt hlt, if_neg (Nat.succ_ne_zero _), Nat.add_sub_cancel]

end Dial

end Jukebox
