import Jukebox.Service.Basic
import Mathlib.Tactic.Common

/-!
Flags as markings leave them: a path is flagged in a list just if the latest marking of that path in
that list set its flag.
-/

namespace Jukebox

/-! ### Markings -/

/-- A flag is set or cleared. -/
structure Marking where
  list : FlagList
  path : Path
  value : Bool
deriving DecidableEq, Repr

namespace Marking

/-- The value of a marking, if it is one of the path in the list. -/
def valueOf? (list : FlagList) (path : Path) (marking : Marking) : Option Bool :=
  if marking.list = list ∧ marking.path = path then some marking.value else none

/-- The value of the latest marking of a path in a list, if there is one. -/
def latest? (markings : List Marking) (list : FlagList) (path : Path) : Option Bool :=
  markings.reverse.findSome? (valueOf? list path)

theorem latest?_concat (markings : List Marking) (marking : Marking) (list : FlagList)
    (path : Path) : latest? (markings ++ [marking]) list path =
      (marking.valueOf? list path).or (latest? markings list path) := by
  rw [latest?, List.reverse_append, List.findSome?_append, List.reverse_singleton,
    List.findSome?_singleton]
  rfl

theorem latest?_filter (markings : List Marking) (list : FlagList) (path : Path) :
    latest? (markings.filter (·.list = list)) list path = latest? markings list path := by
  have hvalue : ∀ marking : Marking,
      (if marking.list = list then marking.valueOf? list path else none) =
        marking.valueOf? list path := by
    intro marking
    by_cases hlist : marking.list = list <;> simp [valueOf?, hlist]
  simp only [latest?, ← List.head?_filterMap, ← List.filter_reverse, List.filterMap_filter,
    decide_eq_true_eq, hvalue]

end Marking

/-! ### Flags -/

namespace Flags

variable {flags : Flags} {path root : Path} {value : Bool}

theorem mem_assign (flags : Flags) (path : Path) (value : Bool) (other : Path) :
    other ∈ flags.assign path value ↔ if path = other then value = true else other ∈ flags := by
  cases value with
  | true =>
    rw [assign, if_pos rfl, Std.ExtTreeSet.mem_insert, Std.LawfulEqOrd.compare_eq_iff_eq]
    split <;> simp_all
  | false =>
    rw [assign, if_neg (by simp), Std.ExtTreeSet.mem_erase, ne_eq,
      Std.LawfulEqOrd.compare_eq_iff_eq]
    split <;> simp_all

theorem assign_of_contains (h : flags.contains path = value) : flags.assign path value = flags := by
  refine Std.ExtTreeSet.ext_mem fun other => ?_
  rw [mem_assign, ← Std.ExtTreeSet.contains_iff_mem]
  split
  · rename_i heq
    rw [← heq, h]
  · rfl

theorem anyUnder_iff : flags.anyUnder root = true ↔ ∃ path ∈ flags, root <+: path := by
  simp [anyUnder, Path.isUnder]

end Flags

/-! ### Services -/

namespace Service

variable {service after : Service} {markings : List Marking}

theorem flags_withFlags (service : Service) (list other : FlagList) (flags : Flags) :
    (service.withFlags list flags).flags other =
      if list = other then flags else service.flags other := by
  cases list <;> cases other <;> rfl

theorem flags_setFlag (service : Service) (list other : FlagList) (path : Path) (value : Bool) :
    (service.setFlag list path value).1.flags other =
      if list = other then (service.flags other).assign path value else service.flags other := by
  have hflags := service.flags_withFlags list other ((service.flags list).assign path value)
  rw [setFlag, hflags]
  split
  · rename_i heq
    rw [heq]
  · rfl

/-- **The flags are as the markings left them**: a path is flagged just if its latest marking set
its flag. -/
def MarkedBy (service : Service) (markings : List Marking) : Prop :=
  ∀ list path, path ∈ service.flags list ↔ Marking.latest? markings list path = some true

theorem markedBy_nil (h : ∀ list, service.flags list = ∅) : service.MarkedBy [] := by
  intro list path
  simp [h, Marking.latest?]

theorem MarkedBy.contains_iff (h : service.MarkedBy markings) (list : FlagList) (path : Path) :
    (service.flags list).contains path = true ↔
      Marking.latest? markings list path = some true := by
  rw [Std.ExtTreeSet.contains_iff_mem]
  exact h list path

theorem MarkedBy.congr (h : service.MarkedBy markings)
    (hflags : ∀ list, after.flags list = service.flags list) : after.MarkedBy markings := by
  intro list path
  rw [hflags, h]

theorem MarkedBy.setFlag (h : service.MarkedBy markings) (list : FlagList) (path : Path)
    (value : Bool) :
    (service.setFlag list path value).1.MarkedBy (markings ++ [⟨list, path, value⟩]) := by
  intro other below
  rw [flags_setFlag, Marking.latest?_concat, Marking.valueOf?]
  by_cases hlist : list = other
  · rw [if_pos hlist, Flags.mem_assign]
    by_cases hpath : path = below
    · simp [hlist, hpath]
    · simp [hpath, h other below]
  · simp [hlist, h other below]

/-- What is flagged in a list depends on the markings of that list alone. -/
theorem MarkedBy.flags_eq (h : service.MarkedBy markings) {others : List Marking}
    (hafter : after.MarkedBy others) {list : FlagList}
    (hsame : markings.filter (·.list = list) = others.filter (·.list = list)) :
    service.flags list = after.flags list := by
  refine Std.ExtTreeSet.ext_mem fun path => ?_
  rw [h, hafter, ← Marking.latest?_filter markings, hsame, Marking.latest?_filter]

end Service

end Jukebox
