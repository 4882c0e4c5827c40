import Jukebox.Catalog.Codec
import Jukebox.Proofs.Json.Order
import Mathlib.Data.List.Forall2

/-!
Groups as they are sent. What is found in a value that shows a group, by the names of the members, is what
the view of the group holds: its path, and for each child in turn the key and the marks of that child.
-/

namespace Jukebox

theorem exists_mem_of_forall₂ {R : α → β → Prop} {first : List α} {second : List β}
    (h : List.Forall₂ R first second) {a : α} (ha : a ∈ first) : ∃ b ∈ second, R a b := by
  induction h with
  | nil => cases ha
  | cons hhead _ ih =>
    rcases List.mem_cons.1 ha with rfl | ha
    · exact ⟨_, List.mem_cons_self, hhead⟩
    · obtain ⟨b, hb, hab⟩ := ih ha
      exact ⟨b, List.mem_cons_of_mem _ hb, hab⟩

theorem Path.inOrder_toJson (path : Path) : path.toJson.InOrder := by
  refine Json.inOrder_array fun item hitem => ?_
  obtain ⟨key, -, rfl⟩ := List.mem_map.1 hitem
  rfl

/-- What is found in a value that shows a child. -/
structure ChildView.ShownBy (child : ChildView) (shown : Json) : Prop where
  key : shown.member? "Key" = some (.string child.key)
  name : shown.member? "Name" = some (.string child.name)
  favourite : shown.member? "Favourite" = some (.bool child.favourite)
  checklist : shown.member? "Checklist" = some (.bool child.checklist)

theorem ChildView.shownBy_toJson (child : ChildView) : child.ShownBy child.toJson.sorted := by
  rw [toJson]
  constructor <;> rw [Json.member?_sorted_object] <;> rfl

/-- What is found in a value that shows a group. -/
structure GroupView.ShownBy (view : GroupView) (shown : Json) : Prop where
  path : shown.member? "Path" = some (.list .string view.path)
  name : shown.member? "Name" = some (.string view.name)
  groups : ∃ children, shown.member? "Groups" = some (.array children) ∧
    List.Forall₂ ChildView.ShownBy view.groups children
  tracks : shown.member? "Tracks" = some (Json.list Track.toJson view.tracks).sorted
  favourite : shown.member? "Favourite" = some (.bool view.favourite)
  checklist : shown.member? "Checklist" = some (.bool view.checklist)

theorem GroupView.shownBy_toJson (view : GroupView) : view.ShownBy view.toJson.sorted := by
  have hpath : view.path.toJson.sorted = view.path.toJson := view.path.inOrder_toJson
  rw [toJson]
  constructor <;> rw [Json.member?_sorted_object]
  · exact congrArg some hpath
  · rfl
  · refine ⟨_, congrArg some (Json.sorted_list ChildView.toJson view.groups), ?_⟩
    rw [List.forall₂_map_right_iff, List.forall₂_same]
    exact fun child _ => child.shownBy_toJson
  all_goals rfl

end Jukebox
