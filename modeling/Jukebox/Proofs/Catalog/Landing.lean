import Jukebox.Proofs.Catalog.Basic

/-!
Where walks end up. In any catalog, however broken, what a walk below a root comes to is a track
below that root: a descent ends at an index of a leaf, and a climb stays among the siblings that the
ancestors list.
-/

namespace Jukebox

open Result (bind_eq_ok_iff pure_eq_ok_iff exists_of_findSomeM?_eq_ok)

namespace Direction

variable (direction : Direction) {index count next : Nat}

theorem firstIndex_lt (h : 0 < count) : direction.firstIndex count < count := by
  cases direction with
  | forward => exact h
  | backward => exact Nat.sub_lt h Nat.one_pos

theorem nextIndex?_lt (h : index < count) (hnext : direction.nextIndex? index count = some next) :
    next < count := by
  cases direction with
  | forward =>
    obtain ⟨hlt, heq⟩ := Option.ite_none_right_eq_some.1 hnext
    cases heq
    exact hlt
  | backward =>
    obtain ⟨-, heq⟩ := Option.ite_none_right_eq_some.1 hnext
    cases heq
    omega

end Direction

namespace Catalog

variable {catalog : Catalog} {direction : Direction} {root path track : Path} {levels : Nat}

/-- A leaf at or below a root has a track under its index. -/
def HasTrack (catalog : Catalog) (root track : Path) : Prop :=
  ∃ (leaf : Path) (group : Group) (index : Nat), root <+: leaf ∧ catalog.group? leaf = some group ∧
    group.keys = [] ∧ index < group.tracks.length ∧ track = leaf.child (Key.ofIndex index)

theorem HasTrack.ensureTrack (h : catalog.HasTrack root track) :
    catalog.ensureTrack root track = .ok () := by
  obtain ⟨leaf, group, index, hroot, hgroup, hkeys, hindex, rfl⟩ := h
  exact ensureTrack_eq_ok_iff.2 ⟨_, locate_eq_ok_iff.2
    ⟨leaf, _, index, group, rfl, hroot, Key.number?_ofIndex index, hgroup, hkeys, hindex, rfl⟩⟩

theorem HasTrack.root_prefix (h : catalog.HasTrack root track) : root <+: track := by
  obtain ⟨leaf, group, index, hroot, -, -, -, rfl⟩ := h
  exact hroot.trans (Path.prefix_child leaf _)

theorem hasTrack_of_edgeWithin (hroot : root <+: path)
    (h : catalog.edgeWithin direction levels path = .ok (some track)) :
    catalog.HasTrack root track := by
  induction levels generalizing path with
  | zero => cases h
  | succ levels ih =>
    obtain ⟨group, hgroup, h⟩ := bind_eq_ok_iff.1 h
    obtain ⟨kind, hkind, h⟩ := bind_eq_ok_iff.1 h
    cases kind with
    | leaf tracks =>
      obtain ⟨hkeys, rfl, hne⟩ := Group.kind_eq_leaf_iff.1 hkind
      cases pure_eq_ok_iff.1 h
      exact ⟨path, group, _, hroot, listed_eq_ok_iff.1 hgroup, hkeys,
        direction.firstIndex_lt (List.length_pos_iff.2 hne), rfl⟩
    | internal keys =>
      obtain ⟨key, -, hchild⟩ := exists_of_findSomeM?_eq_ok h
      exact ih (hroot.trans (Path.prefix_child path key)) hchild

theorem hasTrack_of_edge (hroot : root <+: path)
    (h : catalog.edge direction path = .ok (some track)) : catalog.HasTrack root track :=
  hasTrack_of_edgeWithin hroot h

/-- The siblings that a walk meets after a child are those that its parent lists beyond the child. -/
theorem exists_of_siblingsBeyond_eq_ok {siblings : List Path}
    (h : catalog.siblingsBeyond direction path = .ok siblings) :
    ∃ (parent : Path) (key : Key) (group : Group) (position : Nat), path = parent.child key ∧
      catalog.group? parent = some group ∧ group.keys.idxOf? key = some position ∧
      siblings = (direction.beyond position group.keys).map parent.child := by
  unfold siblingsBeyond at h
  dsimp only at h
  obtain ⟨group, hgroup, h⟩ := bind_eq_ok_iff.1 h
  obtain ⟨kind, hkind, h⟩ := bind_eq_ok_iff.1 h
  split at h
  · rename_i keys key hkey
    obtain ⟨rfl, -, -⟩ := Group.kind_eq_internal_iff.1 hkind
    split at h
    · rename_i position hposition
      exact ⟨path.dropLast, key, group, position, Path.eq_child_of_getLast? hkey,
        listed_eq_ok_iff.1 hgroup, hposition, (pure_eq_ok_iff.1 h).symm⟩
    · cases h
  · cases h

theorem hasTrack_of_climb (hroot : root <+: path) (hlevels : root.length + levels ≤ path.length)
    (h : catalog.climb direction levels path = .ok (some track)) : catalog.HasTrack root track := by
  induction levels generalizing path with
  | zero => cases h
  | succ levels ih =>
    obtain ⟨siblings, hsiblings, h⟩ := bind_eq_ok_iff.1 h
    obtain ⟨answer, hanswer, h⟩ := bind_eq_ok_iff.1 h
    obtain ⟨parent, key, group, position, rfl, -, -, rfl⟩ := exists_of_siblingsBeyond_eq_ok hsiblings
    rw [Path.length_child] at hlevels
    -- with a level left the path is longer than the root
    have hparent : root <+: parent := by
      refine (Path.prefix_child_iff.1 hroot).resolve_left ?_
      rintro rfl
      rw [Path.length_child] at hlevels
      omega
    cases answer with
    | some found =>
      cases pure_eq_ok_iff.1 h
      obtain ⟨sibling, hsibling, hedge⟩ := exists_of_findSomeM?_eq_ok hanswer
      obtain ⟨other, -, rfl⟩ := List.mem_map.1 hsibling
      exact hasTrack_of_edge (hparent.trans (Path.prefix_child _ other)) hedge
    | none =>
      rw [Path.dropLast_child] at h
      exact ih hparent (by omega) h

theorem hasTrack_of_step (h : catalog.step direction root track = .ok (some path)) :
    catalog.HasTrack root path := by
  obtain ⟨located, hlocated, h⟩ := bind_eq_ok_iff.1 h
  obtain ⟨leaf, key, index, group, -, hroot, -, hgroup, hkeys, hlt, rfl⟩ :=
    locate_eq_ok_iff.1 hlocated
  dsimp only at h
  split at h
  · rename_i next hnext
    cases pure_eq_ok_iff.1 h
    exact ⟨leaf, group, next, hroot, hgroup, hkeys, direction.nextIndex?_lt hlt hnext, rfl⟩
  · have := hroot.length_le
    exact hasTrack_of_climb hroot (by omega) h

/-- **A step lands on a track** below its root. -/
theorem ensureTrack_of_step (h : catalog.step direction root track = .ok (some path)) :
    catalog.ensureTrack root path = .ok () :=
  (hasTrack_of_step h).ensureTrack

theorem ensureTrack_of_edge (hroot : root <+: path)
    (h : catalog.edge direction path = .ok (some track)) :
    catalog.ensureTrack root track = .ok () :=
  (hasTrack_of_edge hroot h).ensureTrack

end Catalog

end Jukebox
