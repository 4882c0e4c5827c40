import Jukebox.Catalog.View
import Jukebox.Proofs.Catalog.Library

/-!
Groups as they are shown. A path has a view just if the catalog holds a group of one kind there, and
the view shows the keys of that group in order.
-/

namespace Jukebox

open Result (bind_eq_ok_iff pure_eq_ok_iff)

namespace Catalog

variable {catalog : Catalog} {path : Path} {paths : List Path} {view : GroupView} {group : Group}

/-! ### Views -/

theorem of_groupView_eq_ok (h : catalog.groupView path = .ok view) :
    view.path = path ∧ ∃ group kind, catalog.group? path = some group ∧
      group.kind path = .ok kind ∧ view.groups.map ChildView.key = group.keys := by
  obtain ⟨group, hgroup, h⟩ := bind_eq_ok_iff.1 h
  obtain ⟨kind, hkind, h⟩ := bind_eq_ok_iff.1 h
  have hlookup := lookup_eq_ok_iff.1 hgroup
  cases kind with
  | internal keys =>
    obtain ⟨hkeys, -⟩ := Group.kind_eq_internal_iff.1 hkind
    cases pure_eq_ok_iff.1 h
    refine ⟨rfl, group, _, hlookup, hkind, ?_⟩
    rw [hkeys, List.map_map]
    exact List.map_id keys
  | leaf tracks =>
    obtain ⟨hkeys, -⟩ := Group.kind_eq_leaf_iff.1 hkind
    cases pure_eq_ok_iff.1 h
    exact ⟨rfl, group, _, hlookup, hkind, hkeys.symm⟩

theorem exists_groupView_iff : (∃ view, catalog.groupView path = .ok view) ↔
    catalog.HasNode path := by
  rw [hasNode_iff]
  constructor
  · rintro ⟨view, hview⟩
    obtain ⟨-, group, kind, hgroup, hkind, -⟩ := of_groupView_eq_ok hview
    exact ⟨group, kind, hgroup, hkind⟩
  · rintro ⟨group, kind, hgroup, hkind⟩
    cases kind <;> exact ⟨_, bind_eq_ok_iff.2 ⟨group, lookup_eq_ok_iff.2 hgroup,
      bind_eq_ok_iff.2 ⟨_, hkind, rfl⟩⟩⟩

/-! ### Views of many paths -/

theorem mem_expandPaths : view ∈ catalog.expandPaths paths ↔
    view.path ∈ paths ∧ catalog.groupView view.path = .ok view := by
  simp only [expandPaths, List.mem_filterMap]
  constructor
  · rintro ⟨path, hpath, hview⟩
    have hok : catalog.groupView path = .ok view := by
      cases hresult : catalog.groupView path with
      | error e => simp [hresult, Except.toOption] at hview
      | ok found =>
        rw [hresult] at hview
        exact congrArg _ (Option.some.inj hview)
    have hsame := (of_groupView_eq_ok hok).1
    exact ⟨hsame ▸ hpath, hsame ▸ hok⟩
  · rintro ⟨hpath, hview⟩
    exact ⟨view.path, hpath, by rw [hview]; rfl⟩

theorem mem_map_path_expandPaths : path ∈ (catalog.expandPaths paths).map GroupView.path ↔
    path ∈ paths ∧ catalog.HasNode path := by
  rw [List.mem_map, ← exists_groupView_iff]
  constructor
  · rintro ⟨view, hview, rfl⟩
    obtain ⟨hpath, hok⟩ := mem_expandPaths.1 hview
    exact ⟨hpath, view, hok⟩
  · rintro ⟨hpath, view, hok⟩
    obtain rfl := (of_groupView_eq_ok hok).1
    exact ⟨view, mem_expandPaths.2 ⟨hpath, hok⟩, rfl⟩

theorem map_path_expandPaths_sublist (catalog : Catalog) (paths : List Path) :
    ((catalog.expandPaths paths).map GroupView.path).Sublist paths := by
  induction paths with
  | nil => exact List.nil_sublist _
  | cons path rest ih =>
    rw [expandPaths, List.filterMap_cons]
    split
    · exact ih.cons path
    · rename_i view hview
      have hok : view ∈ catalog.expandPaths [path] := by simp [expandPaths, hview]
      have hsame := List.mem_singleton.1 (mem_expandPaths.1 hok).1
      rw [List.map_cons, hsame]
      exact ih.cons_cons path

/-! ### Children -/

theorem nodup_childPaths (h : catalog.KeysDistinct) (path : Path) :
    (catalog.childPaths path).Nodup := by
  unfold childPaths
  split
  · rename_i group hgroup
    refine List.pairwise_map.2 ((h path group hgroup).imp fun hne heq => hne ?_)
    exact (Path.child_inj heq).2
  · exact List.nodup_nil

theorem exists_collection_ofLibrary {library : Library}
    (h : Catalog.ofLibrary library = .ok catalog) (hgroup : catalog.group? path = some group) :
    ∃ key collection, path.head? = some key ∧
      catalog.group? (Path.ofCollection key) = some collection := by
  obtain ⟨node, hnode, -⟩ := (group?_ofLibrary_eq_some_iff h).1 hgroup
  cases path with
  | nil => cases hnode
  | cons key rest =>
    obtain ⟨collection, hcollection, -⟩ := Option.bind_eq_some_iff.1 hnode
    have hfound : library.node? (Path.ofCollection key) = some collection :=
      Option.bind_eq_some_iff.2 ⟨collection, hcollection, rfl⟩
    exact ⟨key, collection.group, rfl, (group?_ofLibrary_eq_some_iff h).2 ⟨collection, hfound, rfl⟩⟩

end Catalog

end Jukebox
