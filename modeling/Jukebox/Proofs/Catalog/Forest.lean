import Jukebox.Proofs.Catalog.Library
import Mathlib.Data.List.Nodup

/-!
The catalog of a library as a forest. The paths of the nodes that are listed differ, so that the
catalog holds every node, each at its own path; every group but a collection is listed by its parent.
A library that is no forest is refused.
-/

namespace Jukebox

open Result (bind_eq_error_iff)

namespace Library

/-! ### Refused libraries -/

section

variable {node : Node} {nodes : List Node} {path : Path} {error : Error}

theorem exists_of_entriesOfGroups_eq_error (h : entriesOfGroups path nodes = .error error) :
    ∃ node ∈ nodes, node.entries (path.child node.key) = .error error := by
  induction nodes with
  | nil => cases h
  | cons node rest ih =>
    rw [entriesOfGroups] at h
    rcases bind_eq_error_iff.1 h with hnode | ⟨here, -, h⟩
    · exact ⟨node, List.mem_cons_self, hnode⟩
    rcases bind_eq_error_iff.1 h with hrest | ⟨others, -, h⟩
    · obtain ⟨other, hother, herror⟩ := ih hrest
      exact ⟨other, List.mem_cons_of_mem node hother, herror⟩
    · cases h

theorem Node.kind_of_entries_eq_error (h : node.entries path = .error error) :
    error.kind = .invalidInput := by
  induction node using Node.ind generalizing path with
  | h node ih =>
  obtain ⟨name, ownKey, groups, tracks⟩ := node
  rw [Node.entries] at h
  split at h
  · cases h
    rfl
  split at h
  · cases h
    rfl
  rcases bind_eq_error_iff.1 h with hgroups | ⟨below, -, h⟩
  · obtain ⟨child, hchild, herror⟩ := exists_of_entriesOfGroups_eq_error hgroups
    exact ih child hchild herror
  · cases h

theorem kind_of_entriesOfCollections_eq_error {seen : List Key}
    (h : entriesOfCollections seen nodes = .error error) : error.kind = .invalidInput := by
  induction nodes generalizing seen with
  | nil => cases h
  | cons node rest ih =>
    rw [entriesOfCollections] at h
    split at h
    · cases h
      rfl
    rcases bind_eq_error_iff.1 h with hnode | ⟨here, -, h⟩
    · exact Node.kind_of_entries_eq_error hnode
    rcases bind_eq_error_iff.1 h with hrest | ⟨others, -, h⟩
    · exact ih hrest
    · cases h

end

/-! ### The paths of a forest -/

section

variable {node : Node} {path : Path} {place : Place}

theorem Node.child_mem_places (h : place ∈ node.places path) {child : Node}
    (hchild : child ∈ place.2.groups) : (place.1.child child.key, child) ∈ node.places path := by
  induction node using Node.ind generalizing path with
  | h node ih =>
  rcases Node.mem_places.1 h with rfl | ⟨first, hfirst, hplace⟩
  · exact Node.mem_places.2 (.inr ⟨child, hchild, child.self_mem_places _⟩)
  · exact Node.mem_places.2 (.inr ⟨first, hfirst, ih first hfirst hplace⟩)

theorem Node.parent_of_mem_places (h : place ∈ node.places path) : place = (path, node) ∨
    ∃ parent ∈ node.places path, place.2 ∈ parent.2.groups ∧
      place.1 = parent.1.child place.2.key := by
  induction node using Node.ind generalizing path with
  | h node ih =>
  rcases Node.mem_places.1 h with rfl | ⟨child, hchild, hplace⟩
  · exact .inl rfl
  rcases ih child hchild hplace with rfl | ⟨parent, hparent, hgroups, hpath⟩
  · exact .inr ⟨(path, node), node.self_mem_places path, hchild, rfl⟩
  · exact .inr ⟨parent, Node.mem_places.2 (.inr ⟨child, hchild, hparent⟩), hgroups, hpath⟩

/-- Nodes of one kind whose groups have different keys lie at different paths: what lies below
different children starts with different keys. -/
theorem Node.nodup_places (h : ∀ place ∈ node.places path, place.2.Proper) :
    ((node.places path).map Prod.fst).Nodup := by
  induction node using Node.ind generalizing path with
  | h node ih =>
  have hproper := h _ (node.self_mem_places path)
  rw [Node.places_eq, List.map_cons, List.map_flatMap, List.nodup_cons, List.nodup_flatMap]
  refine ⟨fun hmem => ?_, fun child hchild => ?_, ?_⟩
  · obtain ⟨child, -, hmem⟩ := List.mem_flatMap.1 hmem
    obtain ⟨⟨_, below⟩, hplace, rfl⟩ := List.mem_map.1 hmem
    exact absurd (Node.prefix_of_mem_places hplace).length_le (by simp)
  · exact ih child hchild fun place hplace =>
      h place (Node.mem_places.2 (.inr ⟨child, hchild, hplace⟩))
  · refine (List.pairwise_map.1 hproper.keys_nodup).imp fun hne below hbelow hother => hne ?_
    obtain ⟨place, hplace, rfl⟩ := List.mem_map.1 hbelow
    obtain ⟨other, hotherPlace, heq⟩ := List.mem_map.1 hother
    have hunder := Node.prefix_of_mem_places hotherPlace
    rw [heq] at hunder
    exact Path.key_eq_of_child_prefix (Node.prefix_of_mem_places hplace) hunder

end

section

variable {library : Library} {place : Place}

theorem Forest.nodup_paths (h : library.Forest) : (library.places.map Prod.fst).Nodup := by
  rw [places, List.map_flatMap, List.nodup_flatMap]
  refine ⟨fun node hnode => Node.nodup_places fun place hplace =>
    h.proper place (mem_places.2 ⟨node, hnode, hplace⟩), ?_⟩
  refine (List.pairwise_map.1 h.collections_nodup).imp fun hne below hbelow hother => hne ?_
  obtain ⟨place, hplace, rfl⟩ := List.mem_map.1 hbelow
  obtain ⟨other, hotherPlace, heq⟩ := List.mem_map.1 hother
  have hunder := Node.prefix_of_mem_places hotherPlace
  rw [heq] at hunder
  -- a collection is the child of no path
  exact @Path.key_eq_of_child_prefix [] _ _ _ (Node.prefix_of_mem_places hplace) hunder

theorem child_mem_places (h : place ∈ library.places) {child : Node}
    (hchild : child ∈ place.2.groups) : (place.1.child child.key, child) ∈ library.places := by
  obtain ⟨node, hnode, hplace⟩ := mem_places.1 h
  exact mem_places.2 ⟨node, hnode, Node.child_mem_places hplace hchild⟩

theorem parent_of_mem_places (h : place ∈ library.places) :
    place.1 = Path.ofCollection place.2.key ∨ ∃ parent ∈ library.places,
      place.2 ∈ parent.2.groups ∧ place.1 = parent.1.child place.2.key := by
  obtain ⟨node, hnode, hplace⟩ := mem_places.1 h
  rcases Node.parent_of_mem_places hplace with rfl | ⟨parent, hparent, hgroups, hpath⟩
  · exact .inl rfl
  · exact .inr ⟨parent, mem_places.2 ⟨node, hnode, hparent⟩, hgroups, hpath⟩

end

end Library

/-! ### The catalog of a forest -/

theorem Catalog.size_groups {library : Library} {catalog : Catalog}
    (h : Catalog.ofLibrary library = .ok catalog) : catalog.groups.size = library.places.length := by
  obtain ⟨hforest, rfl⟩ := Catalog.ofLibrary_eq_ok_iff.1 h
  have hdistinct := List.pairwise_map.1 hforest.nodup_paths
  rw [Std.ExtTreeMap.size_ofList, List.length_map]
  refine List.pairwise_map.2 (hdistinct.imp fun hne => ?_)
  simpa [Library.entryOf] using hne

/-- **The catalog of a library is its forest.** A library becomes a catalog just if no node has both
groups and tracks, no two groups of a node and no two collections have the same key; otherwise the
library is refused as invalid. The catalog holds a group at a path just if keys of the library lead
there to a node, and the group has the node's name, the keys of its groups in order, and its tracks.
Every child that is listed exists, and every group but a collection is listed by its parent. A search
goes through all groups once, in depth-first order, and there are as many groups as nodes. -/
theorem catalog_of_forest (library : Library) :
    ((∃ catalog, Catalog.ofLibrary library = .ok catalog) ↔
      (library.collections.map Library.Node.key).Nodup ∧
      ∀ place ∈ library.places, (place.2.groups = [] ∨ place.2.tracks = []) ∧
        (place.2.groups.map Library.Node.key).Nodup) ∧
    (∀ error, Catalog.ofLibrary library = .error error → error.kind = .invalidInput) ∧
    ∀ catalog, Catalog.ofLibrary library = .ok catalog →
      (∀ path group, catalog.group? path = some group ↔ ∃ node, (path, node) ∈ library.places ∧
        group = ⟨node.name, node.groups.map Library.Node.key, node.tracks⟩) ∧
      (∀ path group, catalog.group? path = some group → ∀ key ∈ group.keys,
        ∃ child, catalog.group? (path.child key) = some child) ∧
      (∀ (path : Path) key group, path ≠ [] → catalog.group? (path.child key) = some group →
        ∃ parent, catalog.group? path = some parent ∧ key ∈ parent.keys) ∧
      (∃ entries, library.entries = .ok entries ∧ catalog.search = Search.run entries ∧
        entries.map Prod.fst = library.places.map Prod.fst ∧ (entries.map Prod.fst).Nodup ∧
        ∀ path, path ∈ entries.map Prod.fst ↔ ∃ group, catalog.group? path = some group) ∧
      catalog.groups.size = library.places.length := by
  refine ⟨?_, ?_, fun catalog h => ?_⟩
  · simp only [Catalog.ofLibrary_eq_ok_iff]
    constructor
    · rintro ⟨_, hforest, rfl⟩
      exact ⟨hforest.collections_nodup, fun place hplace =>
        ⟨(hforest.proper place hplace).one_kind, (hforest.proper place hplace).keys_nodup⟩⟩
    · rintro ⟨hcollections, hproper⟩
      exact ⟨_, ⟨hcollections, fun place hplace =>
        ⟨(hproper place hplace).1, (hproper place hplace).2⟩⟩, rfl⟩
  · intro error h
    rcases bind_eq_error_iff.1 h with hentries | ⟨entries, -, h⟩
    · exact Library.kind_of_entriesOfCollections_eq_error hentries
    · cases h
  obtain ⟨hforest, hcatalog⟩ := Catalog.ofLibrary_eq_ok_iff.1 h
  have hgroup : ∀ path group, catalog.group? path = some group ↔
      ∃ node, (path, node) ∈ library.places ∧ node.group = group := by
    intro path group
    simp only [Catalog.group?_ofLibrary_eq_some_iff h, hforest.mem_places_iff]
  refine ⟨fun path group => ?_, fun path group hpath key hkey => ?_,
    fun path key group hne hpath => ?_, ?_, Catalog.size_groups h⟩
  · rw [hgroup]
    simp only [Library.Node.group, @eq_comm _ group]
  · obtain ⟨node, hnode, rfl⟩ := (hgroup path group).1 hpath
    obtain ⟨child, hchild, rfl⟩ := List.mem_map.1 hkey
    exact ⟨child.group, (hgroup _ _).2 ⟨child, Library.child_mem_places hnode hchild, rfl⟩⟩
  · obtain ⟨node, hnode, rfl⟩ := (hgroup _ group).1 hpath
    rcases Library.parent_of_mem_places hnode with heq | ⟨⟨above, parent⟩, hparent, hgroups, heq⟩
    · exact absurd (@Path.child_inj path [] key _ heq).1 hne
    · obtain ⟨rfl, hkey⟩ := Path.child_inj heq
      refine ⟨parent.group, (hgroup _ _).2 ⟨parent, hparent, rfl⟩, ?_⟩
      rw [hkey]
      exact List.mem_map_of_mem hgroups
  · have hpaths : (library.places.map Library.entryOf).map Prod.fst = library.places.map Prod.fst := by
      rw [List.map_map]
      rfl
    refine ⟨_, Library.entries_eq_ok_iff.2 ⟨hforest, rfl⟩, by rw [hcatalog], hpaths, ?_, fun path => ?_⟩
    · rw [hpaths]
      exact hforest.nodup_paths
    · rw [hpaths]
      simp [hgroup]

end Jukebox
