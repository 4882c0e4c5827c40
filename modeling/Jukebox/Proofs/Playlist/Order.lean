import Jukebox.Proofs.Catalog.Tracks
import Jukebox.Proofs.Playlist.Reach

/-!
The order of the tracks of an item. A subtree is expanded level by level, while a walk through it
goes from branch to branch. Both come to the same tracks, and to those of one depth in the same
order, since the nodes of a level stand in the order in which a walk comes to them. So an expansion
sorts the row that the walk meets by the length of its paths.
-/

namespace Jukebox

/-! ### Sorting paths by length -/

namespace Path

/-- Whether a path has at most as many keys as another. -/
def notLonger (path other : Path) : Bool := path.length ≤ other.length

/-- The paths from the shortest to the longest, and those of one length in their order. -/
def sortByLength (paths : List Path) : List Path := paths.mergeSort notLonger

/-- The paths of one length, in their order. -/
def ofLength (paths : List Path) (length : Nat) : List Path :=
  paths.filter fun path => path.length = length

variable {paths others : List Path} {path : Path} {length : Nat}

theorem notLonger_iff {other : Path} : path.notLonger other = true ↔ path.length ≤ other.length :=
  decide_eq_true_iff

theorem notLonger_trans (first second third : Path) (h : first.notLonger second = true)
    (hthird : second.notLonger third = true) : first.notLonger third = true :=
  notLonger_iff.2 (Nat.le_trans (notLonger_iff.1 h) (notLonger_iff.1 hthird))

theorem notLonger_total (path other : Path) :
    (path.notLonger other || other.notLonger path) = true := by
  rw [Bool.or_eq_true, notLonger_iff, notLonger_iff]
  exact Nat.le_total _ _

theorem mem_ofLength : path ∈ ofLength paths length ↔ path ∈ paths ∧ path.length = length := by
  simp [ofLength]

theorem ofLength_append (paths others : List Path) (length : Nat) :
    ofLength (paths ++ others) length = ofLength paths length ++ ofLength others length :=
  List.filter_append ..

theorem ofLength_cons (path : Path) (paths : List Path) (length : Nat) :
    ofLength (path :: paths) length =
      if path.length = length then path :: ofLength paths length else ofLength paths length := by
  simp [ofLength, List.filter_cons]

theorem ofLength_eq_nil (h : ∀ path ∈ paths, path.length ≠ length) : ofLength paths length = [] := by
  rw [ofLength, List.filter_eq_nil_iff]
  simpa using h

theorem sortByLength_perm (paths : List Path) : (sortByLength paths).Perm paths :=
  List.mergeSort_perm ..

theorem pairwise_sortByLength (paths : List Path) :
    (sortByLength paths).Pairwise (·.length ≤ ·.length) :=
  (List.pairwise_mergeSort notLonger_trans notLonger_total paths).imp notLonger_iff.1

theorem pairwise_of_length_eq (h : ∀ path ∈ paths, path.length = length) :
    paths.Pairwise fun path other => path.notLonger other = true := by
  refine List.pairwise_of_forall_mem_list fun path hpath other hother => notLonger_iff.2 ?_
  exact Nat.le_of_eq ((h path hpath).trans (h other hother).symm)

theorem sortByLength_of_length_eq (h : ∀ path ∈ paths, path.length = length) :
    sortByLength paths = paths :=
  List.mergeSort_of_pairwise (pairwise_of_length_eq h)

theorem ofLength_sortByLength (paths : List Path) (length : Nat) :
    ofLength (sortByLength paths) length = ofLength paths length := by
  have hsorted := @pairwise_of_length_eq (ofLength paths length) length
    fun path hpath => (mem_ofLength.1 hpath).2
  have hsublist : (ofLength paths length).Sublist (sortByLength paths) :=
    List.sublist_mergeSort notLonger_trans notLonger_total hsorted List.filter_sublist
  have hkept : (ofLength paths length).Sublist (ofLength (sortByLength paths) length) := by
    have hfilter := hsublist.filter fun path => path.length = length
    simpa only [ofLength, List.filter_filter, Bool.and_self] using hfilter
  exact (hkept.eq_of_length ((sortByLength_perm paths).filter _).length_eq.symm).symm

theorem mem_iff_of_ofLength (h : ∀ length, ofLength paths length = ofLength others length) :
    path ∈ paths ↔ path ∈ others := by
  have hlength : path ∈ ofLength paths path.length ↔ path ∈ ofLength others path.length := by
    rw [h]
  simpa only [mem_ofLength, and_true] using hlength

theorem eq_of_ofLength (hpaths : paths.Pairwise (·.length ≤ ·.length))
    (hothers : others.Pairwise (·.length ≤ ·.length))
    (h : ∀ length, ofLength paths length = ofLength others length) : paths = others := by
  induction paths generalizing others with
  | nil =>
    refine (List.eq_nil_iff_forall_not_mem.2 fun path hpath => ?_).symm
    exact List.not_mem_nil ((mem_iff_of_ofLength h).2 hpath)
  | cons path rest ih =>
    cases others with
    | nil => exact absurd ((mem_iff_of_ofLength h).1 List.mem_cons_self) List.not_mem_nil
    | cons other more =>
    obtain ⟨hpath, hrest⟩ := List.pairwise_cons.1 hpaths
    obtain ⟨hother, hmore⟩ := List.pairwise_cons.1 hothers
    -- both heads are among the shortest paths
    have hle : path.length ≤ other.length := by
      rcases List.mem_cons.1 ((mem_iff_of_ofLength h).2 List.mem_cons_self) with rfl | hmemRest
      · exact Nat.le_refl _
      · exact hpath other hmemRest
    have hge : other.length ≤ path.length := by
      rcases List.mem_cons.1 ((mem_iff_of_ofLength h).1 List.mem_cons_self) with rfl | hmemMore
      · exact Nat.le_refl _
      · exact hother path hmemMore
    have hlength : other.length = path.length := Nat.le_antisymm hge hle
    have hhead := h path.length
    rw [ofLength_cons, ofLength_cons, if_pos rfl, if_pos hlength] at hhead
    obtain ⟨rfl, -⟩ := List.cons.inj hhead
    have hofLength : ∀ length, ofLength rest length = ofLength more length := by
      intro length
      have hboth := h length
      rw [ofLength_cons, ofLength_cons] at hboth
      split at hboth
      · exact (List.cons.inj hboth).2
      · exact hboth
    rw [ih hrest hmore hofLength]

/-- Where each element gives two parts and one of them holds no path of a length, the paths of that
length stand as they do where the first parts come before the second ones. -/
theorem ofLength_flatMap_append {α : Type} {items : List α} {f g : α → List Path}
    (h : (∀ item ∈ items, ofLength (f item) length = []) ∨
      ∀ item ∈ items, ofLength (g item) length = []) :
    ofLength (items.flatMap fun item => f item ++ g item) length =
      ofLength (items.flatMap f) length ++ ofLength (items.flatMap g) length := by
  simp only [ofLength, List.filter_flatMap, List.filter_append] at h ⊢
  rcases h with hf | hg
  · have hnil : items.flatMap (fun item => (f item).filter fun path => path.length = length) = [] :=
      List.flatMap_eq_nil_iff.2 hf
    rw [hnil, List.nil_append]
    exact List.flatMap_congr fun item hitem => by rw [hf item hitem, List.nil_append]
  · have hnil : items.flatMap (fun item => (g item).filter fun path => path.length = length) = [] :=
      List.flatMap_eq_nil_iff.2 hg
    rw [hnil, List.append_nil]
    exact List.flatMap_congr fun item hitem => by rw [hg item hitem, List.append_nil]

end Path

/-! ### The tracks of a library -/

namespace Library

/-- A shelf with a tape in a box before a disc of two tracks. -/
def shelf : Library where
  collections := [⟨"shelf", none, [⟨"box", none, [⟨"tape", none, [], [house.track "aria"]⟩], []⟩,
    ⟨"disc", none, [], [house.track "prelude", house.track "fugue"]⟩], []⟩]
  filters := ∅
  recent := []

variable {library : Library} {catalog : Catalog} {path track : Path} {group : Group}

theorem tracks_of_node? {node : Node} (hnode : library.node? path = some node) :
    library.tracks path = (node.stops path).filterMap Stop.track? := by
  rw [tracks, stops, hnode]

/-- The tracks at and below a node are its own, or those of its children, one child after the other.
-/
theorem tracks_eq_of_kind (h : Catalog.ofLibrary library = .ok catalog)
    (hgroup : catalog.group? path = some group) {kind : Group.Kind}
    (hkind : group.kind path = .ok kind) :
    library.tracks path = kind.trackPaths path ++ (kind.childPaths path).flatMap library.tracks := by
  obtain ⟨node, hnode, rfl⟩ := (Catalog.group?_ofLibrary_eq_some_iff h).1 hgroup
  rw [tracks_of_node? hnode]
  cases kind with
  | leaf tracks =>
    obtain ⟨hkeys, rfl, htracks⟩ := Group.kind_eq_leaf_iff.1 hkind
    rw [Node.stops_of_leaf (by simpa [Node.group] using hkeys) htracks]
    simp [trackStops, List.filterMap_map, Stop.track?, Group.Kind.trackPaths, Group.Kind.childPaths,
      Function.comp_def, Node.group]
  | internal keys =>
    obtain ⟨rfl, hkeys, htracks⟩ := Group.kind_eq_internal_iff.1 hkind
    have hchild : ∀ child ∈ node.groups, (child.stops (path.child child.key)).filterMap Stop.track? =
        library.tracks (path.child child.key) :=
      fun child hmem => (tracks_of_node? (node?_child h hnode hmem)).symm
    rw [Node.stops_of_internal (by simpa [Node.group] using hkeys) htracks, List.filterMap_flatMap,
      List.flatMap_congr hchild]
    simp [Group.Kind.trackPaths, Group.Kind.childPaths, Node.group, List.flatMap_map]

theorem leaf_of_mem_tracks (h : Catalog.ofLibrary library = .ok catalog)
    (htrack : track ∈ library.tracks path) : ∃ (leaf : Path) (group : Group) (index : Nat),
      path <+: leaf ∧ catalog.group? leaf = some group ∧ group.tracks ≠ [] ∧
      track = leaf.child (Key.ofIndex index) := by
  obtain ⟨stop, hstop, hpath⟩ := List.mem_filterMap.1 htrack
  cases hnode : library.node? path with
  | none =>
    rw [stops, hnode] at hstop
    cases hstop
  | some node =>
  rw [stops, hnode] at hstop
  obtain ⟨leaf, source, hunder, hsource, -, ⟨rfl, -⟩ | ⟨index, hindex, rfl⟩⟩ :=
    origin_of_mem_stops h hnode hstop
  · cases hpath
  · cases hpath
    exact ⟨leaf, source.group, index, hunder,
      (Catalog.group?_ofLibrary_eq_some_iff h).2 ⟨source, hsource, rfl⟩,
      List.ne_nil_of_length_pos (Nat.zero_lt_of_lt hindex), rfl⟩

theorem length_lt_of_mem_tracks (h : Catalog.ofLibrary library = .ok catalog)
    (htrack : track ∈ library.tracks path) : path.length < track.length := by
  obtain ⟨leaf, -, index, hunder, -, -, rfl⟩ := leaf_of_mem_tracks h htrack
  rw [Path.length_child]
  exact Nat.lt_succ_of_le hunder.length_le

end Library

/-! ### Level by level -/

namespace Playlist.Item

open Jukebox.Path (ofLength sortByLength)

variable {library : Library} {catalog : Catalog} {levels length : Nat} {level : List Path}
  {root path : Path} {nodes : List (Path × Group.Kind)} {id : Uuid} {item : Item}

theorem length_of_mem_trackPaths (hlength : ∀ path ∈ nodes.map Prod.fst, path.length = length)
    (hpath : path ∈ nodes.flatMap fun node => node.2.trackPaths node.1) :
    path.length = length + 1 := by
  obtain ⟨node, hnode, htrack⟩ := List.mem_flatMap.1 hpath
  obtain ⟨_, index, -, -, rfl⟩ := Group.Kind.mem_trackPaths.1 htrack
  rw [Path.length_child, hlength node.1 (List.mem_map_of_mem hnode)]

/-- The tracks are collected from the shortest to the longest, for each level holds the tracks that
are one key longer than its nodes. -/
theorem ByLevel.pairwise_tracks (h : ByLevel catalog level nodes)
    (hlength : ∀ path ∈ level, path.length = length) :
    (nodes.flatMap fun node => node.2.trackPaths node.1).Pairwise (·.length ≤ ·.length) := by
  induction h generalizing length with
  | nil => exact List.Pairwise.nil
  | @level here below _ _ hbelow ih =>
    have hnext : ∀ path ∈ here.flatMap (fun node => node.2.childPaths node.1),
        path.length = length + 1 := fun path => length_of_mem_children hlength
    have hnodes := hbelow.length_le hnext
    have hhere : ∀ track ∈ here.flatMap (fun node => node.2.trackPaths node.1),
        track.length = length + 1 := fun track => length_of_mem_trackPaths hlength
    rw [List.flatMap_append, List.pairwise_append]
    refine ⟨(Path.pairwise_of_length_eq hhere).imp Path.notLonger_iff.1, ih hnext,
      fun track htrack other hother => ?_⟩
    obtain ⟨node, hnode, hother⟩ := List.mem_flatMap.1 hother
    obtain ⟨_, index, -, -, rfl⟩ := Group.Kind.mem_trackPaths.1 hother
    have hle := hnodes node.1 (List.mem_map_of_mem hnode)
    rw [hhere track htrack, Path.length_child]
    omega

/-- Of each length a level and all below it hold the tracks that a walk meets, in its order. The walk
meets the own tracks of a node and those of its children before the next node, but the latter are
longer than the own tracks of all nodes of the level. -/
theorem ByLevel.ofLength_tracks (h : ByLevel catalog level nodes)
    (hlibrary : Catalog.ofLibrary library = .ok catalog)
    (hlength : ∀ path ∈ level, path.length = length) (count : Nat) :
    ofLength (nodes.flatMap fun node => node.2.trackPaths node.1) count =
      ofLength (level.flatMap library.tracks) count := by
  induction h generalizing length with
  | nil => rfl
  | @level here below _ hkinds _ ih =>
    have hnext : ∀ path ∈ here.flatMap (fun node => node.2.childPaths node.1),
        path.length = length + 1 := fun path => length_of_mem_children hlength
    have hwalk : ∀ node ∈ here, library.tracks node.1 =
        node.2.trackPaths node.1 ++ (node.2.childPaths node.1).flatMap library.tracks := by
      intro node hnode
      obtain ⟨group, hgroup, hkind⟩ := hkinds node.1 node.2 hnode
      exact Library.tracks_eq_of_kind hlibrary hgroup hkind
    have hapart : (∀ node ∈ here, ofLength (node.2.trackPaths node.1) count = []) ∨
        ∀ node ∈ here, ofLength ((node.2.childPaths node.1).flatMap library.tracks) count = [] := by
      by_cases hcount : count = length + 1
      · refine .inr fun node hnode => Path.ofLength_eq_nil fun track htrack => ?_
        obtain ⟨child, hchild, htrack⟩ := List.mem_flatMap.1 htrack
        have hlt := Library.length_lt_of_mem_tracks hlibrary htrack
        rw [hnext child (List.mem_flatMap.2 ⟨node, hnode, hchild⟩)] at hlt
        omega
      · refine .inl fun node hnode => Path.ofLength_eq_nil fun track htrack => ?_
        rw [length_of_mem_trackPaths hlength (List.mem_flatMap.2 ⟨node, hnode, htrack⟩)]
        exact Ne.symm hcount
    rw [List.flatMap_append, Path.ofLength_append, ih hnext, List.flatMap_assoc,
      ← Path.ofLength_flatMap_append hapart, List.flatMap_map, List.flatMap_congr hwalk]

theorem tracks_of_expand (hlibrary : Catalog.ofLibrary library = .ok catalog)
    (h : expand catalog id root = .ok item) : item.tracks = sortByLength (library.tracks root) := by
  obtain ⟨nodes, hlevels, rfl⟩ := expand_eq_ok h
  have hlength : ∀ path ∈ [root], path.length = root.length := by simp
  refine Path.eq_of_ofLength (hlevels.pairwise_tracks hlength)
    (Path.pairwise_sortByLength _) fun count => ?_
  rw [Path.ofLength_sortByLength, hlevels.ofLength_tracks hlibrary hlength]
  simp

end Playlist.Item

/-! ### The walk below a root that expands -/

namespace Catalog

variable {library : Library} {catalog : Catalog} {root path : Path} {key : Key} {group : Group}

theorem parent_of_group? (h : Catalog.ofLibrary library = .ok catalog) (hpath : path ≠ [])
    (hgroup : catalog.group? (path.child key) = some group) :
    ∃ parent, catalog.group? path = some parent ∧ key ∈ parent.keys := by
  obtain ⟨node, hnode, -⟩ := (group?_ofLibrary_eq_some_iff h).1 hgroup
  rw [Path.child, Library.node?_append library hpath] at hnode
  obtain ⟨parent, hparent, hnode⟩ := Option.bind_eq_some_iff.1 hnode
  obtain ⟨child, hfind, -⟩ := Option.bind_eq_some_iff.1 hnode
  obtain ⟨hchild, rfl⟩ := Library.of_find?_key hfind
  exact ⟨parent.group, (group?_ofLibrary_eq_some_iff h).2 ⟨parent, hparent, rfl⟩,
    List.mem_map_of_mem hchild⟩

/-- In the catalog of a library listed keys lead from a group to every group below it. -/
theorem reaches_of_group? (h : Catalog.ofLibrary library = .ok catalog)
    (hroot : ∃ top, catalog.group? root = some top) (hunder : root <+: path)
    (hgroup : catalog.group? path = some group) : catalog.Reaches root path := by
  induction path using List.reverseRecOn generalizing group with
  | nil =>
    rw [List.prefix_nil.1 hunder]
    exact .root
  | append_singleton above last ih =>
    rcases List.prefix_concat_iff.1 hunder with rfl | habove
    · exact .root
    · have hne : above ≠ [] := by
        rintro rfl
        obtain ⟨top, htop⟩ := hroot
        obtain ⟨node, hnode, -⟩ := (group?_ofLibrary_eq_some_iff h).1 htop
        rw [List.prefix_nil.1 habove] at hnode
        cases hnode
      obtain ⟨parent, hparent, hkey⟩ := parent_of_group? h hne hgroup
      exact .child (ih habove hparent) hparent hkey

theorem stocked_of_expand (h : Catalog.ofLibrary library = .ok catalog) {id : Uuid}
    {item : Playlist.Item} (hitem : Playlist.Item.expand catalog id root = .ok item) :
    catalog.Stocked library root := by
  have hnode := Playlist.Item.exists_expand_iff.1 ⟨item, hitem⟩
  obtain ⟨top, htop, -⟩ := hnode root .root
  refine ⟨h, ⟨top, htop⟩, fun path group hunder hgroup => ?_⟩
  obtain ⟨same, hsame, hkind⟩ := hnode path (reaches_of_group? h ⟨top, htop⟩ hunder hgroup)
  rw [hgroup] at hsame
  cases hsame
  exact hkind.imp And.left And.right

end Catalog

namespace Playlist.Item

/-- **An expansion sorts the walk.** Let a subtree of the catalog of a library expand to an item. The
walk that starts at the first track below the root and steps forward meets one row of tracks and then
ends. The tracks of the item are this row sorted by the length of the paths, those of one length in
the order of the walk; so they are the same tracks, and the same row if all leaves below the root lie
at one depth. No walk fails: there is a first and a last track, and from every track of the item both
steps have an answer. -/
theorem expansion_sorts_walk {library : Library} {catalog : Catalog}
    (hlibrary : Catalog.ofLibrary library = .ok catalog) {id : Uuid} {root : Path} {item : Item}
    (hitem : expand catalog id root = .ok item) :
    (∃ row, catalog.Meets root row ∧ (∀ other, catalog.Meets root other → other = row) ∧
      item.tracks = Path.sortByLength row ∧ item.tracks.Perm row ∧
      ((∃ depth, ∀ leaf group, root <+: leaf → catalog.group? leaf = some group →
        group.tracks ≠ [] → leaf.length = depth) → item.tracks = row)) ∧
    (∃ first, catalog.firstTrack root = .ok (some first)) ∧
    (∃ last, catalog.lastTrack root = .ok (some last)) ∧
    ∀ track ∈ item.tracks, (∃ next, catalog.nextTrack root track = .ok next) ∧
      ∃ prev, catalog.prevTrack root track = .ok prev := by
  have hstocked := Catalog.stocked_of_expand hlibrary hitem
  have htracks := tracks_of_expand hlibrary hitem
  have hperm : item.tracks.Perm (library.tracks root) := by
    rw [htracks]
    exact Path.sortByLength_perm _
  refine ⟨⟨_, hstocked.meets_tracks, fun other hother => hother.unique hstocked.meets_tracks, htracks,
    hperm, ?_⟩, ?_, ?_, fun track htrack => ?_⟩
  · rintro ⟨depth, hdepth⟩
    rw [htracks]
    refine @Path.sortByLength_of_length_eq _ (depth + 1) fun track htrack => ?_
    obtain ⟨leaf, group, index, hunder, hgroup, hne, rfl⟩ :=
      Library.leaf_of_mem_tracks hlibrary htrack
    rw [Path.length_child, hdepth leaf group hunder hgroup hne]
  · obtain ⟨first, rest, hrow⟩ := List.exists_cons_of_ne_nil hstocked.tracks_ne_nil
    exact ⟨first, by rw [hstocked.firstTrack_eq, hrow, List.getElem?_cons_zero]⟩
  · exact ⟨_, by rw [hstocked.lastTrack_eq, List.getLast?_eq_some_getLast hstocked.tracks_ne_nil]⟩
  · obtain ⟨index, hindex⟩ := List.mem_iff_getElem?.1 (hperm.mem_iff.1 htrack)
    obtain ⟨hnext, hprev⟩ := hstocked.steps_of_getElem? hindex
    exact ⟨⟨_, hnext⟩, ⟨_, hprev⟩⟩

/-- On the shelf a walk comes to the tape first, which lies deeper, but the item starts with the disc. -/
theorem expansion_sorts_walk_shelf : ∃ catalog item row,
    Catalog.ofLibrary .shelf = .ok catalog ∧ expand catalog ⟨0⟩ ["shelf"] = .ok item ∧
    item.tracks = [["shelf", "disc", "0"], ["shelf", "disc", "1"], ["shelf", "box", "tape", "0"]] ∧
    catalog.firstTrack ["shelf"] = .ok (some ["shelf", "box", "tape", "0"]) ∧
    catalog.Meets ["shelf"] row ∧ item.tracks = Path.sortByLength row := by
  obtain ⟨catalog, item, hcatalog, hitem, htracks, hfirst⟩ : ∃ catalog item,
      Catalog.ofLibrary .shelf = .ok catalog ∧ expand catalog ⟨0⟩ ["shelf"] = .ok item ∧
      item.tracks = [["shelf", "disc", "0"], ["shelf", "disc", "1"], ["shelf", "box", "tape", "0"]] ∧
      catalog.firstTrack ["shelf"] = .ok (some ["shelf", "box", "tape", "0"]) :=
    ⟨_, _, rfl, rfl, by decide +kernel, rfl⟩
  obtain ⟨⟨row, hrow, -, hsorted, -⟩, -⟩ := expansion_sorts_walk hcatalog hitem
  exact ⟨catalog, item, row, hcatalog, hitem, htracks, hfirst, hrow, hsorted⟩

end Playlist.Item

end Jukebox
