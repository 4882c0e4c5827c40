import Jukebox.Proofs.Catalog.Walk
import Jukebox.Proofs.Playlist.Expansion

/-!
Which subtrees expand, and to what. The nodes of an item are those that listed keys lead to from its
root, and an expansion succeeds just if the catalog holds each of them as a node of one kind. This
is said of any catalog, whether or not what it lists is there.
-/

namespace Jukebox

open Result (bind_eq_error_iff mapM_eq_error_iff exists_mapM_eq_ok)

/-! ### Reachable nodes -/

namespace Catalog

variable {catalog : Catalog} {path : Path} {error : Error}

/-- Keys that are listed lead from a root to a path, whether or not the catalog holds a group there.
-/
inductive Reaches (catalog : Catalog) (root : Path) : Path → Prop
  | root : Reaches catalog root root
  | child {path : Path} {group : Group} {key : Key} (hpath : Reaches catalog root path)
    (hgroup : catalog.group? path = some group) (hkey : key ∈ group.keys) :
    Reaches catalog root (path.child key)

theorem kind_of_listed_eq_error (h : catalog.listed path = .error error) :
    error.kind = .catalogInconsistency := by
  unfold listed at h
  split at h <;> cases h
  rfl

end Catalog

namespace Playlist.Item

variable {catalog : Catalog} {levels : Nat} {level : List Path} {root path : Path}
variable {nodes : List (Path × Group.Kind)} {id : Uuid} {item : Item} {error : Error}

/-! ### When nodes are collected -/

/-- The nodes of one level, in order, with the kinds of their groups. -/
def nodesOf (catalog : Catalog) (level : List Path) : Except Error (List (Path × Group.Kind)) :=
  level.mapM fun path => do
    let group ← catalog.listed path
    return (path, ← group.kind path)

theorem nodesFrom_succ (catalog : Catalog) (levels : Nat) (level : List Path) :
    nodesFrom catalog (levels + 1) level = do
      let here ← nodesOf catalog level
      let below ← nodesFrom catalog levels (here.flatMap fun node => node.2.childPaths node.1)
      return here ++ below := by
  cases level with
  | nil => cases levels <;> rfl
  | cons path rest => rfl

theorem exists_nodesOf (hnode : ∀ path ∈ level, catalog.HasNode path) :
    ∃ here, nodesOf catalog level = .ok here := by
  refine exists_mapM_eq_ok fun path hpath => ?_
  obtain ⟨group, hgroup, hone⟩ := hnode path hpath
  obtain ⟨kind, hkind⟩ := (@Group.exists_kind_iff group path).2 hone
  rw [Catalog.listed_eq_ok_iff.2 hgroup]
  exact ⟨(path, kind), by simp [hkind, bind, Except.bind, pure, Except.pure]⟩

/-- A level whose children are the next is collected if every path that is reached has a node. The
levels do not run out, for a node lies no deeper than the catalog is deep. -/
theorem exists_nodesFrom (hnode : ∀ path, catalog.Reaches root path → catalog.HasNode path)
    (hreach : ∀ path ∈ level, catalog.Reaches root path)
    (hlevels : ∀ path ∈ level, catalog.depth < path.length + levels) :
    ∃ nodes, nodesFrom catalog levels level = .ok nodes := by
  induction levels generalizing level with
  | zero =>
    cases level with
    | nil => exact ⟨[], by rw [nodesFrom]⟩
    | cons path rest =>
      have hlt : catalog.depth < path.length + 0 := hlevels path List.mem_cons_self
      obtain ⟨group, hgroup, -⟩ := hnode path (hreach path List.mem_cons_self)
      have hle : path.length ≤ catalog.depth := Catalog.length_le_depth hgroup
      omega
  | succ levels ih =>
    obtain ⟨here, hhere⟩ := exists_nodesOf fun path hpath => hnode path (hreach path hpath)
    obtain ⟨hfst, hkinds⟩ := nodes_of_mapM hhere
    have hchild : ∀ child ∈ here.flatMap (fun node => node.2.childPaths node.1),
        ∃ path ∈ level, ∃ group key, catalog.group? path = some group ∧ key ∈ group.keys ∧
          child = path.child key := by
      intro child hchild
      obtain ⟨⟨path, kind⟩, hmem, hchild⟩ := List.mem_flatMap.1 hchild
      obtain ⟨keys, key, rfl, hkey, rfl⟩ := Group.Kind.mem_childPaths.1 hchild
      obtain ⟨group, hgroup, hkind⟩ := hkinds path _ hmem
      obtain ⟨rfl, -, -⟩ := Group.kind_eq_internal_iff.1 hkind
      exact ⟨path, hfst ▸ List.mem_map_of_mem hmem, group, key, hgroup, hkey, rfl⟩
    obtain ⟨below, hbelow⟩ : ∃ below, nodesFrom catalog levels
        (here.flatMap fun node => node.2.childPaths node.1) = .ok below := by
      refine ih (fun child hmem => ?_) fun child hmem => ?_
      · obtain ⟨path, hpath, group, key, hgroup, hkey, rfl⟩ := hchild child hmem
        exact .child (hreach path hpath) hgroup hkey
      · obtain ⟨path, hpath, group, key, -, -, rfl⟩ := hchild child hmem
        have hlt := hlevels path hpath
        rw [Path.length_child]
        omega
    refine ⟨here ++ below, ?_⟩
    rw [nodesFrom_succ, hhere]
    simp [hbelow, bind, Except.bind, pure, Except.pure]

/-- Nodes are not collected only because of an inconsistency. -/
theorem kind_of_nodesFrom_eq_error (h : nodesFrom catalog levels level = .error error) :
    error.kind = .catalogInconsistency := by
  induction levels generalizing level with
  | zero =>
    cases level with
    | nil => cases h
    | cons path rest =>
      cases h
      rfl
  | succ levels ih =>
    rw [nodesFrom_succ] at h
    rcases bind_eq_error_iff.1 h with hhere | ⟨here, -, h⟩
    · obtain ⟨-, path, -, -, -, hpath⟩ := mapM_eq_error_iff.1 hhere
      rcases bind_eq_error_iff.1 hpath with hlisted | ⟨group, -, hpath⟩
      · exact Catalog.kind_of_listed_eq_error hlisted
      rcases bind_eq_error_iff.1 hpath with hkind | ⟨kind, -, hpath⟩
      · exact Group.kind_of_kind_eq_error hkind
      · cases hpath
    · rcases bind_eq_error_iff.1 h with hbelow | ⟨below, -, h⟩
      · exact ih hbelow
      · cases h

/-! ### What is collected -/

theorem Collected.exists_kind_iff_reaches (h : Collected catalog [root] nodes) :
    (∃ kind, (path, kind) ∈ nodes) ↔ catalog.Reaches root path := by
  constructor
  · rintro ⟨kind, hmem⟩
    -- a node that is not the root is a child, and its parent is one key shorter
    induction path using List.reverseRecOn generalizing kind with
    | nil =>
      rcases h.node_origin [] kind hmem with hroot | ⟨parent, parentKind, -, hchild⟩
      · rw [List.mem_singleton.1 hroot]
        exact .root
      · obtain ⟨_, _, -, -, heq⟩ := Group.Kind.mem_childPaths.1 hchild
        simp [Path.child] at heq
    | append_singleton above last ih =>
      rcases h.node_origin _ kind hmem with hroot | ⟨parent, parentKind, hparent, hchild⟩
      · rw [List.mem_singleton.1 hroot]
        exact .root
      · obtain ⟨keys, key, rfl, hkey, heq⟩ := Group.Kind.mem_childPaths.1 hchild
        obtain ⟨rfl, rfl⟩ := @Path.child_inj above _ last _ heq
        obtain ⟨group, hgroup, hkind⟩ := h.node_kind above _ hparent
        obtain ⟨rfl, -, -⟩ := Group.kind_eq_internal_iff.1 hkind
        exact .child (ih _ hparent) hgroup hkey
  · intro hreach
    induction hreach with
    | root => exact h.level_mem root (List.mem_singleton.2 rfl)
    | @child path group key _ hgroup hkey ih =>
      obtain ⟨kind, hmem⟩ := ih
      obtain ⟨other, hother, hkind⟩ := h.node_kind path kind hmem
      rw [hgroup] at hother
      cases hother
      cases kind with
      | leaf tracks =>
        obtain ⟨hkeys, -, -⟩ := Group.kind_eq_leaf_iff.1 hkind
        rw [hkeys] at hkey
        cases hkey
      | internal keys =>
        obtain ⟨rfl, -, -⟩ := Group.kind_eq_internal_iff.1 hkind
        exact h.child_mem path _ hmem _ (Group.Kind.mem_childPaths.2 ⟨_, key, rfl, hkey, rfl⟩)

/-! ### When a subtree expands -/

theorem exists_expand_iff : (∃ item, expand catalog id root = .ok item) ↔
    ∀ path, catalog.Reaches root path → catalog.HasNode path := by
  constructor
  · rintro ⟨item, hitem⟩ path hreach
    obtain ⟨nodes, hlevels, -⟩ := expand_eq_ok hitem
    have hcollected := hlevels.collected
    obtain ⟨kind, hmem⟩ := hcollected.exists_kind_iff_reaches.2 hreach
    obtain ⟨group, hgroup, hkind⟩ := hcollected.node_kind path kind hmem
    exact ⟨group, hgroup, Group.exists_kind_iff.1 ⟨kind, hkind⟩⟩
  · intro hnode
    obtain ⟨group, hgroup, -⟩ := hnode root .root
    have hlookup : catalog.lookup root = .ok group := Catalog.lookup_eq_ok_iff.2 hgroup
    have hdepth : root.length ≤ catalog.depth := Catalog.length_le_depth hgroup
    have hreach : ∀ path ∈ [root], catalog.Reaches root path := by
      intro path hpath
      rw [List.mem_singleton.1 hpath]
      exact .root
    have hlevels : ∀ path ∈ [root],
        catalog.depth < path.length + (catalog.depth + 1 - root.length) := by
      intro path hpath
      rw [List.mem_singleton.1 hpath]
      omega
    obtain ⟨nodes, hnodes⟩ := exists_nodesFrom hnode hreach hlevels
    exact ⟨_, by simp only [expand, hlookup, hnodes]; rfl⟩

/-- An expansion fails for the root, which is unknown, or for a node that is inconsistent. -/
theorem of_expand_eq_error (h : expand catalog id root = .error error) :
    catalog.group? root = none ∧ error.kind = .unknownEntity ∨
      catalog.group? root ≠ none ∧ error.kind = .catalogInconsistency := by
  rcases bind_eq_error_iff.1 h with hdiscard | ⟨_, hdiscard, h⟩
  · cases hlookup : catalog.lookup root with
    | ok group =>
      rw [hlookup] at hdiscard
      cases hdiscard
    | error other =>
      rw [hlookup] at hdiscard
      cases hdiscard
      exact .inl (Catalog.of_lookup_eq_error hlookup)
  · right
    refine ⟨fun hnone => ?_, ?_⟩
    · have hlookup : catalog.lookup root = .error (.unknownPath root) := by
        simp [Catalog.lookup, hnone]
      rw [hlookup] at hdiscard
      cases hdiscard
    · rcases bind_eq_error_iff.1 h with hnodes | ⟨nodes, -, h⟩
      · exact kind_of_nodesFrom_eq_error hnodes
      · cases h

/-! ### What a subtree expands to -/

theorem mem_nodes_of_expand (h : expand catalog id root = .ok item) :
    path ∈ item.nodes ↔ catalog.Reaches root path := by
  obtain ⟨nodes, hlevels, rfl⟩ := expand_eq_ok h
  have hcollected := hlevels.collected
  exact hcollected.mem_nodes.trans hcollected.exists_kind_iff_reaches

theorem keysAt?_of_expand (h : expand catalog id root = .ok item)
    (hreach : catalog.Reaches root path) : ∃ group kind, catalog.group? path = some group ∧
      group.kind path = .ok kind ∧ item.keysAt? path = some kind.keys := by
  obtain ⟨nodes, hlevels, rfl⟩ := expand_eq_ok h
  have hcollected := hlevels.collected
  obtain ⟨kind, hmem⟩ := hcollected.exists_kind_iff_reaches.2 hreach
  obtain ⟨group, hgroup, hkind⟩ := hcollected.node_kind path kind hmem
  exact ⟨group, kind, hgroup, hkind, hcollected.getElem?_nodes.2 ⟨kind, hmem, rfl⟩⟩

theorem mem_tracks_of_expand (h : expand catalog id root = .ok item) {track : Path} :
    track ∈ item.tracks ↔ ∃ leaf group index, catalog.Reaches root leaf ∧
      catalog.group? leaf = some group ∧ group.keys = [] ∧ index < group.tracks.length ∧
      track = leaf.child (Key.ofIndex index) := by
  obtain ⟨nodes, hlevels, rfl⟩ := expand_eq_ok h
  have hcollected := hlevels.collected
  rw [List.mem_flatMap]
  constructor
  · rintro ⟨⟨leaf, kind⟩, hmem, htrack⟩
    obtain ⟨tracks, index, rfl, hindex, rfl⟩ := Group.Kind.mem_trackPaths.1 htrack
    obtain ⟨group, hgroup, hkind⟩ := hcollected.node_kind leaf _ hmem
    obtain ⟨hkeys, rfl, -⟩ := Group.kind_eq_leaf_iff.1 hkind
    have hreach := hcollected.exists_kind_iff_reaches.1 ⟨_, hmem⟩
    exact ⟨leaf, group, index, hreach, hgroup, hkeys, hindex, rfl⟩
  · rintro ⟨leaf, group, index, hreach, hgroup, hkeys, hindex, rfl⟩
    obtain ⟨kind, hmem⟩ := hcollected.exists_kind_iff_reaches.2 hreach
    obtain ⟨other, hother, hkind⟩ := hcollected.node_kind leaf kind hmem
    rw [hgroup] at hother
    cases hother
    have hleaf : group.kind leaf = .ok (.leaf group.tracks) :=
      Group.kind_eq_leaf_iff.2 ⟨hkeys, rfl, List.ne_nil_of_length_pos (by omega)⟩
    rw [hleaf] at hkind
    cases hkind
    exact ⟨_, hmem, Group.Kind.mem_trackPaths.2 ⟨_, index, rfl, hindex, rfl⟩⟩

/-- **Expansion is exact.** In a catalog in which no group lists a key twice, whatever else is amiss
with it, a subtree expands just if the catalog holds every path that listed keys lead to from the
root, each as a node with either children or tracks. Otherwise the root is unknown, or the catalog
is inconsistent. The nodes of the item are the paths that are reached, each with the keys of its
group or the indices of its tracks; its tracks are the tracks of the leaves, each once, and there
are some. -/
theorem expansion_exact (hdistinct : catalog.KeysDistinct) (id : Uuid) (root : Path) :
    ((∃ item, expand catalog id root = .ok item) ↔
      catalog.group? root ≠ none ∧ ∀ path, catalog.Reaches root path → catalog.HasNode path) ∧
    (∀ error, expand catalog id root = .error error →
      (error.kind = .unknownEntity ↔ catalog.group? root = none) ∧
      (error.kind = .catalogInconsistency ↔ catalog.group? root ≠ none)) ∧
    ∀ item, expand catalog id root = .ok item →
      (∀ path, path ∈ item.nodes ↔ catalog.Reaches root path) ∧
      (∀ path group, catalog.Reaches root path → catalog.group? path = some group →
        (group.tracks = [] → item.keysAt? path = some group.keys) ∧
        (group.keys = [] →
          item.keysAt? path = some ((List.range group.tracks.length).map Key.ofIndex))) ∧
      (∀ track, track ∈ item.tracks ↔ ∃ leaf group index, catalog.Reaches root leaf ∧
        catalog.group? leaf = some group ∧ group.keys = [] ∧ index < group.tracks.length ∧
        track = leaf.child (Key.ofIndex index)) ∧
      item.tracks.Nodup ∧ item.tracks ≠ [] := by
  refine ⟨?_, fun error herror => ?_, fun item hitem => ⟨?_, ?_, ?_, ?_, ?_⟩⟩
  · rw [exists_expand_iff]
    constructor
    · intro hnode
      obtain ⟨group, hgroup, -⟩ := hnode root .root
      exact ⟨by simp [hgroup], hnode⟩
    · exact And.right
  · rcases of_expand_eq_error herror with ⟨hroot, hkind⟩ | ⟨hroot, hkind⟩ <;> simp [hroot, hkind]
  · exact fun path => mem_nodes_of_expand hitem
  · intro path group hreach hgroup
    obtain ⟨other, kind, hother, hkind, hkeys⟩ := keysAt?_of_expand hitem hreach
    rw [hgroup] at hother
    cases hother
    rw [hkeys]
    cases kind with
    | internal keys =>
      obtain ⟨rfl, hne, -⟩ := Group.kind_eq_internal_iff.1 hkind
      exact ⟨fun _ => rfl, fun hnil => absurd hnil hne⟩
    | leaf tracks =>
      obtain ⟨-, rfl, hne⟩ := Group.kind_eq_leaf_iff.1 hkind
      exact ⟨fun hnil => absurd hnil hne, fun _ => rfl⟩
  · exact fun track => mem_tracks_of_expand hitem
  · exact (sound_of_expand hdistinct hitem).tracks_nodup
  · exact tracks_ne_nil_of_expand hitem

/-- A shelf that lists a box which is not there does not expand; its disc does. -/
theorem expansion_exact_shelf :
    let track : Track := ⟨"aria", "aria", "", [], [], none, none, none, 0⟩
    let groups : List (Path × Group) := [(["shelf"], ⟨"shelf", ["disc", "box"], []⟩),
      (["shelf", "disc"], ⟨"disc", [], [track, track]⟩)]
    let catalog := Catalog.ofGroups (.ofList groups)
    catalog.KeysDistinct ∧ (¬ ∃ item, expand catalog ⟨0⟩ ["shelf"] = .ok item) ∧
    ∃ item, expand catalog ⟨0⟩ ["shelf", "disc"] = .ok item ∧
      item.tracks = [["shelf", "disc", "0"], ["shelf", "disc", "1"]] ∧ item.tracks.Nodup := by
  intro track groups catalog
  have hdistinct : catalog.KeysDistinct := by decide +kernel
  refine ⟨hdistinct, ?_, _, rfl, by decide +kernel, ?_⟩
  · rw [(expansion_exact hdistinct ⟨0⟩ ["shelf"]).1]
    rintro ⟨-, hnode⟩
    have hreach : catalog.Reaches ["shelf"] ["shelf", "box"] :=
      @Catalog.Reaches.child _ _ ["shelf"] _ "box" .root rfl (by simp)
    obtain ⟨group, hgroup, -⟩ := hnode _ hreach
    cases hgroup
  · exact ((expansion_exact hdistinct ⟨0⟩ ["shelf", "disc"]).2.2 _ rfl).2.2.2.1

end Playlist.Item

end Jukebox
