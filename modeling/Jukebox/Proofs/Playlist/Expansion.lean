import Jukebox.Proofs.Playlist.Removal
import Mathlib.Data.List.Nodup

/-!
Expansion of a subtree: the nodes that are collected level by level are those that listed keys lead
to, each once if no group lists a key twice, and every index of a leaf gives a track. So an item is
sound when it is made.
-/

namespace Jukebox

open Jukebox.Path (child_inj)

/-! ### The paths of a node -/

namespace Group.Kind

variable {kind : Group.Kind} {path child : Path}

theorem mem_childPaths : child ∈ kind.childPaths path ↔
    ∃ keys key, kind = internal keys ∧ key ∈ keys ∧ child = path.child key := by
  cases kind <;> simp [childPaths, eq_comm]

theorem mem_trackPaths : child ∈ kind.trackPaths path ↔
    ∃ tracks index, kind = leaf tracks ∧ index < tracks.length ∧
      child = path.child (Key.ofIndex index) := by
  cases kind <;> simp [trackPaths, eq_comm]

theorem mem_keys {key : Key} : key ∈ kind.keys ↔
    path.child key ∈ kind.childPaths path ∨ path.child key ∈ kind.trackPaths path := by
  rw [mem_childPaths, mem_trackPaths]
  cases kind with
  | internal keys =>
    constructor
    · exact fun hkey => .inl ⟨keys, key, rfl, hkey, rfl⟩
    · rintro (⟨_, other, ⟨⟩, hother, heq⟩ | ⟨_, _, ⟨⟩, -⟩)
      rwa [(child_inj heq).2]
  | leaf tracks =>
    simp only [keys, List.mem_map, List.mem_range]
    constructor
    · rintro ⟨index, hindex, rfl⟩
      exact .inr ⟨tracks, index, rfl, hindex, rfl⟩
    · rintro (⟨_, _, ⟨⟩, -⟩ | ⟨_, index, ⟨⟩, hindex, heq⟩)
      exact ⟨index, hindex, (child_inj heq).2.symm⟩

theorem nodup_ofIndex (count : Nat) : ((List.range count).map Key.ofIndex).Nodup :=
  List.nodup_range.map fun _ _ => Key.ofIndex_injective

end Group.Kind

namespace Playlist.Item

open Jukebox.Path (prefix_child prefix_child_iff child_isBelow_iff)
open Result (bind_eq_ok_iff pure_eq_ok_iff mapM_eq_ok_iff)

variable {catalog : Catalog} {levels length : Nat} {level : List Path} {root path : Path}
variable {nodes : List (Path × Group.Kind)} {kind : Group.Kind}

/-! ### Collecting nodes -/

/-- The nodes that a level of paths leads to: those of the level, and with each node its children,
with the kinds that their groups have. -/
structure Collected (catalog : Catalog) (level : List Path) (nodes : List (Path × Group.Kind)) :
    Prop where
  node_kind : ∀ path kind, (path, kind) ∈ nodes →
    ∃ group, catalog.group? path = some group ∧ group.kind path = .ok kind
  level_mem : ∀ path ∈ level, ∃ kind, (path, kind) ∈ nodes
  child_mem : ∀ path kind, (path, kind) ∈ nodes → ∀ child ∈ kind.childPaths path,
    ∃ childKind, (child, childKind) ∈ nodes
  node_origin : ∀ path kind, (path, kind) ∈ nodes → path ∈ level ∨
    ∃ parent parentKind, (parent, parentKind) ∈ nodes ∧ path ∈ parentKind.childPaths parent

/-- The nodes of a level, in order and with the kinds that their groups have, and then the nodes of the
level of their children, and so on until a level is empty. -/
inductive ByLevel (catalog : Catalog) : List Path → List (Path × Group.Kind) → Prop
  | nil : ByLevel catalog [] []
  | level {here below : List (Path × Group.Kind)} (hhere : here ≠ [])
    (hkinds : ∀ path kind, (path, kind) ∈ here →
      ∃ group, catalog.group? path = some group ∧ group.kind path = .ok kind)
    (hbelow : ByLevel catalog (here.flatMap fun node => node.2.childPaths node.1) below) :
    ByLevel catalog (here.map Prod.fst) (here ++ below)

theorem nodes_of_mapM (h : (level.mapM fun path => do
      let group ← catalog.listed path
      return (path, ← group.kind path)) = .ok nodes) :
    nodes.map Prod.fst = level ∧ ∀ path kind, (path, kind) ∈ nodes →
      ∃ group, catalog.group? path = some group ∧ group.kind path = .ok kind := by
  rw [mapM_eq_ok_iff] at h
  induction h with
  | nil => simp
  | @cons path node level nodes hnode _ ih =>
    obtain ⟨group, hgroup, hbind⟩ := bind_eq_ok_iff.1 hnode
    obtain ⟨kind, hkind, hpure⟩ := bind_eq_ok_iff.1 hbind
    cases pure_eq_ok_iff.1 hpure
    refine ⟨by simp [ih.1], fun other otherKind hmem => ?_⟩
    rcases List.mem_cons.1 hmem with heq | hmem
    · cases heq
      exact ⟨group, Catalog.listed_eq_ok_iff.1 hgroup, hkind⟩
    · exact ih.2 other otherKind hmem

theorem byLevel_nodesFrom (h : nodesFrom catalog levels level = .ok nodes) :
    ByLevel catalog level nodes := by
  induction levels generalizing level nodes with
  | zero =>
    cases level with
    | nil => cases h; exact .nil
    | cons path rest => cases h
  | succ levels ih =>
    cases level with
    | nil => cases h; exact .nil
    | cons first rest =>
      obtain ⟨here, hhere, h⟩ := bind_eq_ok_iff.1 h
      obtain ⟨below, hbelow, hpure⟩ := bind_eq_ok_iff.1 h
      obtain ⟨hfst, hkinds⟩ := nodes_of_mapM hhere
      have hne : here ≠ [] := by
        rintro rfl
        cases hfst
      rw [← pure_eq_ok_iff.1 hpure, ← hfst]
      exact .level hne hkinds (ih hbelow)

theorem exists_of_mem_map_fst (h : path ∈ nodes.map Prod.fst) : ∃ kind, (path, kind) ∈ nodes := by
  obtain ⟨⟨path, kind⟩, hmem, rfl⟩ := List.mem_map.1 h
  exact ⟨kind, hmem⟩

theorem ByLevel.collected (h : ByLevel catalog level nodes) : Collected catalog level nodes := by
  induction h with
  | nil => exact ⟨by simp, by simp, by simp, by simp⟩
  | @level here below _ hkinds _ hrest =>
    refine ⟨fun path kind hmem => ?_, fun path hmem => ?_, fun path kind hmem child hchild => ?_,
      fun path kind hmem => ?_⟩
    · rcases List.mem_append.1 hmem with hmem | hmem
      · exact hkinds path kind hmem
      · exact hrest.node_kind path kind hmem
    · obtain ⟨kind, hmem⟩ := exists_of_mem_map_fst hmem
      exact ⟨kind, List.mem_append_left _ hmem⟩
    · -- the children of this level are the next level
      have hbelowMem : ∃ childKind, (child, childKind) ∈ below := by
        rcases List.mem_append.1 hmem with hmem | hmem
        · exact hrest.level_mem child (List.mem_flatMap.2 ⟨_, hmem, hchild⟩)
        · exact hrest.child_mem path kind hmem child hchild
      obtain ⟨childKind, hmem⟩ := hbelowMem
      exact ⟨childKind, List.mem_append_right _ hmem⟩
    · rcases List.mem_append.1 hmem with hmem | hmem
      · exact .inl (List.mem_map_of_mem hmem)
      · right
        rcases hrest.node_origin path kind hmem with hlevelMem | ⟨parent, parentKind, hparent, hpath⟩
        · obtain ⟨⟨parent, parentKind⟩, hparent, hpath⟩ := List.mem_flatMap.1 hlevelMem
          exact ⟨parent, parentKind, List.mem_append_left _ hparent, hpath⟩
        · exact ⟨parent, parentKind, List.mem_append_right _ hparent, hpath⟩

/-! ### No node is collected twice -/

theorem nodup_flatMap_children {α : Type} {nodes : List (Path × α)} {children : Path × α → List Path}
    (hnodes : (nodes.map Prod.fst).Nodup) (hnodup : ∀ node ∈ nodes, (children node).Nodup)
    (hparent : ∀ node ∈ nodes, ∀ child ∈ children node, ∃ key, child = node.1.child key) :
    (nodes.flatMap children).Nodup := by
  rw [List.nodup_flatMap]
  refine ⟨hnodup, ?_⟩
  rw [List.Nodup, List.pairwise_map] at hnodes
  refine hnodes.imp_of_mem fun {node other} hnode hother hne => ?_
  intro child hchild hchildOther
  obtain ⟨key, rfl⟩ := hparent node hnode child hchild
  obtain ⟨otherKey, heq⟩ := hparent other hother _ hchildOther
  exact hne (child_inj heq).1

theorem nodup_childPaths (hdistinct : catalog.KeysDistinct) {group : Group}
    (hgroup : catalog.group? path = some group) (hkind : group.kind path = .ok kind) :
    (kind.childPaths path).Nodup := by
  cases kind with
  | leaf tracks => exact List.nodup_nil
  | internal keys =>
    obtain ⟨rfl, -, -⟩ := Group.kind_eq_internal_iff.1 hkind
    exact (hdistinct path group hgroup).map fun _ _ h => (child_inj h).2

theorem length_of_mem_children (hlength : ∀ path ∈ nodes.map Prod.fst, path.length = length)
    (hpath : path ∈ nodes.flatMap fun node => node.2.childPaths node.1) :
    path.length = length + 1 := by
  obtain ⟨node, hnode, hchild⟩ := List.mem_flatMap.1 hpath
  obtain ⟨_, key, -, -, rfl⟩ := Group.Kind.mem_childPaths.1 hchild
  rw [Path.length_child, hlength node.1 (List.mem_map_of_mem hnode)]

theorem ByLevel.length_le (h : ByLevel catalog level nodes)
    (hlength : ∀ path ∈ level, path.length = length) :
    ∀ path ∈ nodes.map Prod.fst, length ≤ path.length := by
  induction h generalizing length with
  | nil => simp
  | @level here below _ _ _ ih =>
    have hbelow := ih fun path => length_of_mem_children hlength
    intro path hpath
    rw [List.map_append, List.mem_append] at hpath
    rcases hpath with hpath | hpath
    · exact Nat.le_of_eq (hlength path hpath).symm
    · have := hbelow path hpath
      omega

theorem ByLevel.nodup (h : ByLevel catalog level nodes) (hdistinct : catalog.KeysDistinct)
    (hlength : ∀ path ∈ level, path.length = length) (hnodup : level.Nodup) :
    (nodes.map Prod.fst).Nodup := by
  induction h generalizing length with
  | nil => exact List.nodup_nil
  | @level here below _ hkinds hbelow ih =>
    have hchildren : ∀ node ∈ here, ∀ child ∈ node.2.childPaths node.1,
        ∃ key, child = node.1.child key := by
      intro node _ child hchild
      obtain ⟨_, key, -, -, heq⟩ := Group.Kind.mem_childPaths.1 hchild
      exact ⟨key, heq⟩
    have hlengthBelow : ∀ child ∈ here.flatMap (fun node => node.2.childPaths node.1),
        child.length = length + 1 := fun child => length_of_mem_children hlength
    have hnodupBelow : (here.flatMap fun node => node.2.childPaths node.1).Nodup := by
      refine nodup_flatMap_children hnodup (fun node hnode => ?_) hchildren
      obtain ⟨group, hgroup, hkind⟩ := hkinds node.1 node.2 hnode
      exact nodup_childPaths hdistinct hgroup hkind
    have hbelowLength := hbelow.length_le hlengthBelow
    rw [List.map_append]
    refine List.Nodup.append hnodup (ih hlengthBelow hnodupBelow) fun path hpath hpathBelow => ?_
    have hhere := hlength path hpath
    have hthere := hbelowLength path hpathBelow
    omega

/-! ### The expanded item -/

theorem expand_eq_ok {id : Uuid} {item : Item} (h : expand catalog id root = .ok item) :
    ∃ nodes, ByLevel catalog [root] nodes ∧
      item = {
        id, root
        nodes := .ofList (nodes.map fun node => (node.1, node.2.keys))
        tracks := nodes.flatMap fun node => node.2.trackPaths node.1 } := by
  obtain ⟨-, -, h⟩ := bind_eq_ok_iff.1 h
  obtain ⟨nodes, hnodes, hpure⟩ := bind_eq_ok_iff.1 h
  exact ⟨nodes, byLevel_nodesFrom hnodes, (pure_eq_ok_iff.1 hpure).symm⟩

theorem Collected.kind_unique (h : Collected catalog level nodes) {other : Group.Kind}
    (hmem : (path, kind) ∈ nodes) (hother : (path, other) ∈ nodes) : kind = other := by
  obtain ⟨group, hgroup, hkind⟩ := h.node_kind path kind hmem
  obtain ⟨group', hgroup', hkind'⟩ := h.node_kind path other hother
  rw [hgroup] at hgroup'
  cases hgroup'
  rw [hkind] at hkind'
  exact Except.ok.inj hkind'

theorem Collected.getElem?_nodes (h : Collected catalog level nodes) {keys : List Key} :
    (Std.ExtTreeMap.ofList (nodes.map fun node => (node.1, node.2.keys)))[path]? = some keys ↔
      ∃ kind, (path, kind) ∈ nodes ∧ kind.keys = keys := by
  rw [Map.getElem?_ofList_eq_some_iff]
  · simp
  · intro path keys otherKeys hkeys hother
    simp only [List.mem_map, Prod.mk.injEq, Prod.exists] at hkeys hother
    obtain ⟨_, kind, hmem, rfl, rfl⟩ := hkeys
    obtain ⟨_, other, hmemOther, rfl, rfl⟩ := hother
    rw [h.kind_unique hmem hmemOther]

theorem Collected.mem_nodes (h : Collected catalog level nodes) :
    path ∈ (Std.ExtTreeMap.ofList (nodes.map fun node => (node.1, node.2.keys)) :
      Std.ExtTreeMap Path (List Key)) ↔ ∃ kind, (path, kind) ∈ nodes := by
  constructor
  · intro hmem
    obtain ⟨keys, hkeys⟩ := Map.exists_getElem? hmem
    obtain ⟨kind, hkind, -⟩ := h.getElem?_nodes.1 hkeys
    exact ⟨kind, hkind⟩
  · rintro ⟨kind, hkind⟩
    exact Map.mem_of_getElem? (h.getElem?_nodes.2 ⟨kind, hkind, rfl⟩)

theorem Collected.root_prefix (h : Collected catalog [root] nodes) (hmem : (path, kind) ∈ nodes) :
    root <+: path := by
  induction path using List.reverseRecOn generalizing kind with
  | nil =>
    rcases h.node_origin [] kind hmem with hroot | ⟨parent, parentKind, -, hchild⟩
    · exact List.mem_singleton.1 hroot ▸ List.prefix_refl _
    · obtain ⟨_, _, -, -, heq⟩ := Group.Kind.mem_childPaths.1 hchild
      simp [Path.child] at heq
  | append_singleton above last ih =>
    rcases h.node_origin _ kind hmem with hroot | ⟨parent, parentKind, hparent, hchild⟩
    · exact List.mem_singleton.1 hroot ▸ List.prefix_refl _
    · obtain ⟨_, key, -, -, heq⟩ := Group.Kind.mem_childPaths.1 hchild
      obtain ⟨rfl, rfl⟩ := @child_inj above _ last _ heq
      exact (ih hparent).trans (prefix_child _ _)

/-- A node that is a child of a collected node is listed by that node, which is internal. -/
theorem Collected.child_origin (h : Collected catalog [root] nodes) {key : Key}
    {childKind : Group.Kind} (hmem : (path, kind) ∈ nodes)
    (hchild : (path.child key, childKind) ∈ nodes) : path.child key ∈ kind.childPaths path := by
  rcases h.node_origin _ childKind hchild with hroot | ⟨parent, parentKind, hparent, horigin⟩
  · -- a child is longer than what the root is at most
    have hlength := (h.root_prefix hmem).length_le
    rw [← List.mem_singleton.1 hroot, Path.length_child] at hlength
    omega
  · obtain ⟨_, _, -, -, heq⟩ := Group.Kind.mem_childPaths.1 horigin
    obtain ⟨rfl, -⟩ := child_inj heq
    rwa [h.kind_unique hmem hparent]

/-- What is collected from a root has grown from it, whether or not a group lists a key twice. -/
theorem Collected.grown (h : Collected catalog [root] nodes) :
    Grown root (.ofList (nodes.map fun node => (node.1, node.2.keys)))
      (nodes.flatMap fun node => node.2.trackPaths node.1) := by
  refine { root_mem := ?_, node_linked := ?_, track_linked := ?_, apart := ?_ }
  · exact h.mem_nodes.2 (h.level_mem root (List.mem_singleton.2 rfl))
  · intro path hpath hroot
    obtain ⟨kind, hmem⟩ := h.mem_nodes.1 hpath
    refine ⟨Path.isBelow_iff.2 ⟨h.root_prefix hmem, hroot.symm⟩, ?_⟩
    obtain ⟨parent, parentKind, hparent, hchild⟩ :=
      (h.node_origin path kind hmem).resolve_left fun hlevel => hroot (List.mem_singleton.1 hlevel)
    obtain ⟨keys, key, rfl, hkey, rfl⟩ := Group.Kind.mem_childPaths.1 hchild
    exact ⟨parent, key, keys, rfl, h.getElem?_nodes.2 ⟨_, hparent, rfl⟩, hkey⟩
  · intro track htrack
    obtain ⟨⟨leaf, kind⟩, hmem, htrack⟩ := List.mem_flatMap.1 htrack
    obtain ⟨tracks, index, rfl, hindex, rfl⟩ := Group.Kind.mem_trackPaths.1 htrack
    refine ⟨leaf, Key.ofIndex index, _, rfl, h.getElem?_nodes.2 ⟨_, hmem, rfl⟩, ?_⟩
    exact Group.Kind.mem_keys.2 (.inr htrack)
  · intro path hpath htrack
    -- a node below a leaf would be a child of the leaf, which has none
    obtain ⟨childKind, hchild⟩ := h.mem_nodes.1 hpath
    obtain ⟨⟨leaf, kind⟩, hmem, htrack⟩ := List.mem_flatMap.1 htrack
    obtain ⟨tracks, index, rfl, -, rfl⟩ := Group.Kind.mem_trackPaths.1 htrack
    exact List.not_mem_nil (h.child_origin hmem hchild)

theorem Collected.linked (h : Collected catalog [root] nodes) (hdistinct : catalog.KeysDistinct)
    (hnodup : (nodes.map Prod.fst).Nodup) :
    Linked root (.ofList (nodes.map fun node => (node.1, node.2.keys)))
      (nodes.flatMap fun node => node.2.trackPaths node.1) := by
  refine { root_mem := h.grown.root_mem, node_linked := h.grown.node_linked,
           track_linked := h.grown.track_linked, keys_ne_nil := ?_, keys_nodup := ?_,
           tracks_nodup := ?_ }
  · intro path keys hkeys _
    obtain ⟨kind, hmem, rfl⟩ := h.getElem?_nodes.1 hkeys
    obtain ⟨group, -, hkind⟩ := h.node_kind path kind hmem
    cases kind with
    | internal keys => exact (Group.kind_eq_internal_iff.1 hkind).2.1
    | leaf tracks => simpa [Group.Kind.keys] using (Group.kind_eq_leaf_iff.1 hkind).2.2
  · intro path keys hkeys
    obtain ⟨kind, hmem, rfl⟩ := h.getElem?_nodes.1 hkeys
    obtain ⟨group, hgroup, hkind⟩ := h.node_kind path kind hmem
    cases kind with
    | internal keys =>
      obtain ⟨rfl, -, -⟩ := Group.kind_eq_internal_iff.1 hkind
      exact hdistinct path group hgroup
    | leaf tracks => exact Group.Kind.nodup_ofIndex tracks.length
  · refine nodup_flatMap_children hnodup (fun node _ => ?_) fun node _ child hchild => ?_
    · cases hkind : node.2 with
      | internal keys => exact List.nodup_nil
      | leaf tracks =>
        exact List.nodup_range.map fun _ _ heq => (Path.child_ofIndex_inj heq).2
    · obtain ⟨_, index, -, -, heq⟩ := Group.Kind.mem_trackPaths.1 hchild
      exact ⟨_, heq⟩

theorem Collected.wired (h : Collected catalog [root] nodes) (hdistinct : catalog.KeysDistinct)
    (hnodup : (nodes.map Prod.fst).Nodup) :
    Wired root (.ofList (nodes.map fun node => (node.1, node.2.keys)))
      (nodes.flatMap fun node => node.2.trackPaths node.1) := by
  refine { toLinked := h.linked hdistinct hnodup, key_leads := fun path keys key hkeys hkey => ?_ }
  obtain ⟨kind, hmem, rfl⟩ := h.getElem?_nodes.1 hkeys
  cases kind with
  | internal keys =>
    have hchild : path.child key ∈ (Group.Kind.internal keys).childPaths path :=
      Group.Kind.mem_childPaths.2 ⟨keys, key, rfl, hkey, rfl⟩
    have hnode := h.mem_nodes.2 (h.child_mem path _ hmem _ hchild)
    exact .inl ⟨hnode, h.grown.apart _ hnode⟩
  | leaf tracks =>
    have hchild : path.child key ∈ (Group.Kind.leaf tracks).trackPaths path :=
      (Group.Kind.mem_keys.1 hkey).resolve_left List.not_mem_nil
    have htrack : path.child key ∈ nodes.flatMap fun node => node.2.trackPaths node.1 :=
      List.mem_flatMap.2 ⟨_, hmem, hchild⟩
    exact .inr ⟨fun hnode => h.grown.apart _ hnode htrack, htrack⟩

/-- From a level that is not empty listed keys lead down to a leaf. -/
theorem ByLevel.exists_leaf (h : ByLevel catalog level nodes) (hlevel : level ≠ []) :
    ∃ path tracks, (path, Group.Kind.leaf tracks) ∈ nodes ∧ tracks ≠ [] := by
  induction h with
  | nil => exact absurd rfl hlevel
  | @level here below hhere hkinds _ ih =>
    obtain ⟨⟨path, kind⟩, rest, rfl⟩ := List.exists_cons_of_ne_nil hhere
    obtain ⟨group, -, hkind⟩ := hkinds path kind List.mem_cons_self
    cases kind with
    | leaf tracks =>
      obtain ⟨-, -, htracks⟩ := Group.kind_eq_leaf_iff.1 hkind
      exact ⟨path, tracks, by simp, htracks⟩
    | internal keys =>
      -- the node has keys, so that there is a next level
      obtain ⟨-, hkeys, -⟩ := Group.kind_eq_internal_iff.1 hkind
      obtain ⟨found, tracks, hmem, htracks⟩ := ih (by simp [Group.Kind.childPaths, hkeys])
      exact ⟨found, tracks, List.mem_append_right _ hmem, htracks⟩

theorem tracks_ne_nil_of_expand {id : Uuid} {item : Item}
    (h : expand catalog id root = .ok item) : item.tracks ≠ [] := by
  obtain ⟨nodes, hlevels, rfl⟩ := expand_eq_ok h
  obtain ⟨path, tracks, hmem, htracks⟩ := hlevels.exists_leaf (by simp)
  obtain ⟨track, rest, rfl⟩ := List.exists_cons_of_ne_nil htracks
  have hfirst : path.child (Key.ofIndex 0) ∈ (Group.Kind.leaf (track :: rest)).trackPaths path :=
    Group.Kind.mem_trackPaths.2 ⟨_, 0, rfl, by simp, rfl⟩
  exact List.ne_nil_of_mem (List.mem_flatMap.2 ⟨_, hmem, hfirst⟩)

/-- **An item is sound when it is made.** -/
theorem sound_of_expand {id : Uuid} {item : Item} (hdistinct : catalog.KeysDistinct)
    (h : expand catalog id root = .ok item) : item.Sound catalog := by
  obtain ⟨nodes, hlevels, rfl⟩ := expand_eq_ok h
  have hcollected := hlevels.collected
  have hlength : ∀ path ∈ [root], path.length = root.length := by simp
  have hnodup := hlevels.nodup hdistinct hlength (List.nodup_singleton root)
  refine { toWired := hcollected.wired hdistinct hnodup, track_exists := fun track htrack => ?_ }
  obtain ⟨⟨leaf, kind⟩, hmem, htrack⟩ := List.mem_flatMap.1 htrack
  obtain ⟨tracks, index, rfl, hindex, rfl⟩ := Group.Kind.mem_trackPaths.1 htrack
  obtain ⟨group, hgroup, hkind⟩ := hcollected.node_kind leaf _ hmem
  obtain ⟨hkeys, rfl, -⟩ := Group.kind_eq_leaf_iff.1 hkind
  rw [Catalog.ensureTrack_eq_ok_iff]
  exact ⟨_, Catalog.locate_eq_ok_iff.2 ⟨leaf, Key.ofIndex index, index, group, rfl,
    hcollected.root_prefix hmem, Key.number?_ofIndex index, hgroup, hkeys, hindex, rfl⟩⟩

end Playlist.Item

end Jukebox
