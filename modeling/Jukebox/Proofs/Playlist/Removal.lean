import Jukebox.Playlist.Item
import Jukebox.Proofs.Catalog.Basic
import Mathlib.Data.List.Induction

/-!
Sound items: the nodes of an item with their keys and its list of tracks describe one and the same
subtree of the catalog. Removing a part keeps an item sound. On the way there is a key that leads
nowhere; it moves up from ancestor to ancestor until one is left that keeps other keys.
-/

namespace Jukebox.Playlist.Item

open Map (mem_of_getElem? getElem?_insert getElem?_erase mem_insert_of_getElem? mem_erase)
open Jukebox.Path (child_inj prefix_child prefix_child_iff child_isBelow_iff isUnder_iff)
open Result (bind_eq_ok_iff pure_eq_ok_iff)

/-! ### Sound items -/

/-- A recorded node lists a path: the node is the parent, and the last key is among its keys. -/
def Lists (nodes : Std.ExtTreeMap Path (List Key)) (path : Path) : Prop :=
  ∃ (parent : Path) (key : Key) (keys : List Key),
    path = parent.child key ∧ nodes[parent]? = some keys ∧ key ∈ keys

/-- A path leads to exactly one of a recorded node and a track. -/
def LeadsOn (nodes : Std.ExtTreeMap Path (List Key)) (tracks : List Path) (path : Path) : Prop :=
  path ∈ nodes ∧ path ∉ tracks ∨ path ∉ nodes ∧ path ∈ tracks

/-- What is recorded hangs together: all but the root is listed by its parent, no node but the root
is without keys, and nothing is listed twice. -/
structure Linked (root : Path) (nodes : Std.ExtTreeMap Path (List Key)) (tracks : List Path) :
    Prop where
  root_mem : root ∈ nodes
  node_linked : ∀ path ∈ nodes, path ≠ root → path.isBelow root = true ∧ Lists nodes path
  track_linked : ∀ track ∈ tracks, Lists nodes track
  keys_ne_nil : ∀ (path : Path) (keys : List Key), nodes[path]? = some keys → path ≠ root → keys ≠ []
  keys_nodup : ∀ (path : Path) (keys : List Key), nodes[path]? = some keys → keys.Nodup
  tracks_nodup : tracks.Nodup

/-- Every key leads on as well, to a node or to a track. -/
structure Wired (root : Path) (nodes : Std.ExtTreeMap Path (List Key)) (tracks : List Path) : Prop
    extends Linked root nodes tracks where
  key_leads : ∀ (path : Path) (keys : List Key) (key : Key), nodes[path]? = some keys → key ∈ keys →
    LeadsOn nodes tracks (path.child key)

/-- **A sound item**: its nodes and tracks hang together, every key leads to a node or to a track,
and every track is one of the catalog, below the root. -/
structure Sound (catalog : Catalog) (item : Item) : Prop
    extends Wired item.root item.nodes item.tracks where
  track_exists : ∀ track ∈ item.tracks, catalog.ensureTrack item.root track = .ok ()

/-- The keys on the way to a removed path are all there still, but nothing at or below it is. -/
structure Severed (root : Path) (nodes : Std.ExtTreeMap Path (List Key)) (tracks : List Path)
    (cut : Path) : Prop extends Linked root nodes tracks where
  cut_listed : Lists nodes cut
  gone : ∀ path, cut <+: path → path ∉ nodes ∧ path ∉ tracks
  key_leads : ∀ (path : Path) (keys : List Key) (key : Key), nodes[path]? = some keys → key ∈ keys →
    path.child key ≠ cut → LeadsOn nodes tracks (path.child key)

/-- What is recorded hangs on the root: every other node, and every track, is listed by its parent. -/
structure Rooted (root : Path) (nodes : Std.ExtTreeMap Path (List Key)) (tracks : List Path) :
    Prop where
  root_mem : root ∈ nodes
  node_linked : ∀ path ∈ nodes, path ≠ root → path.isBelow root = true ∧ Lists nodes path
  track_linked : ∀ track ∈ tracks, Lists nodes track

/-- What grows from a root hangs on it, and no path leads to both a node and a track. Keys may be
listed twice, and tracks too. -/
structure Grown (root : Path) (nodes : Std.ExtTreeMap Path (List Key)) (tracks : List Path) : Prop
    extends Rooted root nodes tracks where
  apart : ∀ path ∈ nodes, path ∉ tracks

/-- The path that is removed is still listed, but nothing at or below it is recorded. -/
structure Cut (root : Path) (nodes : Std.ExtTreeMap Path (List Key)) (tracks : List Path)
    (cut : Path) : Prop extends Grown root nodes tracks where
  cut_listed : Lists nodes cut
  gone : ∀ path, cut <+: path → path ∉ nodes ∧ path ∉ tracks

section

variable {root path top cut parent : Path} {key : Key} {keys : List Key}
variable {nodes : Std.ExtTreeMap Path (List Key)} {tracks : List Path}

/-! ### What is recorded above a path -/

theorem Linked.rooted (h : Linked root nodes tracks) : Rooted root nodes tracks :=
  ⟨h.root_mem, h.node_linked, h.track_linked⟩

theorem Rooted.root_prefix (h : Rooted root nodes tracks) (hpath : path ∈ nodes) : root <+: path := by
  by_cases hroot : path = root
  · exact hroot ▸ List.prefix_refl root
  · exact (Path.isBelow_iff.1 (h.node_linked path hpath hroot).1).1

theorem Rooted.lists (h : Rooted root nodes tracks) (hpath : path ∈ nodes ∨ path ∈ tracks)
    (hroot : path ≠ root) : Lists nodes path :=
  hpath.elim (fun hnode => (h.node_linked path hnode hroot).2) (h.track_linked path)

theorem Rooted.mem_of_prefix (h : Rooted root nodes tracks) (hroot : root <+: top)
    (htop : top <+: path) (hne : top ≠ path) (hpath : path ∈ nodes ∨ path ∈ tracks) :
    top ∈ nodes := by
  induction path using List.reverseRecOn with
  | nil => exact absurd (List.prefix_nil.1 htop) hne
  | append_singleton above last ih =>
    have hpathRoot : above ++ [last] ≠ root := by
      rintro rfl
      exact hne (htop.eq_of_length_le hroot.length_le)
    obtain ⟨parent, key, keys, hchild, hkeys, -⟩ := h.lists hpath hpathRoot
    obtain ⟨rfl, rfl⟩ := @child_inj above _ last _ hchild
    have habove := (prefix_child_iff.1 htop).resolve_left hne
    have hmem := mem_of_getElem? hkeys
    by_cases heq : top = above
    · rwa [heq]
    · exact ih habove heq (.inl hmem)

/-- Above whatever is recorded below a node, the node lists the first key on the way. -/
theorem Rooted.key_mem_of_child_prefix (h : Rooted root nodes tracks)
    (hkeys : nodes[parent]? = some keys) (hchild : parent.child key <+: path)
    (hpath : path ∈ nodes ∨ path ∈ tracks) :
    key ∈ keys ∧ (parent.child key ∈ nodes ∨ parent.child key ∈ tracks) := by
  have hroot : root <+: parent := h.root_prefix (mem_of_getElem? hkeys)
  have hheld : parent.child key ∈ nodes ∨ parent.child key ∈ tracks := by
    by_cases heq : parent.child key = path
    · rwa [heq]
    · exact .inl (h.mem_of_prefix (hroot.trans (prefix_child parent key)) hchild heq hpath)
  have hchildRoot : parent.child key ≠ root :=
    (Path.isBelow_iff.1 (child_isBelow_iff.2 hroot)).2.symm
  obtain ⟨parent', key', keys', heq, hkeys', hmem⟩ := h.lists hheld hchildRoot
  obtain ⟨rfl, rfl⟩ := child_inj heq
  rw [hkeys] at hkeys'
  cases hkeys'
  exact ⟨hmem, hheld⟩

/-- What is found at or below a path that lies below the root: the path itself is recorded. -/
theorem Rooted.mem_of_holds (h : Rooted root nodes tracks) (hbelow : path.isBelow root = true)
    {held : Path} (hheld : held ∈ nodes ∨ held ∈ tracks) (hunder : path <+: held) :
    path ∈ nodes ∨ path ∈ tracks := by
  by_cases heq : path = held
  · rwa [heq]
  · exact .inl (h.mem_of_prefix (Path.isBelow_iff.1 hbelow).1 hunder heq hheld)

theorem Rooted.root_not_mem_tracks (h : Rooted root nodes tracks) : root ∉ tracks := by
  intro hroot
  obtain ⟨parent, key, keys, heq, hkeys, -⟩ := h.track_linked root hroot
  have hlength := (h.root_prefix (mem_of_getElem? hkeys)).length_le
  rw [heq, Path.length_child] at hlength
  omega

/-- What hangs on the root has grown from it if all nodes are led to by keys that lead to no track. -/
theorem Rooted.grown (h : Rooted root nodes tracks)
    (hleads : ∀ path ∈ nodes, path ≠ root → LeadsOn nodes tracks path) : Grown root nodes tracks := by
  refine { toRooted := h, apart := fun path hpath htrack => ?_ }
  by_cases hroot : path = root
  · exact h.root_not_mem_tracks (hroot ▸ htrack)
  · rcases hleads path hpath hroot with ⟨-, hnot⟩ | ⟨hnot, -⟩
    · exact hnot htrack
    · exact hnot hpath

theorem Wired.grown (h : Wired root nodes tracks) : Grown root nodes tracks := by
  refine h.rooted.grown fun path hpath hroot => ?_
  obtain ⟨-, parent, key, keys, rfl, hkeys, hkey⟩ := h.node_linked path hpath hroot
  exact h.key_leads parent keys key hkeys hkey

theorem Severed.cutOff (h : Severed root nodes tracks cut) : Cut root nodes tracks cut := by
  have hgrown : Grown root nodes tracks := by
    refine h.rooted.grown fun path hpath hroot => ?_
    obtain ⟨-, parent, key, keys, rfl, hkeys, hkey⟩ := h.node_linked path hpath hroot
    refine h.key_leads parent keys key hkeys hkey ?_
    rintro rfl
    exact (h.gone _ (List.prefix_refl _)).1 hpath
  exact { toGrown := hgrown, cut_listed := h.cut_listed, gone := h.gone }

/-! ### Severing -/

theorem mem_filter_nodes : path ∈ nodes.filter (fun node _ => !node.isUnder cut) ↔
    path ∈ nodes ∧ ¬ cut <+: path := by
  rw [← isUnder_iff, Std.ExtTreeMap.mem_iff_isSome_getElem?, Std.ExtTreeMap.getElem?_filter',
    Std.ExtTreeMap.mem_iff_isSome_getElem?]
  cases nodes[path]? <;> simp [Option.filter]

theorem getElem?_filter_nodes :
    (nodes.filter (fun node _ => !node.isUnder cut))[path]? = some keys ↔
      nodes[path]? = some keys ∧ ¬ cut <+: path := by
  rw [← isUnder_iff, Std.ExtTreeMap.getElem?_filter', Option.filter_eq_some_iff]
  simp

theorem mem_filter_tracks : path ∈ tracks.filter (fun track => !track.isUnder cut) ↔
    path ∈ tracks ∧ ¬ cut <+: path := by
  rw [← isUnder_iff, List.mem_filter]
  simp

/-- What is listed and left, or is the severed path itself, is listed by a node that is left. -/
theorem Lists.sever (h : Lists nodes path) (hleft : ¬ cut <+: path ∨ path = cut) :
    Lists (nodes.filter fun node _ => !node.isUnder cut) path := by
  obtain ⟨parent, key, keys, rfl, hkeys, hmem⟩ := h
  refine ⟨parent, key, keys, rfl, getElem?_filter_nodes.2 ⟨hkeys, fun hparent => ?_⟩, hmem⟩
  rcases hleft with hleft | heq
  · exact hleft (hparent.trans (prefix_child parent key))
  · have hlength := hparent.length_le
    rw [← heq, Path.length_child] at hlength
    omega

/-- Taking away all at or below a path that lies below the root, and is recorded, cuts it off. -/
theorem Grown.cutOff (h : Grown root nodes tracks) (hbelow : cut.isBelow root = true)
    (hcut : cut ∈ nodes ∨ cut ∈ tracks) :
    Cut root (nodes.filter fun node _ => !node.isUnder cut)
      (tracks.filter fun track => !track.isUnder cut) cut := by
  obtain ⟨hroot, hne⟩ := Path.isBelow_iff.1 hbelow
  refine { root_mem := ?_, node_linked := ?_, track_linked := ?_, apart := ?_, cut_listed := ?_,
           gone := ?_ }
  · exact mem_filter_nodes.2 ⟨h.root_mem, fun hcutRoot =>
      hne (hroot.eq_of_length_le hcutRoot.length_le)⟩
  · intro path hpath hpathRoot
    obtain ⟨hpath, hleft⟩ := mem_filter_nodes.1 hpath
    obtain ⟨hpathBelow, hlisted⟩ := h.node_linked path hpath hpathRoot
    exact ⟨hpathBelow, hlisted.sever (.inl hleft)⟩
  · intro track htrack
    obtain ⟨htrack, hleft⟩ := mem_filter_tracks.1 htrack
    exact (h.track_linked track htrack).sever (.inl hleft)
  · intro path hpath htrack
    exact h.apart path (mem_filter_nodes.1 hpath).1 (mem_filter_tracks.1 htrack).1
  · exact (h.lists hcut hne.symm).sever (.inr rfl)
  · intro path hpath
    exact ⟨fun hmem => (mem_filter_nodes.1 hmem).2 hpath,
      fun hmem => (mem_filter_tracks.1 hmem).2 hpath⟩

/-- Where every key led on, only the one of the path that is cut off leads nowhere then. -/
theorem Wired.severed (h : Wired root nodes tracks) (hbelow : cut.isBelow root = true)
    (hcut : cut ∈ nodes ∨ cut ∈ tracks) :
    Severed root (nodes.filter fun node _ => !node.isUnder cut)
      (tracks.filter fun track => !track.isUnder cut) cut := by
  have hleft := h.grown.cutOff hbelow hcut
  refine { root_mem := hleft.root_mem, node_linked := hleft.node_linked,
           track_linked := hleft.track_linked, keys_ne_nil := ?_, keys_nodup := ?_,
           tracks_nodup := h.tracks_nodup.filter _, cut_listed := hleft.cut_listed,
           gone := hleft.gone, key_leads := ?_ }
  · intro path keys hkeys
    exact h.keys_ne_nil path keys (getElem?_filter_nodes.1 hkeys).1
  · intro path keys hkeys
    exact h.keys_nodup path keys (getElem?_filter_nodes.1 hkeys).1
  · intro path keys key hkeys hkey hchild
    obtain ⟨hkeys, hleft⟩ := getElem?_filter_nodes.1 hkeys
    -- the child lies at or below the severed path only if it is that path
    have hleftChild : ¬ cut <+: path.child key := fun hunder =>
      (prefix_child_iff.1 hunder).elim (fun heq => hchild heq.symm) hleft
    unfold LeadsOn
    rw [mem_filter_nodes, mem_filter_tracks]
    simp only [hleftChild, not_false_eq_true, and_true]
    exact h.key_leads path keys key hkeys hkey

/-! ### Striking the key that leads nowhere -/

theorem Cut.ne (h : Cut root nodes tracks cut) (hpath : path ∈ nodes ∨ path ∈ tracks) :
    path ≠ cut := by
  rintro rfl
  exact hpath.elim (h.gone _ (List.prefix_refl _)).1 (h.gone _ (List.prefix_refl _)).2

/-- All that is still recorded is listed under another key than the one that is struck. -/
theorem Lists.strike (h : Lists nodes path) (hkeys : nodes[parent]? = some keys)
    (hne : path ≠ parent.child key) : Lists (nodes.insert parent (keys.filter (· ≠ key))) path := by
  obtain ⟨other, otherKey, otherKeys, rfl, hother, hmemKey⟩ := h
  by_cases heq : parent = other
  · subst heq
    rw [hkeys] at hother
    cases hother
    refine ⟨parent, otherKey, _, rfl, by rw [getElem?_insert, if_pos rfl], ?_⟩
    exact List.mem_filter.2 ⟨hmemKey, by simpa using fun hkey => hne (by rw [hkey])⟩
  · exact ⟨other, otherKey, otherKeys, rfl, by rw [getElem?_insert, if_neg heq]; exact hother, hmemKey⟩

theorem Cut.strike (h : Cut root nodes tracks (parent.child key)) (hkeys : nodes[parent]? = some keys) :
    Grown root (nodes.insert parent (keys.filter (· ≠ key))) tracks := by
  refine { root_mem := ?_, node_linked := ?_, track_linked := ?_, apart := ?_ }
  · exact (mem_insert_of_getElem? hkeys _).2 h.root_mem
  · intro path hpath hpathRoot
    rw [mem_insert_of_getElem? hkeys] at hpath
    obtain ⟨hbelow, hlisted⟩ := h.node_linked path hpath hpathRoot
    exact ⟨hbelow, hlisted.strike hkeys (h.ne (.inl hpath))⟩
  · intro track htrack
    exact (h.track_linked track htrack).strike hkeys (h.ne (.inr htrack))
  · intro path hpath
    rw [mem_insert_of_getElem? hkeys] at hpath
    exact h.apart path hpath

/-- A parent that keeps other keys, or is the root, just loses the key. -/
theorem Severed.strike (h : Severed root nodes tracks (parent.child key))
    (hkeys : nodes[parent]? = some keys)
    (hrest : parent ≠ root → (keys.filter (· ≠ key)) ≠ []) :
    Wired root (nodes.insert parent (keys.filter (· ≠ key))) tracks := by
  have hgrown := h.cutOff.strike hkeys
  refine { root_mem := hgrown.root_mem, node_linked := hgrown.node_linked,
           track_linked := hgrown.track_linked, keys_ne_nil := ?_, keys_nodup := ?_,
           tracks_nodup := h.tracks_nodup, key_leads := ?_ }
  · intro path others hothers hpathRoot
    rw [getElem?_insert] at hothers
    split at hothers
    · rename_i heq
      cases hothers
      exact hrest (heq ▸ hpathRoot)
    · exact h.keys_ne_nil path others hothers hpathRoot
  · intro path others hothers
    rw [getElem?_insert] at hothers
    split at hothers
    · cases hothers
      exact (h.keys_nodup parent keys hkeys).filter _
    · exact h.keys_nodup path others hothers
  · intro path others otherKey hothers hotherKey
    unfold LeadsOn
    rw [mem_insert_of_getElem? hkeys]
    rw [getElem?_insert] at hothers
    split at hothers
    · rename_i heq
      subst heq
      cases hothers
      obtain ⟨hotherKey, hne⟩ := List.mem_filter.1 hotherKey
      exact h.key_leads parent keys otherKey hkeys hotherKey fun hchild =>
        by simp [(child_inj hchild).2] at hne
    · rename_i hne
      exact h.key_leads path others otherKey hothers hotherKey fun hchild =>
        hne (child_inj hchild).1.symm

/-! ### Dropping a parent without other keys -/

theorem eq_of_filter_ne_eq_nil {other : Key} (h : (keys.filter (· ≠ key)) = [])
    (hother : other ∈ keys) : other = key := by
  simpa using List.filter_eq_nil_iff.1 h other hother

/-- What is still recorded is listed by another node than the parent. -/
theorem Lists.drop (h : Lists nodes path) (hkeys : nodes[parent]? = some keys)
    (hrest : (keys.filter (· ≠ key)) = []) (hne : path ≠ parent.child key) :
    Lists (nodes.erase parent) path := by
  obtain ⟨other, otherKey, otherKeys, rfl, hother, hmemKey⟩ := h
  refine ⟨other, otherKey, otherKeys, rfl, ?_, hmemKey⟩
  rw [getElem?_erase, if_neg]
  · exact hother
  · rintro rfl
    rw [hkeys] at hother
    cases hother
    exact hne (by rw [eq_of_filter_ne_eq_nil hrest hmemKey])

theorem Cut.gone_drop (h : Cut root nodes tracks (parent.child key))
    (hkeys : nodes[parent]? = some keys) (hrest : (keys.filter (· ≠ key)) = [])
    (hpath : parent <+: path) : path ∉ nodes.erase parent ∧ path ∉ tracks := by
  rcases Path.eq_or_child_prefix hpath with rfl | ⟨otherKey, hchild⟩
  · exact ⟨fun hmem => (mem_erase.1 hmem).1 rfl, h.apart parent (mem_of_getElem? hkeys)⟩
  · -- anything below it would be listed under the key that leads nowhere
    have hnone : ¬ (path ∈ nodes ∨ path ∈ tracks) := by
      intro hheld
      obtain ⟨hkeyMem, hchildHeld⟩ := h.key_mem_of_child_prefix hkeys hchild hheld
      rw [eq_of_filter_ne_eq_nil hrest hkeyMem] at hchildHeld
      exact h.ne hchildHeld rfl
    exact ⟨fun hmem => hnone (.inl (mem_erase.1 hmem).2), fun htrack => hnone (.inr htrack)⟩

/-- A parent other than the root that has no other keys goes, and is cut off itself then. -/
theorem Cut.drop (h : Cut root nodes tracks (parent.child key)) (hkeys : nodes[parent]? = some keys)
    (hroot : parent ≠ root) (hrest : (keys.filter (· ≠ key)) = []) :
    Cut root (nodes.erase parent) tracks parent := by
  have hlisted := (h.node_linked parent (mem_of_getElem? hkeys) hroot).2
  refine { root_mem := ?_, node_linked := ?_, track_linked := ?_, apart := ?_, cut_listed := ?_,
           gone := fun path => h.gone_drop hkeys hrest }
  · exact mem_erase.2 ⟨hroot, h.root_mem⟩
  · intro path hpath hpathRoot
    obtain ⟨-, hpath⟩ := mem_erase.1 hpath
    obtain ⟨hbelow, hlisted⟩ := h.node_linked path hpath hpathRoot
    exact ⟨hbelow, hlisted.drop hkeys hrest (h.ne (.inl hpath))⟩
  · intro track htrack
    exact (h.track_linked track htrack).drop hkeys hrest (h.ne (.inr htrack))
  · intro path hpath
    exact h.apart path (mem_erase.1 hpath).2
  · exact hlisted.drop hkeys hrest (Path.child_ne_self parent key).symm

theorem Severed.drop (h : Severed root nodes tracks (parent.child key))
    (hkeys : nodes[parent]? = some keys) (hroot : parent ≠ root)
    (hrest : (keys.filter (· ≠ key)) = []) :
    Severed root (nodes.erase parent) tracks parent := by
  have hleft := h.cutOff.drop hkeys hroot hrest
  refine { root_mem := hleft.root_mem, node_linked := hleft.node_linked,
           track_linked := hleft.track_linked, keys_ne_nil := ?_, keys_nodup := ?_,
           tracks_nodup := h.tracks_nodup, cut_listed := hleft.cut_listed, gone := hleft.gone,
           key_leads := ?_ }
  · intro path others hothers
    rw [getElem?_erase] at hothers
    split at hothers
    · cases hothers
    · exact h.keys_ne_nil path others hothers
  · intro path others hothers
    rw [getElem?_erase] at hothers
    split at hothers
    · cases hothers
    · exact h.keys_nodup path others hothers
  · intro path others otherKey hothers hotherKey hchild
    rw [getElem?_erase] at hothers
    split at hothers
    · cases hothers
    · rename_i hne
      unfold LeadsOn
      rw [mem_erase]
      simp only [Ne.symm hchild, ne_eq, not_false_eq_true, true_and]
      exact h.key_leads path others otherKey hothers hotherKey fun heq => hne (child_inj heq).1.symm

/-! ### Detaching -/

/-- Induction along a detachment: it goes on where the parent of the path is dropped, and then with
the parent, and ends where a key is struck. The induction is on the path from its end. -/
theorem detach_induction {before : Std.ExtTreeMap Path (List Key) → Path → Prop}
    {after : Std.ExtTreeMap Path (List Key) → Prop}
    (hlisted : ∀ nodes path, before nodes path → Lists nodes path)
    (hstrike : ∀ nodes (parent : Path) (key : Key) (keys : List Key),
      before nodes (parent.child key) → nodes[parent]? = some keys →
      (parent ≠ root → (keys.filter (· ≠ key)) ≠ []) →
      after (nodes.insert parent (keys.filter (· ≠ key))))
    (hdrop : ∀ nodes (parent : Path) (key : Key) (keys : List Key),
      before nodes (parent.child key) → nodes[parent]? = some keys → parent ≠ root →
      (keys.filter (· ≠ key)) = [] → before (nodes.erase parent) parent)
    {reversed : List Key} (h : before nodes reversed.reverse) : after (detach root nodes reversed) := by
  induction reversed generalizing nodes with
  | nil =>
    obtain ⟨parent, key, keys, heq, -⟩ := hlisted _ _ h
    simp [Path.child] at heq
  | cons key above ih =>
    have hcut : (key :: above).reverse = Path.child above.reverse key := by simp [Path.child]
    rw [hcut] at h
    obtain ⟨parent, key', keys, heq, hkeys, hkey⟩ := hlisted _ _ h
    obtain ⟨rfl, rfl⟩ := child_inj heq
    simp only [detach, hkeys]
    split
    · rename_i hempty
      exact ih (hdrop _ _ _ _ h hkeys hempty.2 (by simpa using hempty.1))
    · rename_i hkeep
      exact hstrike _ _ _ _ h hkeys fun hroot hrest => hkeep ⟨by simpa using hrest, hroot⟩

theorem Cut.grown_detach {reversed : List Key} (h : Cut root nodes tracks reversed.reverse) :
    Grown root (detach root nodes reversed) tracks := by
  refine @detach_induction root nodes (fun nodes cut => Cut root nodes tracks cut)
    (fun nodes => Grown root nodes tracks) ?_ ?_ ?_ reversed h
  · exact fun nodes path h => h.cut_listed
  · exact fun nodes parent key keys h hkeys _ => h.strike hkeys
  · exact fun nodes parent key keys h hkeys hroot hrest => h.drop hkeys hroot hrest

/-- Detaching a severed path leaves no key that leads nowhere. -/
theorem Severed.wired_detach {reversed : List Key} (h : Severed root nodes tracks reversed.reverse) :
    Wired root (detach root nodes reversed) tracks := by
  refine @detach_induction root nodes (fun nodes cut => Severed root nodes tracks cut)
    (fun nodes => Wired root nodes tracks) ?_ ?_ ?_ reversed h
  · exact fun nodes path h => h.cut_listed
  · exact fun nodes parent key keys h hkeys hrest => h.strike hkeys hrest
  · exact fun nodes parent key keys h hkeys hroot hrest => h.drop hkeys hroot hrest

end

/-! ### Removal -/

theorem holds_iff {item : Item} {path : Path} : item.holds path = true ↔
    ∃ held, path <+: held ∧ (held ∈ item.nodes ∨ held ∈ item.tracks) := by
  simp only [holds, Bool.or_eq_true, List.any_eq_true, isUnder_iff, Std.ExtTreeMap.mem_keys]
  constructor
  · rintro (⟨held, hmem, hunder⟩ | ⟨held, hmem, hunder⟩)
    · exact ⟨held, hunder, .inr hmem⟩
    · exact ⟨held, hunder, .inl hmem⟩
  · rintro ⟨held, hunder, hmem | hmem⟩
    · exact .inr ⟨held, hmem, hunder⟩
    · exact .inl ⟨held, hmem, hunder⟩

theorem remove_eq_ok_iff {item pruned : Item} {path : Path} : item.remove path = .ok pruned ↔
    path.isBelow item.root = true ∧ item.holds path = true ∧ pruned = { item with
      nodes := detach item.root (item.nodes.filter fun node _ => !node.isUnder path) path.reverse
      tracks := item.tracks.filter fun track => !track.isUnder path } := by
  unfold remove
  cases path.isBelow item.root <;> cases item.holds path <;>
    simp [bind, Except.bind, pure, Except.pure, throw, throwThe, MonadExceptOf.throw, eq_comm]

theorem Grown.remove {item pruned : Item} {path : Path}
    (h : Grown item.root item.nodes item.tracks) (hremove : item.remove path = .ok pruned) :
    Grown pruned.root pruned.nodes pruned.tracks := by
  obtain ⟨hbelow, hholds, rfl⟩ := remove_eq_ok_iff.1 hremove
  obtain ⟨held, hunder, hheld⟩ := holds_iff.1 hholds
  have hcut := h.cutOff hbelow (h.mem_of_holds hbelow hheld hunder)
  rw [← List.reverse_reverse path] at hcut
  simpa using hcut.grown_detach

/-- **Removing a part keeps an item sound.** -/
theorem Sound.remove {catalog : Catalog} {item pruned : Item} {path : Path}
    (h : item.Sound catalog) (hremove : item.remove path = .ok pruned) : pruned.Sound catalog := by
  obtain ⟨hbelow, hholds, rfl⟩ := remove_eq_ok_iff.1 hremove
  obtain ⟨held, hunder, hheld⟩ := holds_iff.1 hholds
  have hsevered := h.toWired.severed hbelow (h.rooted.mem_of_holds hbelow hheld hunder)
  rw [← List.reverse_reverse path] at hsevered
  refine { toWired := ?_, track_exists := fun track htrack => ?_ }
  · simpa using hsevered.wired_detach
  · exact h.track_exists track (List.mem_of_mem_filter htrack)

end Jukebox.Playlist.Item
