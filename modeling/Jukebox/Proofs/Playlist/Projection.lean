import Jukebox.Proofs.Catalog.Library
import Jukebox.Proofs.Playlist.Expansion

/-!
Removal as a projection. What is recorded of a sound item is told from its root and its tracks
alone: a node is recorded if a track lies below it, and a key is listed if it leads to a track. So a
removal that strikes keys from the removed path upwards leaves just what the tracks that are left
call for, however far it climbs.
-/

namespace Jukebox.Playlist.Item

open Map (mem_of_getElem? exists_getElem? getElem?_insert getElem?_erase)
open Result (bind_eq_ok_iff)

section

variable {root path : Path} {key : Key} {keys : List Key}
variable {nodes : Std.ExtTreeMap Path (List Key)} {tracks : List Path}

/-! ### What is recorded is told from the tracks -/

theorem exists_length_le (nodes : Std.ExtTreeMap Path (List Key)) :
    ∃ bound, ∀ path : Path, path ∈ nodes → path.length ≤ bound := by
  refine ⟨(nodes.keys.map List.length).max?.getD 0, fun path hpath => ?_⟩
  have hkey : path ∈ nodes.keys := Std.ExtTreeMap.mem_keys.2 hpath
  exact List.le_max?_getD_of_mem (List.mem_map_of_mem hkey)

/-- Every key that is listed leads down to a track: it leads to a track or to a node, and a node
below another has a key again. The induction is on how much deeper nodes can lie. -/
theorem Wired.exists_track (h : Wired root nodes tracks) (hkeys : nodes[path]? = some keys)
    (hkey : key ∈ keys) : ∃ track ∈ tracks, path.child key <+: track := by
  obtain ⟨bound, hbound⟩ := exists_length_le nodes
  have hremaining : ∃ remaining, bound ≤ path.length + remaining := ⟨bound, by omega⟩
  obtain ⟨remaining, hremaining⟩ := hremaining
  induction remaining generalizing path keys key with
  | zero =>
    rcases h.key_leads path keys key hkeys hkey with ⟨hnode, -⟩ | ⟨-, htrack⟩
    · have hlength := hbound _ hnode
      rw [Path.length_child] at hlength
      omega
    · exact ⟨_, htrack, List.prefix_refl _⟩
  | succ remaining ih =>
    rcases h.key_leads path keys key hkeys hkey with ⟨hnode, -⟩ | ⟨-, htrack⟩
    · obtain ⟨below, hbelow⟩ := exists_getElem? hnode
      have hroot : root <+: path := h.rooted.root_prefix (mem_of_getElem? hkeys)
      have hne : path.child key ≠ root :=
        (Path.isBelow_iff.1 (Path.child_isBelow_iff.2 hroot)).2.symm
      obtain ⟨other, rest, rfl⟩ :=
        List.exists_cons_of_ne_nil (h.keys_ne_nil _ below hbelow hne)
      have hlength : bound ≤ (path.child key).length + remaining := by
        rw [Path.length_child]
        omega
      obtain ⟨track, htrack, hunder⟩ := ih hbelow List.mem_cons_self hlength
      exact ⟨track, htrack, (Path.prefix_child _ other).trans hunder⟩
    · exact ⟨_, htrack, List.prefix_refl _⟩

theorem Wired.key_mem_iff (h : Wired root nodes tracks) (hkeys : nodes[path]? = some keys) :
    key ∈ keys ↔ ∃ track ∈ tracks, path.child key <+: track := by
  constructor
  · exact h.exists_track hkeys
  · rintro ⟨track, htrack, hunder⟩
    exact (h.rooted.key_mem_of_child_prefix hkeys hunder (.inr htrack)).1

theorem isBelow_of_child_prefix {track : Path} (h : path.child key <+: track) :
    track.isBelow path = true := by
  refine Path.isBelow_iff.2 ⟨(Path.prefix_child path key).trans h, ?_⟩
  rintro rfl
  have hlength := h.length_le
  rw [Path.length_child] at hlength
  omega

/-- The nodes are the root and what lies between it and the tracks. -/
theorem Wired.mem_nodes_iff (h : Wired root nodes tracks) : path ∈ nodes ↔
    path = root ∨ root <+: path ∧ ∃ track ∈ tracks, track.isBelow path = true := by
  constructor
  · intro hpath
    by_cases hroot : path = root
    · exact .inl hroot
    · obtain ⟨keys, hkeys⟩ := exists_getElem? hpath
      obtain ⟨key, rest, rfl⟩ := List.exists_cons_of_ne_nil (h.keys_ne_nil path keys hkeys hroot)
      obtain ⟨track, htrack, hunder⟩ := h.exists_track hkeys List.mem_cons_self
      exact .inr ⟨h.rooted.root_prefix hpath, track, htrack, isBelow_of_child_prefix hunder⟩
  · rintro (rfl | ⟨hroot, track, htrack, hbelow⟩)
    · exact h.root_mem
    · obtain ⟨hunder, hne⟩ := Path.isBelow_iff.1 hbelow
      exact h.rooted.mem_of_prefix hroot hunder hne (.inr htrack)

/-! ### Detaching only strikes keys -/

/-- The keys of a node that is left after a path is detached are some of its keys, in their order.
-/
theorem exists_filter_of_detach {reversed : List Key}
    (h : (detach root nodes reversed)[path]? = some keys) :
    ∃ old keep, nodes[path]? = some old ∧ keys = old.filter keep := by
  induction reversed generalizing nodes with
  | nil => exact ⟨keys, fun _ => true, h, by simp⟩
  | cons key above ih =>
    simp only [detach] at h
    split at h
    · exact ⟨keys, fun _ => true, h, by simp⟩
    rename_i others hothers
    split at h
    · obtain ⟨old, keep, hold, rfl⟩ := ih h
      rw [getElem?_erase] at hold
      split at hold
      · cases hold
      · exact ⟨old, keep, hold, rfl⟩
    · rw [getElem?_insert] at h
      split at h
      · rename_i heq
        cases h
        exact ⟨others, _, heq ▸ hothers, rfl⟩
      · exact ⟨keys, fun _ => true, h, by simp⟩

end

variable {catalog : Catalog} {item pruned : Item} {path : Path} {error : Error}

/-! ### When a removal succeeds -/

theorem remove_of_not_below (h : path.isBelow item.root = false) :
    item.remove path = .error (.notBelowItem path item.root) := by
  unfold remove
  rw [h]
  rfl

theorem remove_of_not_holds (hbelow : path.isBelow item.root = true) (h : item.holds path = false) :
    item.remove path = .error (.notInItem path item.root) := by
  unfold remove
  rw [hbelow, h]
  rfl

theorem kind_of_remove_eq_error (h : item.remove path = .error error) :
    error.kind = .unknownEntity := by
  cases hbelow : path.isBelow item.root with
  | false =>
    rw [remove_of_not_below hbelow] at h
    cases h
    rfl
  | true =>
    cases hholds : item.holds path with
    | false =>
      rw [remove_of_not_holds hbelow hholds] at h
      cases h
      rfl
    | true =>
      rw [remove_eq_ok_iff.2 ⟨hbelow, hholds, rfl⟩] at h
      cases h

theorem Rooted.exists_remove_iff (h : Rooted item.root item.nodes item.tracks) :
    (∃ pruned, item.remove path = .ok pruned) ↔
      path.isBelow item.root = true ∧ (path ∈ item.nodes ∨ path ∈ item.tracks) := by
  constructor
  · rintro ⟨pruned, hremove⟩
    obtain ⟨hbelow, hholds, -⟩ := remove_eq_ok_iff.1 hremove
    obtain ⟨held, hunder, hheld⟩ := holds_iff.1 hholds
    exact ⟨hbelow, h.mem_of_holds hbelow hheld hunder⟩
  · rintro ⟨hbelow, hpath⟩
    have hholds : item.holds path = true := holds_iff.2 ⟨path, List.prefix_refl path, hpath⟩
    exact ⟨_, remove_eq_ok_iff.2 ⟨hbelow, hholds, rfl⟩⟩

theorem Sound.exists_remove_iff (h : item.Sound catalog) :
    (∃ pruned, item.remove path = .ok pruned) ↔
      path.isBelow item.root = true ∧ (path ∈ item.nodes ∨ path ∈ item.tracks) :=
  h.rooted.exists_remove_iff

/-! ### Removal in place -/

/-- A removal as it goes on in place, with its failure if it fails: what lies at or below the path
is taken out first, and that there was nothing is told from the counts afterwards. -/
def removeInPlace (item : Item) (path : Path) : Item × Option Error :=
  if !path.isBelow item.root then (item, some (.notBelowItem path item.root)) else
  let tracks := item.tracks.filter fun track => !track.isUnder path
  let nodes := item.nodes.filter fun node _ => !node.isUnder path
  if tracks.length = item.tracks.length ∧ nodes.size = item.nodes.size then
    ({ item with nodes, tracks }, some (.notInItem path item.root))
  else ({ item with nodes := detach item.root nodes path.reverse, tracks }, none)

/-- The counts stay as they are just if nothing lies at or below the path, and then so does the
rest. -/
theorem counts_eq_iff :
    ((item.tracks.filter fun track => !track.isUnder path).length = item.tracks.length ∧
      (item.nodes.filter fun node _ => !node.isUnder path).size = item.nodes.size) ↔
    item.holds path = false := by
  rw [List.length_filter_eq_length_iff, Std.ExtTreeMap.size_filter_eq_size_iff]
  simp [holds]

theorem filter_eq_of_not_holds (h : item.holds path = false) :
    (item.tracks.filter fun track => !track.isUnder path) = item.tracks ∧
      (item.nodes.filter fun node _ => !node.isUnder path) = item.nodes := by
  rw [List.filter_eq_self, Std.ExtTreeMap.filter_eq_self_iff]
  simpa [holds] using h

/-- A removal in place that fails leaves the item as it was: it fails before anything is taken out,
or because there is nothing to take out. -/
theorem removeInPlace_eq (item : Item) (path : Path) : item.removeInPlace path =
    match item.remove path with
    | .ok pruned => (pruned, none)
    | .error error => (item, some error) := by
  unfold removeInPlace
  cases hbelow : path.isBelow item.root with
  | false => simp [remove_of_not_below hbelow]
  | true =>
    simp only [counts_eq_iff]
    cases hholds : item.holds path with
    | false =>
      obtain ⟨htracks, hnodes⟩ := filter_eq_of_not_holds hholds
      simp [htracks, hnodes, remove_of_not_holds hbelow hholds]
    | true => simp [remove_eq_ok_iff.2 ⟨hbelow, hholds, rfl⟩]

/-! ### What is left of a sound item -/

theorem tracks_of_remove (h : item.remove path = .ok pruned) :
    pruned.tracks = item.tracks.filter fun track => !track.isUnder path := by
  obtain ⟨-, -, rfl⟩ := remove_eq_ok_iff.1 h
  rfl

theorem id_and_root_of_remove (h : item.remove path = .ok pruned) :
    pruned.id = item.id ∧ pruned.root = item.root := by
  obtain ⟨-, -, rfl⟩ := remove_eq_ok_iff.1 h
  exact ⟨rfl, rfl⟩

theorem Sound.mem_nodes_of_remove (h : item.Sound catalog) (hremove : item.remove path = .ok pruned)
    {node : Path} : node ∈ pruned.nodes ↔ node ∈ item.nodes ∧
      (node = item.root ∨ ∃ track ∈ pruned.tracks, track.isBelow node = true) := by
  have hpruned : node ∈ pruned.nodes ↔ node = item.root ∨
      item.root <+: node ∧ ∃ track ∈ pruned.tracks, track.isBelow node = true := by
    have hsound := h.remove hremove
    obtain ⟨-, -, rfl⟩ := remove_eq_ok_iff.1 hremove
    exact hsound.mem_nodes_iff
  rw [hpruned]
  constructor
  · rintro (rfl | ⟨hroot, track, htrack, hbelow⟩)
    · exact ⟨h.root_mem, .inl rfl⟩
    · have hold : track ∈ item.tracks := by
        rw [tracks_of_remove hremove] at htrack
        exact List.mem_of_mem_filter htrack
      exact ⟨h.mem_nodes_iff.2 (.inr ⟨hroot, track, hold, hbelow⟩), .inr ⟨track, htrack, hbelow⟩⟩
  · rintro ⟨hnode, hroot | hbelow⟩
    · exact .inl hroot
    · exact .inr ⟨h.rooted.root_prefix hnode, hbelow⟩

/-- A node that is left keeps the keys that lead to a track that is left. It keeps some of its keys
in their order, and which they are is told from the tracks. -/
theorem Sound.keysAt?_of_remove (h : item.Sound catalog) (hremove : item.remove path = .ok pruned)
    {node : Path} (hnode : node ∈ pruned.nodes) :
    pruned.keysAt? node = (item.keysAt? node).map fun keys =>
      keys.filter fun key => pruned.tracks.any (·.isUnder (node.child key)) := by
  obtain ⟨keys, hkeys⟩ := exists_getElem? hnode
  have hmem : ∀ key, key ∈ keys ↔ ∃ track ∈ pruned.tracks, node.child key <+: track :=
    fun key => (h.remove hremove).key_mem_iff hkeys
  have hfilter : ∃ old keep, item.nodes[node]? = some old ∧ keys = old.filter keep := by
    obtain ⟨-, -, rfl⟩ := remove_eq_ok_iff.1 hremove
    obtain ⟨old, keep, hold, rfl⟩ := exists_filter_of_detach hkeys
    exact ⟨old, keep, (getElem?_filter_nodes.1 hold).1, rfl⟩
  obtain ⟨old, keep, hold, rfl⟩ := hfilter
  simp only [keysAt?, hkeys, hold, Option.map_some, Option.some.injEq]
  refine List.filter_congr fun key hkey => Bool.eq_iff_iff.2 ?_
  have hkeep : keep key = true ↔ key ∈ old.filter keep := by simp [hkey]
  rw [hkeep, hmem key]
  simp [Path.isUnder_iff]

theorem Sound.of_removals (h : item.Sound catalog) {paths : List Path}
    (hremovals : paths.foldlM Item.remove item = .ok pruned) : pruned.Sound catalog := by
  induction paths generalizing item with
  | nil =>
    cases hremovals
    exact h
  | cons path rest ih =>
    rw [List.foldlM_cons] at hremovals
    obtain ⟨next, hnext, hrest⟩ := bind_eq_ok_iff.1 hremovals
    exact ih (h.remove hnext) hrest

/-- **Removal is exact projection.** From an item that was expanded in a catalog where no group
lists a key twice, and of which parts were removed since, a path can be removed just if it lies
below the root and is a node or a track of the item. The tracks at or below it go, and the others
stay in their order. A node stays if it is the root or a track that is left lies below it, and
keeps, in their order, the keys that lead to such tracks. Otherwise the path is unknown and nothing
is taken out of the item. -/
theorem removal_exact {id : Uuid} {root : Path} {made : Item} {paths : List Path}
    (hdistinct : catalog.KeysDistinct) (hmade : expand catalog id root = .ok made)
    (hitem : paths.foldlM remove made = .ok item) (path : Path) :
    ((∃ pruned, item.remove path = .ok pruned) ↔
      path.isBelow item.root = true ∧ (path ∈ item.nodes ∨ path ∈ item.tracks)) ∧
    (∀ pruned, item.remove path = .ok pruned →
      item.removeInPlace path = (pruned, none) ∧ pruned.id = item.id ∧ pruned.root = item.root ∧
      (pruned.tracks = item.tracks.filter fun track => !track.isUnder path) ∧
      (∀ node, node ∈ pruned.nodes ↔ node ∈ item.nodes ∧
        (node = item.root ∨ ∃ track ∈ pruned.tracks, track.isBelow node = true)) ∧
      ∀ node ∈ pruned.nodes, pruned.keysAt? node = (item.keysAt? node).map fun keys =>
        keys.filter fun key => pruned.tracks.any (·.isUnder (node.child key))) ∧
    ∀ error, item.remove path = .error error →
      error.kind = .unknownEntity ∧ item.removeInPlace path = (item, some error) := by
  have hsound : item.Sound catalog := (sound_of_expand hdistinct hmade).of_removals hitem
  refine ⟨hsound.exists_remove_iff, fun pruned hremove => ?_, fun error herror => ?_⟩
  · have hplace : item.removeInPlace path = (pruned, none) := by rw [removeInPlace_eq, hremove]
    have hkept : pruned.id = item.id ∧ pruned.root = item.root := by
      obtain ⟨-, -, rfl⟩ := remove_eq_ok_iff.1 hremove
      exact ⟨rfl, rfl⟩
    exact ⟨hplace, hkept.1, hkept.2, tracks_of_remove hremove,
      fun node => hsound.mem_nodes_of_remove hremove,
      fun node hnode => hsound.keysAt?_of_remove hremove hnode⟩
  · exact ⟨kind_of_remove_eq_error herror, by rw [removeInPlace_eq, herror]⟩

/-- After a track of the disc the only track of the box is removed, and the box goes with its tape.
-/
theorem removal_exact_shelf : ∃ catalog made item pruned,
    Catalog.ofLibrary .house = .ok catalog ∧ expand catalog ⟨0⟩ ["shelf"] = .ok made ∧
    [["shelf", "disc", "0"]].foldlM remove made = .ok item ∧
    item.remove ["shelf", "box", "tape", "0"] = .ok pruned ∧ ["shelf", "box"] ∈ item.nodes ∧
    ["shelf", "box"] ∉ pruned.nodes ∧ pruned.keysAt? ["shelf"] = some ["disc"] := by
  obtain ⟨catalog, made, item, pruned, hcatalog, hmade, hitem, hpruned, hroot, htracks, hbox,
    hkeys⟩ :
      ∃ catalog made item pruned, Catalog.ofLibrary .house = .ok catalog ∧
        expand catalog ⟨0⟩ ["shelf"] = .ok made ∧
        [["shelf", "disc", "0"]].foldlM remove made = .ok item ∧
        item.remove ["shelf", "box", "tape", "0"] = .ok pruned ∧ item.root = ["shelf"] ∧
        pruned.tracks = [["shelf", "disc", "1"]] ∧ ["shelf", "box"] ∈ item.nodes ∧
        item.keysAt? ["shelf"] = some ["disc", "box"] :=
    ⟨_, _, _, _, rfl, rfl, rfl, rfl, rfl, by decide +kernel, by decide +kernel, by decide +kernel⟩
  have hdistinct := Catalog.keysDistinct_ofLibrary hcatalog
  obtain ⟨-, -, -, -, hnodes, hleft⟩ :=
    (removal_exact hdistinct hmade hitem ["shelf", "box", "tape", "0"]).2.1 pruned hpruned
  refine ⟨catalog, made, item, pruned, hcatalog, hmade, hitem, hpruned, hbox, ?_, ?_⟩
  · rw [hnodes, hroot, htracks]
    simp [Path.isBelow, Path.isUnder]
  · have hshelf : ["shelf"] ∈ item.nodes := Map.mem_of_getElem? hkeys
    rw [hleft _ ((hnodes _).2 ⟨hshelf, .inl hroot.symm⟩), hkeys, htracks]
    decide +kernel

end Jukebox.Playlist.Item
