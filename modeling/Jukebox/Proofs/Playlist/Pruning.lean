import Jukebox.Proofs.Playlist.Projection

/-!
Removals in any order. A removal leaves the item that is told from the tracks which are left, and so
do many removals one after the other. The order decides which of the removals succeed, but not which
tracks are left.
-/

namespace Jukebox.Playlist.Item

open Map (exists_getElem? mem_of_getElem?)

/-! ### Keeping some tracks -/

/-- The item with some of its tracks: a node stays if it is the root or one of these tracks lies
below it, and keeps the keys that lead to them. -/
def keeping (item : Item) (tracks : List Path) : Item :=
  { item with
    nodes := (item.nodes.filter fun node _ =>
      decide (node = item.root) || tracks.any (·.isBelow node)).map fun node keys =>
        keys.filter fun key => tracks.any (·.isUnder (node.child key))
    tracks }

/-- The item after a removal; one that fails leaves it as it is. -/
def removeOrKeep (item : Item) (path : Path) : Item := (item.remove path).toOption.getD item

/-- The item after removals one after the other, those that fail being passed over. -/
def removeAll (item : Item) (paths : List Path) : Item := paths.foldl removeOrKeep item

section

variable {item : Item} {tracks kept : List Path} {node : Path} {keys : List Key}

theorem getElem?_keeping : (item.keeping tracks).nodes[node]? =
    if node = item.root ∨ ∃ track ∈ tracks, track.isBelow node = true then
      item.nodes[node]?.map fun keys =>
        keys.filter fun key => tracks.any (·.isUnder (node.child key))
    else none := by
  have hstays : (decide (node = item.root) || tracks.any (·.isBelow node)) = true ↔
      node = item.root ∨ ∃ track ∈ tracks, track.isBelow node = true := by
    rw [Bool.or_eq_true, decide_eq_true_iff, List.any_eq_true]
  rw [keeping, Std.ExtTreeMap.getElem?_map, Std.ExtTreeMap.getElem?_filter']
  split
  · rename_i h
    cases item.nodes[node]? with
    | none => rfl
    | some keys => simp [Option.filter, hstays.2 h]
  · rename_i h
    have hgone := Bool.eq_false_iff.2 fun hstay => h (hstays.1 hstay)
    cases item.nodes[node]? with
    | none => rfl
    | some keys => simp only [Option.filter, hgone]; rfl

theorem eq_keeping {other : Item} (hid : other.id = item.id) (hroot : other.root = item.root)
    (hnodes : ∀ node : Path, other.nodes[node]? = (item.keeping other.tracks).nodes[node]?) :
    other = item.keeping other.tracks := by
  have hsame : other.nodes = (item.keeping other.tracks).nodes :=
    Std.ExtTreeMap.ext_getElem? fun node => hnodes node
  obtain ⟨id, root, nodes, tracks⟩ := other
  cases hid
  cases hroot
  dsimp only at hsame
  rw [hsame]
  rfl

/-- Keeping fewer tracks later is the same as keeping them at once. -/
theorem keeping_keeping (hsub : ∀ track ∈ kept, track ∈ tracks) :
    (item.keeping tracks).keeping kept = item.keeping kept := by
  refine eq_keeping rfl rfl fun node => ?_
  change ((item.keeping tracks).keeping kept).nodes[node]? = (item.keeping kept).nodes[node]?
  have hroot : (item.keeping tracks).root = item.root := rfl
  rw [getElem?_keeping, getElem?_keeping, getElem?_keeping, hroot]
  by_cases hkept : node = item.root ∨ ∃ track ∈ kept, track.isBelow node = true
  · have hstays : node = item.root ∨ ∃ track ∈ tracks, track.isBelow node = true :=
      hkept.imp_right fun ⟨track, htrack, hbelow⟩ => ⟨track, hsub track htrack, hbelow⟩
    -- a key that leads to a track which is kept now leads to one that was kept before
    have hkeys : ∀ keys : List Key,
        (keys.filter fun key => tracks.any (·.isUnder (node.child key))).filter
          (fun key => kept.any (·.isUnder (node.child key))) =
        keys.filter fun key => kept.any (·.isUnder (node.child key)) := by
      intro keys
      rw [List.filter_filter]
      refine List.filter_congr fun key _ => ?_
      rw [Bool.and_eq_left_iff_imp]
      intro hleads
      obtain ⟨track, htrack, hunder⟩ := List.any_eq_true.1 hleads
      exact List.any_eq_true.2 ⟨track, hsub track htrack, hunder⟩
    rw [if_pos hkept, if_pos hkept, if_pos hstays, Option.map_map]
    congr 1
    funext keys
    exact hkeys keys
  · rw [if_neg hkept, if_neg hkept]

end

variable {catalog : Catalog} {item pruned made : Item} {root path : Path} {paths : List Path}

theorem Sound.keeping_tracks (h : item.Sound catalog) : item.keeping item.tracks = item := by
  refine (eq_keeping rfl rfl fun node => ?_).symm
  rw [getElem?_keeping]
  cases hkeys : item.nodes[node]? with
  | none => simp
  | some keys =>
    have hstays : node = item.root ∨ ∃ track ∈ item.tracks, track.isBelow node = true :=
      (h.mem_nodes_iff.1 (mem_of_getElem? hkeys)).imp_right And.right
    have hall : (keys.filter fun key => item.tracks.any (·.isUnder (node.child key))) = keys := by
      refine List.filter_eq_self.2 fun key hkey => ?_
      obtain ⟨track, htrack, hunder⟩ := (h.key_mem_iff hkeys).1 hkey
      exact List.any_eq_true.2 ⟨track, htrack, Path.isUnder_iff.2 hunder⟩
    rw [if_pos hstays, Option.map_some, hall]

/-! ### One removal -/

/-- A removal from a sound item leaves what the tracks call for that are left. -/
theorem Sound.remove_eq_keeping (h : item.Sound catalog) (hremove : item.remove path = .ok pruned) :
    pruned = item.keeping pruned.tracks := by
  obtain ⟨hid, hroot⟩ := id_and_root_of_remove hremove
  refine eq_keeping hid hroot fun node => ?_
  rw [getElem?_keeping]
  by_cases hnode : node ∈ pruned.nodes
  · have hstays := ((h.mem_nodes_of_remove hremove).1 hnode).2
    rw [if_pos hstays]
    exact h.keysAt?_of_remove hremove hnode
  · rw [Std.ExtTreeMap.getElem?_eq_none hnode]
    split
    · rename_i hstays
      have hgone : node ∉ item.nodes := fun hmem =>
        hnode ((h.mem_nodes_of_remove hremove).2 ⟨hmem, hstays⟩)
      rw [Std.ExtTreeMap.getElem?_eq_none hgone, Option.map_none]
    · rfl

/-- The tracks that no removal of the paths takes: those that lie under none of them which lies below
the root. -/
def tracksWithout (item : Item) (paths : List Path) : List Path :=
  item.tracks.filter fun track =>
    paths.all fun path => !(path.isBelow item.root && track.isUnder path)

theorem mem_of_mem_tracksWithout {track : Path} (h : track ∈ item.tracksWithout paths) :
    track ∈ item.tracks := List.mem_of_mem_filter h

/-- A removal that fails takes no track: the path does not lie below the root, or nothing lies under
it. -/
theorem tracksWithout_of_error {error : Error} (h : item.remove path = .error error) :
    item.tracksWithout [path] = item.tracks := by
  refine List.filter_eq_self.2 fun track htrack => ?_
  cases hbelow : path.isBelow item.root with
  | false => simp [hbelow]
  | true =>
    cases hholds : item.holds path with
    | true =>
      rw [remove_eq_ok_iff.2 ⟨hbelow, hholds, rfl⟩] at h
      cases h
    | false =>
      have hnone : item.tracks.any (·.isUnder path) = false := (Bool.or_eq_false_iff.1 hholds).1
      have hunder := List.any_eq_false.1 hnone track htrack
      simpa [hbelow] using hunder

/-- A removal, whether it succeeds or fails, keeps the tracks that it does not take. -/
theorem Sound.removeOrKeep_eq (h : item.Sound catalog) (path : Path) :
    item.removeOrKeep path = item.keeping (item.tracksWithout [path]) := by
  cases hremove : item.remove path with
  | error error =>
    have hsame : item.removeOrKeep path = item := by simp [removeOrKeep, hremove, Except.toOption]
    rw [tracksWithout_of_error hremove, h.keeping_tracks, hsame]
  | ok pruned =>
    have hpruned : item.removeOrKeep path = pruned := by
      simp [removeOrKeep, hremove, Except.toOption]
    have htracks : pruned.tracks = item.tracksWithout [path] := by
      obtain ⟨hbelow, -, -⟩ := remove_eq_ok_iff.1 hremove
      rw [tracks_of_remove hremove, tracksWithout]
      simp [hbelow]
    rw [hpruned, ← htracks]
    exact h.remove_eq_keeping hremove

theorem Sound.removeOrKeep (h : item.Sound catalog) (path : Path) :
    (item.removeOrKeep path).Sound catalog := by
  cases hremove : item.remove path with
  | error error => simpa [Item.removeOrKeep, hremove, Except.toOption] using h
  | ok pruned => simpa [Item.removeOrKeep, hremove, Except.toOption] using h.remove hremove

/-! ### Many removals -/

theorem Sound.removeAll_eq (h : item.Sound catalog) (paths : List Path) :
    item.removeAll paths = item.keeping (item.tracksWithout paths) := by
  induction paths generalizing item with
  | nil =>
    have hall : item.tracksWithout [] = item.tracks := List.filter_eq_self.2 (by simp)
    rw [hall, h.keeping_tracks]
    rfl
  | cons path rest ih =>
    have hfirst : item.removeAll (path :: rest) = (item.removeOrKeep path).removeAll rest := rfl
    have htracks : (item.keeping (item.tracksWithout [path])).tracksWithout rest =
        item.tracksWithout (path :: rest) := by
      simp only [tracksWithout, keeping, List.filter_filter, List.all_cons, List.all_nil,
        Bool.and_true]
      exact List.filter_congr fun track _ => Bool.and_comm _ _
    rw [hfirst, ih (h.removeOrKeep path), h.removeOrKeep_eq, htracks]
    refine keeping_keeping fun track htrack => ?_
    rw [← htracks] at htrack
    exact mem_of_mem_tracksWithout htrack

theorem tracksWithout_perm {other : List Path} (hperm : paths.Perm other) :
    item.tracksWithout paths = item.tracksWithout other := by
  refine List.filter_congr fun track _ => ?_
  exact hperm.all_eq

theorem foldl_removeInPlace (item : Item) (paths : List Path) :
    paths.foldl (fun item path => (item.removeInPlace path).1) item = item.removeAll paths := by
  unfold removeAll
  congr 1
  funext item path
  rw [removeInPlace_eq, removeOrKeep]
  cases item.remove path <;> rfl

/-- **The order of removals does not matter.** From an item that was expanded in a catalog where no
group lists a key twice, removals in any order leave the same item. Those that fail are passed over,
and may be others in another order. The tracks that are left are those that lie under none of the
paths which lie below the root. -/
theorem removals_in_any_order {id : Uuid} (hdistinct : catalog.KeysDistinct)
    (hmade : expand catalog id root = .ok made) {paths other : List Path} (hperm : other.Perm paths) :
    made.removeAll other = made.removeAll paths ∧
    paths.foldl (fun item path => (item.removeInPlace path).1) made = made.removeAll paths ∧
    (made.removeAll paths).id = id ∧ (made.removeAll paths).root = root ∧
    (made.removeAll paths).tracks = made.tracks.filter fun track =>
      paths.all fun path => !(path.isBelow root && track.isUnder path) := by
  have hsound : made.Sound catalog := sound_of_expand hdistinct hmade
  have hmadeFrom : made.id = id ∧ made.root = root := by
    obtain ⟨nodes, -, rfl⟩ := expand_eq_ok hmade
    exact ⟨rfl, rfl⟩
  obtain ⟨rfl, rfl⟩ := hmadeFrom
  have hall := hsound.removeAll_eq paths
  refine ⟨?_, foldl_removeInPlace made paths, by rw [hall]; rfl, by rw [hall]; rfl, by rw [hall]; rfl⟩
  rw [hsound.removeAll_eq other, hall, tracksWithout_perm hperm]

/-- The box goes with its tape, or the tape with its box: what is removed second is not there. -/
theorem removals_in_any_order_box : ∃ catalog made, Catalog.ofLibrary .house = .ok catalog ∧
    expand catalog ⟨0⟩ ["shelf"] = .ok made ∧
    ((made.removeOrKeep ["shelf", "box", "tape", "0"]).remove ["shelf", "box"]).isOk = false ∧
    ((made.removeOrKeep ["shelf", "box"]).remove ["shelf", "box", "tape", "0"]).isOk = false ∧
    made.removeAll [["shelf", "box"], ["shelf", "box", "tape", "0"]] =
      made.removeAll [["shelf", "box", "tape", "0"], ["shelf", "box"]] := by
  obtain ⟨catalog, made, hcatalog, hmade, hbox, htape⟩ : ∃ catalog made,
      Catalog.ofLibrary .house = .ok catalog ∧ expand catalog ⟨0⟩ ["shelf"] = .ok made ∧
      ((made.removeOrKeep ["shelf", "box", "tape", "0"]).remove ["shelf", "box"]).isOk = false ∧
      ((made.removeOrKeep ["shelf", "box"]).remove ["shelf", "box", "tape", "0"]).isOk = false :=
    ⟨_, _, rfl, rfl, by decide +kernel, by decide +kernel⟩
  have hdistinct := Catalog.keysDistinct_ofLibrary hcatalog
  exact ⟨catalog, made, hcatalog, hmade, hbox, htape,
    (removals_in_any_order hdistinct hmade (List.Perm.swap _ _ _)).1⟩

end Jukebox.Playlist.Item
