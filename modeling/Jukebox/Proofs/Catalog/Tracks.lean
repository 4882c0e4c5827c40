import Jukebox.Proofs.Catalog.Landing
import Jukebox.Proofs.Catalog.Walk

/-!
The tracks below a root in a row. Where no group is empty, the stops below a root are its tracks in
depth-first order, and every path that leads to a track below the root has an index in this row. A
walk from it goes to the index next to it.
-/

namespace Jukebox

namespace Stop

/-- The path of a track. -/
def track? : Stop → Option Path
  | track path => some path
  | barren _ => none

theorem answer_map_track (path : Option Path) : answer (path.map track) = .ok path := by
  cases path <;> rfl

end Stop

/-- The index of the track that a path leads to, in a row of tracks. -/
def Path.indexIn? (path : Path) (tracks : List Path) : Option Nat :=
  path.plain?.bind tracks.idxOf?

/-! ### Plain paths -/

namespace Path

theorem plain?_child {leaf : Path} {key : Key} {index : Nat} (h : key.number? = some index) :
    (leaf.child key).plain? = some (leaf.child (Key.ofIndex index)) := by
  simp [plain?, h]

theorem exists_of_plain? {path plain : Path} (h : path.plain? = some plain) :
    ∃ (leaf : Path) (key : Key) (index : Nat), path = leaf.child key ∧ key.number? = some index ∧
      plain = leaf.child (Key.ofIndex index) := by
  obtain ⟨key, hkey, h⟩ := Option.bind_eq_some_iff.1 h
  obtain ⟨index, hindex, h⟩ := Option.bind_eq_some_iff.1 h
  exact ⟨path.dropLast, key, index, eq_child_of_getLast? hkey, hindex, (Option.some.inj h).symm⟩

end Path

namespace Library

/-- The tracks at and below a path of a library in depth-first order. -/
def tracks (library : Library) (path : Path) : List Path :=
  (library.stops path).filterMap Stop.track?

variable {library : Library} {catalog : Catalog} {node : Node} {path track : Path}

/-! ### Stops of a node -/

theorem stops_ne_nil (h : Catalog.ofLibrary library = .ok catalog)
    (hnode : library.node? path = some node) : node.stops path ≠ [] := by
  induction node using Node.ind generalizing path with
  | h node ih =>
  rcases (proper_of_node? h hnode).cases with ⟨hg, ht⟩ | ⟨hg, ht⟩ | ⟨hg, ht⟩
  · simp [Node.stops_of_barren hg ht]
  · simp [Node.stops_of_leaf hg ht, trackStops, ht]
  · obtain ⟨child, hchild⟩ := List.exists_mem_of_ne_nil _ hg
    rw [Node.stops_of_internal hg ht]
    intro hnil
    exact ih child hchild (node?_child h hnode hchild) (List.flatMap_eq_nil_iff.1 hnil child hchild)

theorem stops_nodup (h : Catalog.ofLibrary library = .ok catalog) (path : Path) :
    (library.stops path).Nodup := by
  cases hnode : library.node? path with
  | none =>
    rw [stops, hnode]
    exact List.nodup_nil
  | some node =>
    rw [stops, hnode]
    exact nodup_stops h hnode

theorem mem_tracks_iff : track ∈ library.tracks path ↔ .track track ∈ library.stops path := by
  rw [tracks, List.mem_filterMap]
  constructor
  · rintro ⟨stop, hstop, htrack⟩
    cases stop with
    | track found =>
      cases htrack
      exact hstop
    | barren found => cases htrack
  · intro htrack
    exact ⟨_, htrack, rfl⟩

theorem tracks_nodup (h : Catalog.ofLibrary library = .ok catalog) (path : Path) :
    (library.tracks path).Nodup := by
  refine (stops_nodup h path).filterMap fun stop other track hstop hother => ?_
  cases stop <;> cases other <;> cases hstop <;> cases hother
  rfl

theorem group?_of_barren_mem_stops (h : Catalog.ofLibrary library = .ok catalog)
    (hnode : library.node? path = some node) {stop : Path} (hstop : .barren stop ∈ node.stops path) :
    ∃ group, catalog.group? stop = some group ∧ group.keys = [] ∧ group.tracks = [] := by
  obtain ⟨below, source, -, hsource, hgroups, ⟨⟨⟩, htracks⟩ | ⟨index, -, ⟨⟩⟩⟩ :=
    origin_of_mem_stops h hnode hstop
  exact ⟨source.group, (Catalog.group?_ofLibrary_eq_some_iff h).2 ⟨source, hsource, rfl⟩,
    by simp [Node.group, hgroups], htracks⟩

theorem plain?_of_mem_stops (h : Catalog.ofLibrary library = .ok catalog)
    (hnode : library.node? path = some node) (htrack : .track track ∈ node.stops path) :
    track.plain? = some track := by
  obtain ⟨below, source, -, -, -, ⟨⟨⟩, -⟩ | ⟨index, -, ⟨⟩⟩⟩ := origin_of_mem_stops h hnode htrack
  exact Path.plain?_child (Key.number?_ofIndex index)

theorem ensureTrack_of_mem_tracks (h : Catalog.ofLibrary library = .ok catalog)
    (htrack : track ∈ library.tracks path) :
    catalog.ensureTrack path track = .ok () ∧ track.plain? = some track := by
  have hstop := mem_tracks_iff.1 htrack
  cases hnode : library.node? path with
  | none =>
    rw [stops, hnode] at hstop
    cases hstop
  | some node =>
    rw [stops, hnode] at hstop
    exact ⟨ensureTrack_of_mem_stops h hnode (List.prefix_refl path) hstop,
      plain?_of_mem_stops h hnode hstop⟩

end Library

namespace Catalog

variable {catalog : Catalog} {root path plain : Path}

/-- A path leads to a track below a root if it lies below the root and the catalog has the track. -/
theorem ensureTrack_iff_track? : catalog.ensureTrack root path = .ok () ↔
    path.isBelow root = true ∧ (catalog.track? path).isSome := by
  rw [ensureTrack_eq_ok_iff]
  constructor
  · rintro ⟨located, hlocated⟩
    obtain ⟨leaf, key, index, group, rfl, hroot, hindex, hgroup, hkeys, hlt, -⟩ :=
      locate_eq_ok_iff.1 hlocated
    refine ⟨Path.child_isBelow_iff.2 hroot, ?_⟩
    simp [track?, hindex, hgroup, hkeys, hlt]
  · rintro ⟨hbelow, htrack⟩
    obtain ⟨track, htrack⟩ := Option.isSome_iff_exists.1 htrack
    obtain ⟨key, hkey, htrack⟩ := Option.bind_eq_some_iff.1 htrack
    obtain ⟨index, hindex, htrack⟩ := Option.bind_eq_some_iff.1 htrack
    obtain ⟨group, hgroup, htrack⟩ := Option.bind_eq_some_iff.1 htrack
    obtain ⟨hkeys, htrack⟩ := Option.ite_none_right_eq_some.1 htrack
    obtain ⟨hlt, -⟩ := List.getElem?_eq_some_iff.1 htrack
    have hpath := Path.eq_child_of_getLast? hkey
    rw [hpath, Path.child_isBelow_iff] at hbelow
    exact ⟨_, locate_eq_ok_iff.2 ⟨path.dropLast, key, index, group, hpath, hbelow, hindex, hgroup,
      by simpa using hkeys, hlt, rfl⟩⟩

theorem ensureTrack_of_plain? (h : path.plain? = some plain)
    (hplain : catalog.ensureTrack root plain = .ok ()) : catalog.ensureTrack root path = .ok () := by
  obtain ⟨leaf, key, index, rfl, hindex, rfl⟩ := Path.exists_of_plain? h
  obtain ⟨located, hlocated⟩ := ensureTrack_eq_ok_iff.1 hplain
  obtain ⟨other, otherKey, otherIndex, group, heq, hroot, hother, hgroup, hkeys, hlt, -⟩ :=
    locate_eq_ok_iff.1 hlocated
  obtain ⟨rfl, rfl⟩ := Path.child_inj heq
  rw [Key.number?_ofIndex] at hother
  cases hother
  exact ensureTrack_eq_ok_iff.2
    ⟨_, locate_eq_ok_iff.2 ⟨leaf, key, index, group, rfl, hroot, hindex, hgroup, hkeys, hlt, rfl⟩⟩

theorem exists_group?_above {library : Library} (h : Catalog.ofLibrary library = .ok catalog)
    (hroot : root ≠ []) (hunder : root <+: path) {group : Group}
    (hgroup : catalog.group? path = some group) : ∃ top, catalog.group? root = some top := by
  obtain ⟨node, hnode, -⟩ := (group?_ofLibrary_eq_some_iff h).1 hgroup
  obtain ⟨rest, rfl⟩ := hunder
  rw [Library.node?_append library hroot] at hnode
  obtain ⟨top, htop, -⟩ := Option.bind_eq_some_iff.1 hnode
  exact ⟨top.group, (group?_ofLibrary_eq_some_iff h).2 ⟨top, htop, rfl⟩⟩

theorem firstTrack_eq_answer {library : Library} (h : Catalog.ofLibrary library = .ok catalog)
    {group : Group} (hroot : catalog.group? root = some group) :
    catalog.firstTrack root = Stop.answer (library.stops root).head? := by
  obtain ⟨node, hnode, -⟩ := (group?_ofLibrary_eq_some_iff h).1 hroot
  rw [Library.stops, hnode, firstTrack, edge_eq_answer .forward h hnode, Direction.order]

/-- A path leads to a track below a root if its plain path is one of the stops there, and steps from it
lead to the stops next to that one. -/
theorem exists_stop_of_ensureTrack {library : Library} (h : Catalog.ofLibrary library = .ok catalog)
    {group : Group} (hroot : catalog.group? root = some group)
    (hpath : catalog.ensureTrack root path = .ok ()) : ∃ plain index,
      path.plain? = some plain ∧ (library.stops root)[index]? = some (.track plain) ∧
      catalog.nextTrack root path = Stop.answer (library.stops root)[index + 1]? ∧
      catalog.prevTrack root path =
        Stop.answer (if index = 0 then none else (library.stops root)[index - 1]?) := by
  obtain ⟨node, hnode, -⟩ := (group?_ofLibrary_eq_some_iff h).1 hroot
  have hstops : library.stops root = node.stops root := by rw [Library.stops, hnode]
  obtain ⟨located, hlocated⟩ := ensureTrack_eq_ok_iff.1 hpath
  obtain ⟨before, after, hsplit, hnext, hprev⟩ := steps_eq_answer h hnode hlocated
  rw [← hstops] at hsplit
  obtain ⟨hhere, hafter, hbefore⟩ := neighbours_of_eq_append hsplit
  obtain ⟨leaf, key, index, group, rfl, -, hnumber, -, -, -, rfl⟩ := locate_eq_ok_iff.1 hlocated
  refine ⟨_, before.length, Path.plain?_child hnumber, hhere, ?_, ?_⟩
  · rw [hafter]
    exact hnext
  · rw [hbefore]
    exact hprev

/-- Steps forward from a track meet it and the tracks of a row after it, and then there is no track
left; where there is no track to start from, they meet none. -/
inductive Onward (catalog : Catalog) (root : Path) : Option Path → List Path → Prop
  | done : Onward catalog root none []
  | step {track : Path} {next : Option Path} {row : List Path}
    (hnext : catalog.nextTrack root track = .ok next) (hrow : Onward catalog root next row) :
    Onward catalog root (some track) (track :: row)

/-- The walk that starts at the first track below a root and steps forward meets a row of tracks. -/
def Meets (catalog : Catalog) (root : Path) (row : List Path) : Prop :=
  ∃ first, catalog.firstTrack root = .ok first ∧ Onward catalog root first row

theorem Onward.unique {start : Option Path} {row other : List Path}
    (h : Onward catalog root start row) (hother : Onward catalog root start other) : row = other := by
  induction h generalizing other with
  | done =>
    cases hother
    rfl
  | @step track next row hnext _ ih =>
    cases hother with
    | step hnextOther hrowOther =>
      rw [hnext] at hnextOther
      cases hnextOther
      rw [ih hrowOther]

theorem Meets.unique {row other : List Path} (h : catalog.Meets root row)
    (hother : catalog.Meets root other) : row = other := by
  obtain ⟨first, hfirst, honward⟩ := h
  obtain ⟨firstOther, hfirstOther, honwardOther⟩ := hother
  rw [hfirst] at hfirstOther
  cases hfirstOther
  exact honward.unique honwardOther

/-- The catalog is the one of a library and has a root, and no group at or below it is empty. -/
structure Stocked (catalog : Catalog) (library : Library) (root : Path) : Prop where
  ofLibrary_eq : Catalog.ofLibrary library = .ok catalog
  exists_group : ∃ group, catalog.group? root = some group
  not_empty : ∀ path group, root <+: path → catalog.group? path = some group →
    group.keys ≠ [] ∨ group.tracks ≠ []

namespace Stocked

variable {library : Library} (h : catalog.Stocked library root)
include h

theorem exists_node : ∃ node, library.node? root = some node ∧ library.stops root = node.stops root := by
  obtain ⟨group, hgroup⟩ := h.exists_group
  obtain ⟨node, hnode, -⟩ := (group?_ofLibrary_eq_some_iff h.ofLibrary_eq).1 hgroup
  exact ⟨node, hnode, by rw [Library.stops, hnode]⟩

theorem stops_eq : library.stops root = (library.tracks root).map .track := by
  obtain ⟨node, hnode, hstops⟩ := h.exists_node
  have htrack : ∀ stop ∈ library.stops root, stop.track?.map Stop.track = some stop := by
    intro stop hstop
    cases stop with
    | track path => rfl
    | barren path =>
      rw [hstops] at hstop
      have hunder := Library.prefix_of_mem_stops h.ofLibrary_eq hnode hstop
      obtain ⟨group, hgroup, hkeys, htracks⟩ :=
        Library.group?_of_barren_mem_stops h.ofLibrary_eq hnode hstop
      rcases h.not_empty path group hunder hgroup with hne | hne
      · exact absurd hkeys hne
      · exact absurd htracks hne
  rw [Library.tracks, List.map_filterMap, List.filterMap_congr htrack, List.filterMap_some]

theorem tracks_ne_nil : library.tracks root ≠ [] := by
  obtain ⟨node, hnode, hstops⟩ := h.exists_node
  have hne := Library.stops_ne_nil h.ofLibrary_eq hnode
  rw [← hstops, h.stops_eq] at hne
  simpa using hne

theorem nodup_tracks : (library.tracks root).Nodup := Library.tracks_nodup h.ofLibrary_eq root

theorem indexIn?_eq_some_iff {index : Nat} : path.indexIn? (library.tracks root) = some index ↔
    ∃ plain, path.plain? = some plain ∧ (library.tracks root)[index]? = some plain := by
  simp only [Path.indexIn?, Option.bind_eq_some_iff, idxOf?_eq_some_iff_of_nodup h.nodup_tracks]

theorem firstTrack_eq : catalog.firstTrack root = .ok (library.tracks root)[0]? := by
  obtain ⟨group, hgroup⟩ := h.exists_group
  rw [firstTrack_eq_answer h.ofLibrary_eq hgroup, h.stops_eq, List.head?_map, List.head?_eq_getElem?,
    Stop.answer_map_track]

theorem lastTrack_eq : catalog.lastTrack root = .ok (library.tracks root).getLast? := by
  obtain ⟨node, hnode, hstops⟩ := h.exists_node
  rw [lastTrack, edge_eq_answer .backward h.ofLibrary_eq hnode, Direction.order, ← hstops,
    h.stops_eq, List.head?_reverse, List.getLast?_map, Stop.answer_map_track]

/-- A path that leads to a track below the root has an index in the row of the tracks, and steps from
it lead to the tracks next to this index. -/
theorem exists_indexIn? (hpath : catalog.ensureTrack root path = .ok ()) :
    ∃ index, path.indexIn? (library.tracks root) = some index ∧
      catalog.nextTrack root path = .ok (library.tracks root)[index + 1]? ∧
      catalog.prevTrack root path =
        .ok (if index = 0 then none else (library.tracks root)[index - 1]?) := by
  obtain ⟨group, hgroup⟩ := h.exists_group
  obtain ⟨plain, index, hplain, hhere, hnext, hprev⟩ :=
    exists_stop_of_ensureTrack h.ofLibrary_eq hgroup hpath
  have hrow : ∀ other : Nat,
      (library.stops root)[other]? = (library.tracks root)[other]?.map Stop.track := by
    intro other
    rw [h.stops_eq, List.getElem?_map]
  rw [hrow, Option.map_eq_some_iff] at hhere
  obtain ⟨same, hhere, ⟨⟩⟩ := hhere
  refine ⟨index, h.indexIn?_eq_some_iff.2 ⟨plain, hplain, hhere⟩, ?_, ?_⟩
  · rw [hnext, hrow, Stop.answer_map_track]
  · rw [hprev, hrow]
    split
    · rfl
    · exact Stop.answer_map_track _

theorem ensureTrack_of_indexIn? {index : Nat}
    (hindex : path.indexIn? (library.tracks root) = some index) :
    catalog.ensureTrack root path = .ok () := by
  obtain ⟨plain, hplain, hhere⟩ := h.indexIn?_eq_some_iff.1 hindex
  have hmem := List.mem_of_getElem? hhere
  exact ensureTrack_of_plain? hplain (Library.ensureTrack_of_mem_tracks h.ofLibrary_eq hmem).1

theorem ensureTrack_iff : catalog.ensureTrack root path = .ok () ↔
    ∃ index, path.indexIn? (library.tracks root) = some index := by
  constructor
  · intro hpath
    obtain ⟨index, hindex, -⟩ := h.exists_indexIn? hpath
    exact ⟨index, hindex⟩
  · rintro ⟨index, hindex⟩
    exact h.ensureTrack_of_indexIn? hindex

theorem steps_of_indexIn? {index : Nat}
    (hindex : path.indexIn? (library.tracks root) = some index) :
    catalog.nextTrack root path = .ok (library.tracks root)[index + 1]? ∧
    catalog.prevTrack root path =
      .ok (if index = 0 then none else (library.tracks root)[index - 1]?) := by
  obtain ⟨found, hfound, hsteps⟩ := h.exists_indexIn? (h.ensureTrack_of_indexIn? hindex)
  rw [hindex] at hfound
  cases hfound
  exact hsteps

theorem indexIn?_of_getElem? {index : Nat} (htrack : (library.tracks root)[index]? = some path) :
    path.indexIn? (library.tracks root) = some index := by
  have hmem := List.mem_of_getElem? htrack
  have hplain := (Library.ensureTrack_of_mem_tracks h.ofLibrary_eq hmem).2
  exact h.indexIn?_eq_some_iff.2 ⟨path, hplain, htrack⟩

theorem steps_of_getElem? {index : Nat} (htrack : (library.tracks root)[index]? = some path) :
    catalog.nextTrack root path = .ok (library.tracks root)[index + 1]? ∧
    catalog.prevTrack root path =
      .ok (if index = 0 then none else (library.tracks root)[index - 1]?) :=
  h.steps_of_indexIn? (h.indexIn?_of_getElem? htrack)

/-- From each index steps forward meet what stands there and after it. The induction is on the number
of tracks that are left. -/
theorem onward_drop (index : Nat) :
    Onward catalog root (library.tracks root)[index]? ((library.tracks root).drop index) := by
  induction hleft : (library.tracks root).length - index generalizing index with
  | zero =>
    have hend : (library.tracks root).length ≤ index := by omega
    rw [List.getElem?_eq_none hend, List.drop_eq_nil_of_le hend]
    exact .done
  | succ left ih =>
    have hlt : index < (library.tracks root).length := by omega
    have hhere := List.getElem?_eq_getElem hlt
    rw [hhere, List.drop_eq_getElem_cons hlt]
    exact .step (h.steps_of_getElem? hhere).1 (ih (index + 1) (by omega))

theorem meets_tracks : catalog.Meets root (library.tracks root) :=
  ⟨_, h.firstTrack_eq, h.onward_drop 0⟩

end Stocked

end Catalog

end Jukebox
