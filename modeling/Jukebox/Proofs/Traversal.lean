import Jukebox.Proofs.Catalog.Tracks
import Jukebox.Proofs.Playlist.Queue

/-!
All that goes through a catalog comes to an end, whatever is amiss with the catalog: expansions and walks,
and where no group lists a key twice also the steps forward from the first track. Each such step leads to
a track whose keys stand later among the keys of their groups, so that no track is met twice.
-/

namespace Jukebox

open Result (bind_eq_ok_iff pure_eq_ok_iff exists_of_findSomeM?_eq_ok)

namespace Catalog

variable {catalog : Catalog} {root path track next : Path} {levels : Nat}

/-! ### Ranks -/

/-- The place of a key at a path: the number of a track in a leaf, or where the key stands among the keys
of the children. -/
def place (catalog : Catalog) (path : Path) (key : Key) : Nat :=
  match catalog.group? path with
  | some group => if group.keys = [] then key.number?.getD 0 else group.keys.idxOf key
  | none => 0

/-- The places of the keys that lead down from a path. -/
def places (catalog : Catalog) : Path → List Key → List Nat
  | _, [] => []
  | path, key :: keys => catalog.place path key :: catalog.places (path.child key) keys

/-- The places of all the keys of a path. Ranks are compared place by place. -/
def rank (catalog : Catalog) (path : Path) : List Nat := catalog.places [] path

theorem places_append (catalog : Catalog) (path : Path) (first rest : List Key) :
    catalog.places path (first ++ rest) =
      catalog.places path first ++ catalog.places (path ++ first) rest := by
  induction first generalizing path with
  | nil => simp [places]
  | cons key first ih => simp [places, ih, Path.child]

/-- Of what lies below two children of a path, that below the child with the lower place has the lower
rank. -/
theorem rank_lt_rank {key other : Key} (hplace : catalog.place path key < catalog.place path other)
    (htrack : path.child key <+: track) (hnext : path.child other <+: next) :
    catalog.rank track < catalog.rank next := by
  obtain ⟨below, rfl⟩ := htrack
  obtain ⟨beyond, rfl⟩ := hnext
  simp only [rank, Path.child, List.append_assoc, List.singleton_append, places_append, places,
    List.nil_append]
  exact List.append_left_lt (List.Lex.rel hplace)

theorem place_of_leaf {group : Group} {key : Key} {index : Nat} (hgroup : catalog.group? path = some group)
    (hkeys : group.keys = []) (hindex : key.number? = some index) : catalog.place path key = index := by
  simp [place, hgroup, hkeys, hindex]

/-- If no key is listed twice, the keys that are listed beyond a key have higher places. -/
theorem place_lt_of_mem_beyond (hdistinct : catalog.KeysDistinct) {group : Group} {key other : Key}
    {position : Nat} (hgroup : catalog.group? path = some group)
    (hposition : group.keys.idxOf? key = some position)
    (hother : other ∈ Direction.forward.beyond position group.keys) :
    catalog.place path key < catalog.place path other := by
  have hnodup := hdistinct path group hgroup
  have hkeys : group.keys ≠ [] := by
    rintro hnil
    rw [hnil] at hposition
    cases hposition
  obtain ⟨offset, hoffset, rfl⟩ := List.mem_iff_getElem.1 hother
  have hkey := (idxOf?_eq_some_iff_of_nodup hnodup).1 hposition
  obtain ⟨hlt, rfl⟩ := List.getElem?_eq_some_iff.1 hkey
  simp only [place, hgroup, hkeys, if_false, Direction.beyond, List.getElem_drop]
  rw [hnodup.idxOf_getElem, hnodup.idxOf_getElem]
  omega

/-! ### Steps forward -/

theorem rank_lt_of_climb (hdistinct : catalog.KeysDistinct) (htrack : path <+: track)
    (h : catalog.climb .forward levels path = .ok (some next)) :
    catalog.rank track < catalog.rank next := by
  induction levels generalizing path with
  | zero => cases h
  | succ levels ih =>
    obtain ⟨siblings, hsiblings, h⟩ := bind_eq_ok_iff.1 h
    obtain ⟨answer, hanswer, h⟩ := bind_eq_ok_iff.1 h
    obtain ⟨parent, key, group, position, rfl, hgroup, hposition, rfl⟩ :=
      exists_of_siblingsBeyond_eq_ok hsiblings
    cases answer with
    | some found =>
      cases pure_eq_ok_iff.1 h
      obtain ⟨sibling, hsibling, hedge⟩ := exists_of_findSomeM?_eq_ok hanswer
      obtain ⟨other, hother, rfl⟩ := List.mem_map.1 hsibling
      have hplace := place_lt_of_mem_beyond hdistinct hgroup hposition hother
      have hfound := hasTrack_of_edge (List.prefix_refl _) hedge
      exact rank_lt_rank hplace htrack hfound.root_prefix
    | none =>
      rw [Path.dropLast_child] at h
      exact ih ((Path.prefix_child parent key).trans htrack) h

/-- A step forward leads to a track of a higher rank. -/
theorem rank_lt_of_nextTrack (hdistinct : catalog.KeysDistinct)
    (h : catalog.nextTrack root track = .ok (some next)) : catalog.rank track < catalog.rank next := by
  obtain ⟨located, hlocated, h⟩ := bind_eq_ok_iff.1 h
  obtain ⟨leaf, key, index, group, rfl, -, hindex, hgroup, hkeys, -, rfl⟩ :=
    locate_eq_ok_iff.1 hlocated
  dsimp only at h
  split at h
  · rename_i later hlater
    cases pure_eq_ok_iff.1 h
    refine rank_lt_rank ?_ (List.prefix_refl _) (List.prefix_refl _)
    obtain ⟨-, ⟨⟩⟩ := Option.ite_none_right_eq_some.1 hlater
    rw [place_of_leaf hgroup hkeys hindex, place_of_leaf hgroup hkeys (Key.number?_ofIndex _)]
    exact Nat.lt_succ_self index
  · exact rank_lt_of_climb hdistinct (Path.prefix_child leaf key) h

/-- Steps forward that start from an answer meet the tracks of a row in turn, each of which is stepped
from, until there is no track left or something is wrong. -/
inductive Walks (catalog : Catalog) (root : Path) : Except Error (Option Path) → List Path → Prop
  | done : Walks catalog root (.ok none) []
  | halt (error : Error) : Walks catalog root (.error error) []
  | step {track : Path} {row : List Path}
    (hrow : Walks catalog root (catalog.nextTrack root track) row) :
    Walks catalog root (.ok (some track)) (track :: row)

theorem Walks.unique {answer : Except Error (Option Path)} {row other : List Path}
    (h : catalog.Walks root answer row) (hother : catalog.Walks root answer other) : row = other := by
  induction h generalizing other with
  | done =>
    cases hother
    rfl
  | halt error =>
    cases hother
    rfl
  | step _ ih =>
    cases hother with
    | step hrowOther => rw [ih hrowOther]

/-! ### Tracks to meet -/

/-- The tracks at or below a path, in whatever groups the catalog holds there. -/
def tracksBelow (catalog : Catalog) (root : Path) : List Path :=
  (catalog.groups.toList.filter fun (path, group) => path.isUnder root && group.keys.isEmpty).flatMap
    fun (path, group) => (Group.Kind.leaf group.tracks).trackPaths path

theorem mem_tracksBelow : track ∈ catalog.tracksBelow root ↔ catalog.HasTrack root track := by
  simp only [tracksBelow, List.mem_flatMap, List.mem_filter, Prod.exists, Bool.and_eq_true,
    Path.isUnder_iff, List.isEmpty_iff, Group.Kind.mem_trackPaths,
    Std.ExtTreeMap.mem_toList_iff_getElem?_eq_some]
  constructor
  · rintro ⟨leaf, group, ⟨hgroup, hroot, hkeys⟩, _, index, ⟨⟩, hindex, rfl⟩
    exact ⟨leaf, group, index, hroot, hgroup, hkeys, hindex, rfl⟩
  · rintro ⟨leaf, group, index, hroot, hgroup, hkeys, hindex, rfl⟩
    exact ⟨leaf, group, ⟨hgroup, hroot, hkeys⟩, _, index, rfl, hindex, rfl⟩

/-- The tracks at or below a path are those that walks below it may address, each under the path that
is written as an index is written. -/
theorem hasTrack_iff : catalog.HasTrack root track ↔
    catalog.ensureTrack root track = .ok () ∧ track.plain? = some track := by
  constructor
  · intro h
    refine ⟨h.ensureTrack, ?_⟩
    obtain ⟨leaf, group, index, -, -, -, -, rfl⟩ := h
    exact Path.plain?_child (Key.number?_ofIndex index)
  · rintro ⟨hensure, hplain⟩
    obtain ⟨located, hlocated⟩ := ensureTrack_eq_ok_iff.1 hensure
    obtain ⟨leaf, key, index, group, rfl, hroot, hindex, hgroup, hkeys, hlt, -⟩ :=
      locate_eq_ok_iff.1 hlocated
    rw [Path.plain?_child hindex] at hplain
    exact ⟨leaf, group, index, hroot, hgroup, hkeys, hlt, (Option.some.inj hplain).symm⟩

theorem nodup_tracksBelow (catalog : Catalog) (root : Path) : (catalog.tracksBelow root).Nodup := by
  refine Playlist.Item.nodup_flatMap_children ?_ (fun node _ => ?_) fun node _ child hchild => ?_
  · refine List.Nodup.sublist (List.filter_sublist.map Prod.fst) ?_
    rw [Std.ExtTreeMap.map_fst_toList_eq_keys]
    exact Std.ExtTreeMap.nodup_keys
  · exact List.nodup_range.map fun _ _ heq => (Path.child_ofIndex_inj heq).2
  · obtain ⟨_, index, -, -, heq⟩ := Group.Kind.mem_trackPaths.1 hchild
    exact ⟨_, heq⟩

/-- The tracks at or below a root that have a higher rank than a path. -/
def ahead (catalog : Catalog) (root path : Path) : List Path :=
  (catalog.tracksBelow root).filter fun track => catalog.rank path < catalog.rank track

theorem length_ahead_lt (hnext : catalog.HasTrack root next)
    (hrank : catalog.rank track < catalog.rank next) :
    (catalog.ahead root next).length < (catalog.ahead root track).length := by
  have hahead : catalog.ahead root next =
      (catalog.ahead root track).filter fun other => catalog.rank next < catalog.rank other := by
    rw [ahead, ahead, List.filter_filter]
    refine List.filter_congr fun other _ => ?_
    by_cases hother : catalog.rank next < catalog.rank other
    · simp [hother, List.lt_trans hrank hother]
    · simp [hother]
  rw [hahead, List.length_filter_lt_length_iff_exists]
  refine ⟨next, List.mem_filter.2 ⟨mem_tracksBelow.2 hnext, by simpa using hrank⟩, ?_⟩
  simp

/-- From a track the steps forward are no more than the tracks ahead of it. The induction is on their
number. -/
theorem exists_walks_nextTrack (hdistinct : catalog.KeysDistinct) (root track : Path) :
    ∃ row, catalog.Walks root (catalog.nextTrack root track) row ∧
      row.length ≤ (catalog.ahead root track).length := by
  induction hahead : (catalog.ahead root track).length using Nat.strongRecOn generalizing track with
  | ind count ih =>
    rcases hnext : catalog.nextTrack root track with error | (_ | next)
    · exact ⟨[], .halt error, Nat.zero_le _⟩
    · exact ⟨[], .done, Nat.zero_le _⟩
    · have hfewer := length_ahead_lt (hasTrack_of_step hnext) (rank_lt_of_nextTrack hdistinct hnext)
      rw [hahead] at hfewer
      obtain ⟨row, hrow, hlength⟩ := ih _ hfewer next rfl
      exact ⟨next :: row, .step hrow, by rw [List.length_cons]; omega⟩

theorem exists_walks_firstTrack (hdistinct : catalog.KeysDistinct) (root : Path) :
    ∃ row, catalog.Walks root (catalog.firstTrack root) row ∧
      row.length ≤ (catalog.tracksBelow root).length := by
  rcases hfirst : catalog.firstTrack root with error | (_ | first)
  · exact ⟨[], .halt error, Nat.zero_le _⟩
  · exact ⟨[], .done, Nat.zero_le _⟩
  · obtain ⟨row, hrow, hlength⟩ := exists_walks_nextTrack hdistinct root first
    have hmem := mem_tracksBelow.2 (hasTrack_of_edge (List.prefix_refl root) hfirst)
    have hfewer : (catalog.ahead root first).length < (catalog.tracksBelow root).length :=
      List.length_filter_lt_length_iff_exists.2 ⟨first, hmem, by simp⟩
    exact ⟨first :: row, .step hrow, by rw [List.length_cons]; omega⟩

/-! ### Termination -/

/-- **All traversals come to an end.** In any catalog, told without a bound on how far it goes, the queue of
an expansion is drained, a descent from a root to its first or last track ends, and so does a step forward or
backward from any path, each with one result, which is what the expansion or the walk answers. If no group
lists a key twice, steps forward from the first track stop, for lack of a track or because something is
wrong, after at most as many steps as there are tracks at or below the root. -/
theorem traversals_end (catalog : Catalog) (root : Path) :
    (∃ nodes,
      (∀ result, Playlist.Item.Drains catalog root [root] result ↔ result = nodes) ∧
      ∀ id, Playlist.Item.expand catalog id root = nodes.map (Playlist.Item.ofNodes id root)) ∧
    (∀ answer, catalog.Ends .forward (.descend root) answer ↔ answer = catalog.firstTrack root) ∧
    (∀ answer, catalog.Ends .backward (.descend root) answer ↔ answer = catalog.lastTrack root) ∧
    (∀ track answer,
      catalog.Ends .forward (.step root track) answer ↔ answer = catalog.nextTrack root track) ∧
    (∀ track answer,
      catalog.Ends .backward (.step root track) answer ↔ answer = catalog.prevTrack root track) ∧
    (catalog.tracksBelow root).Nodup ∧
    (∀ track, track ∈ catalog.tracksBelow root ↔
      catalog.ensureTrack root track = .ok () ∧ track.plain? = some track) ∧
    (catalog.KeysDistinct → ∃ row,
      (∀ other, catalog.Walks root (catalog.firstTrack root) other ↔ other = row) ∧
      row.length ≤ (catalog.tracksBelow root).length) := by
  refine ⟨Playlist.Item.expand_drains catalog root, fun answer => ends_iff catalog .forward _ answer,
    fun answer => ends_iff catalog .backward _ answer,
    fun track answer => ends_iff catalog .forward _ answer,
    fun track answer => ends_iff catalog .backward _ answer, nodup_tracksBelow catalog root,
    fun track => mem_tracksBelow.trans hasTrack_iff, fun hdistinct => ?_⟩
  obtain ⟨row, hrow, hlength⟩ := exists_walks_firstTrack hdistinct root
  refine ⟨row, fun other => ⟨fun hother => hother.unique hrow, ?_⟩, hlength⟩
  rintro rfl
  exact hrow

/-- A walk along a shelf meets the two tracks of its disc and stops at a box which is not there; the tape
that the shelf does not list is not met. -/
theorem traversals_end_shelf :
    let track : Track := ⟨"aria", "aria", "", [], [], none, none, none, 0⟩
    let groups : List (Path × Group) := [(["shelf"], ⟨"shelf", ["disc", "box"], []⟩),
      (["shelf", "disc"], ⟨"disc", [], [track, track]⟩), (["shelf", "tape"], ⟨"tape", [], [track]⟩)]
    let catalog := Catalog.ofGroups (.ofList groups)
    catalog.KeysDistinct ∧ (catalog.tracksBelow ["shelf"]).length = 3 ∧
      catalog.nextTrack ["shelf"] ["shelf", "disc", "1"] = .error (.missingNode ["shelf", "box"]) ∧
      ∀ row, catalog.Walks ["shelf"] (catalog.firstTrack ["shelf"]) row →
        row = [["shelf", "disc", "0"], ["shelf", "disc", "1"]] ∧
          row.length ≤ (catalog.tracksBelow ["shelf"]).length := by
  intro track groups catalog
  have hdistinct : catalog.KeysDistinct := by decide +kernel
  have hfirst : catalog.firstTrack ["shelf"] = .ok (some ["shelf", "disc", "0"]) := by decide +kernel
  have hsecond : catalog.nextTrack ["shelf"] ["shelf", "disc", "0"] =
      .ok (some ["shelf", "disc", "1"]) := by decide +kernel
  have hthird : catalog.nextTrack ["shelf"] ["shelf", "disc", "1"] =
      .error (.missingNode ["shelf", "box"]) := by decide +kernel
  refine ⟨hdistinct, by decide +kernel, hthird, fun row hrow => ?_⟩
  obtain ⟨-, -, -, -, -, -, -, hstops⟩ := traversals_end catalog ["shelf"]
  obtain ⟨only, honly, hlength⟩ := hstops hdistinct
  have hmet : catalog.Walks ["shelf"] (catalog.firstTrack ["shelf"])
      [["shelf", "disc", "0"], ["shelf", "disc", "1"]] := by
    rw [hfirst]
    refine .step ?_
    rw [hsecond]
    refine .step ?_
    rw [hthird]
    exact .halt _
  rw [(honly row).1 hrow]
  exact ⟨((honly _).1 hmet).symm, hlength⟩

end Catalog

end Jukebox
