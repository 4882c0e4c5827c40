import Jukebox.Proofs.Cursor.Run
import Jukebox.Proofs.Playlist.Order
import Jukebox.Proofs.Text.Numeral

/-!
Addresses of tracks. Walks and expansions write the path of a track in one way: the path of its leaf
and the digits of its index. A track is found under other paths as well, since zeros and a plus before
the digits are read over, and a cursor keeps the path that it was given.
-/

namespace Jukebox

open Result (bind_eq_ok_iff)

/-! ### Keys that write an index -/

namespace Key

/-- The key writes an index: its digits filled up with zeros, with or without a plus before them. -/
def Writes (key : Key) (index : Nat) : Prop :=
  ∃ width, key = Text.decimal width index ∨ key = "+" ++ Text.decimal width index

theorem number?_eq_some_iff {key : Key} {index : Nat} : key.number? = some index ↔ key.Writes index := by
  have hplus (digits : String) : ("+" ++ digits).toList = '+' :: digits.toList := by
    rw [String.toList_append]
    rfl
  simp only [number?_eq_some_iff_isDigits, ← Text.decimal?_eq_some_iff_isDigits,
    Text.decimal?_eq_some_iff]
  constructor
  · rintro ⟨_, hdigits, width, rfl⟩
    refine ⟨width, hdigits.imp String.toList_inj.1 fun hdigits => String.toList_inj.1 ?_⟩
    rw [hdigits, hplus]
  · rintro ⟨width, rfl | rfl⟩
    · exact ⟨_, .inl rfl, width, rfl⟩
    · exact ⟨_, .inr (hplus _), width, rfl⟩

end Key

/-! ### Tracks that a walk meets -/

theorem Stop.answer_eq_ok_iff {stop : Option Stop} {path : Option Path} :
    answer stop = .ok path ↔ stop = path.map track := by
  rcases stop with _ | (found | found) <;> cases path <;> simp [answer]

namespace Catalog

variable {library : Library} {catalog : Catalog} {root path : Path} {group : Group}

/-- Steps forward that come to an end meet the tracks among the stops from where they start. The
induction is on the steps: each leads to the stop next to the one before. -/
theorem Onward.eq_filterMap (h : Catalog.ofLibrary library = .ok catalog)
    (hroot : catalog.group? root = some group) {start : Option Path} {row : List Path}
    (honward : Onward catalog root start row) {index : Nat}
    (hstart : Stop.answer (library.stops root)[index]? = .ok start) :
    row = ((library.stops root).drop index).filterMap Stop.track? := by
  have hhere := Stop.answer_eq_ok_iff.1 hstart
  induction honward generalizing index with
  | done =>
    rw [List.drop_eq_nil_of_le (List.getElem?_eq_none_iff.1 hhere)]
    rfl
  | @step track next row hnext hrow ih =>
    have hhere : (library.stops root)[index]? = some (.track track) := hhere
    obtain ⟨hensure, hplain⟩ := Library.ensureTrack_of_mem_tracks h
      (Library.mem_tracks_iff.2 (List.mem_of_getElem? hhere))
    obtain ⟨plain, found, hfound, hthere, hanswer, -⟩ := exists_stop_of_ensureTrack h hroot hensure
    rw [hplain] at hfound
    cases hfound
    obtain ⟨hlt, hget⟩ := List.getElem?_eq_some_iff.1 hhere
    have hsame : index = found :=
      (List.getElem?_inj hlt (Library.stops_nodup h root)).1 (hhere.trans hthere.symm)
    rw [← hsame, hnext] at hanswer
    rw [List.drop_eq_getElem_cons hlt, hget, ih hanswer.symm (Stop.answer_eq_ok_iff.1 hanswer.symm)]
    rfl

theorem Meets.eq_tracks (h : Catalog.ofLibrary library = .ok catalog)
    (hroot : catalog.group? root = some group) {row : List Path} (hrow : catalog.Meets root row) :
    row = library.tracks root := by
  obtain ⟨first, hfirst, honward⟩ := hrow
  have hanswer : Stop.answer (library.stops root)[0]? = .ok first := by
    rw [← hfirst, firstTrack_eq_answer h hroot, List.head?_eq_getElem?]
  exact honward.eq_filterMap h hroot hanswer

theorem mem_tracks_of_nextTrack (h : Catalog.ofLibrary library = .ok catalog)
    (hroot : catalog.group? root = some group) {track : Path}
    (hnext : catalog.nextTrack root path = .ok (some track)) : track ∈ library.tracks root := by
  obtain ⟨located, hlocated, -⟩ := bind_eq_ok_iff.1 hnext
  obtain ⟨plain, index, -, -, hanswer, -⟩ :=
    exists_stop_of_ensureTrack h hroot (ensureTrack_eq_ok_iff.2 ⟨located, hlocated⟩)
  rw [hnext] at hanswer
  exact Library.mem_tracks_iff.2 (List.mem_of_getElem? (Stop.answer_eq_ok_iff.1 hanswer.symm))

theorem mem_tracks_of_firstTrack (h : Catalog.ofLibrary library = .ok catalog)
    (hroot : catalog.group? root = some group) {track : Path}
    (hfirst : catalog.firstTrack root = .ok (some track)) : track ∈ library.tracks root := by
  rw [firstTrack_eq_answer h hroot] at hfirst
  exact Library.mem_tracks_iff.2 (List.mem_of_head? (Stop.answer_eq_ok_iff.1 hfirst))

/-! ### Paths that lead to a track -/

theorem ensureTrack_iff_plain? (h : Catalog.ofLibrary library = .ok catalog)
    (hroot : catalog.group? root = some group) : catalog.ensureTrack root path = .ok () ↔
      ∃ plain ∈ library.tracks root, path.plain? = some plain := by
  constructor
  · intro hpath
    obtain ⟨plain, index, hplain, hhere, -⟩ := exists_stop_of_ensureTrack h hroot hpath
    exact ⟨plain, Library.mem_tracks_iff.2 (List.mem_of_getElem? hhere), hplain⟩
  · rintro ⟨plain, hmem, hplain⟩
    exact ensureTrack_of_plain? hplain (Library.ensureTrack_of_mem_tracks h hmem).1

theorem locate_eq_iff_plain?_eq {other : Path} (hpath : catalog.ensureTrack root path = .ok ())
    (hother : catalog.ensureTrack root other = .ok ()) :
    catalog.locate root path = catalog.locate root other ↔ path.plain? = other.plain? := by
  obtain ⟨located, hlocated⟩ := ensureTrack_eq_ok_iff.1 hpath
  obtain ⟨otherLocated, hlocatedOther⟩ := ensureTrack_eq_ok_iff.1 hother
  obtain ⟨leaf, key, index, group, rfl, -, hindex, hgroup, -, -, rfl⟩ := locate_eq_ok_iff.1 hlocated
  obtain ⟨otherLeaf, otherKey, otherIndex, otherGroup, rfl, -, hindexOther, hgroupOther, -, -, rfl⟩ :=
    locate_eq_ok_iff.1 hlocatedOther
  rw [hlocated, hlocatedOther, Path.plain?_child hindex, Path.plain?_child hindexOther]
  constructor
  · intro hsame
    obtain ⟨rfl, rfl, -⟩ := Located.mk.inj (Except.ok.inj hsame)
    rfl
  · intro hplain
    obtain ⟨rfl, rfl⟩ := Path.child_ofIndex_inj (Option.some.inj hplain)
    rw [hgroup] at hgroupOther
    cases hgroupOther
    rfl

/-- **Addresses of tracks.** Below every root of the catalog of a library each track has one plain
path. Walks come to plain paths only, and a walk that runs to its end to all of them; an expansion holds
them. A path leads to a track just if it differs from a plain path in no more than zeros and a plus
before the digits of the index, and two such paths lead to the same track just if they differ in nothing
else. A cursor takes each of them, and keeps it as it is. -/
theorem track_addresses (h : Catalog.ofLibrary library = .ok catalog)
    (hroot : catalog.group? root = some group) :
    (library.tracks root).Nodup ∧
    (∀ track, catalog.firstTrack root = .ok (some track) → track ∈ library.tracks root) ∧
    (∀ path track, catalog.nextTrack root path = .ok (some track) → track ∈ library.tracks root) ∧
    (∀ row, catalog.Meets root row → row = library.tracks root) ∧
    (∀ id item, Playlist.Item.expand catalog id root = .ok item →
      item.tracks.Perm (library.tracks root)) ∧
    (∀ path, path ∈ library.tracks root ↔
      catalog.ensureTrack root path = .ok () ∧ path.plain? = some path) ∧
    (∀ path, catalog.ensureTrack root path = .ok () ↔
      ∃ (leaf : Path) (key : Key) (index : Nat), path = leaf.child key ∧ key.Writes index ∧
        leaf.child (Key.ofIndex index) ∈ library.tracks root) ∧
    (∀ path other, catalog.ensureTrack root path = .ok () → catalog.ensureTrack root other = .ok () →
      (catalog.locate root path = catalog.locate root other ↔ path.plain? = other.plain?)) ∧
    ∀ path, catalog.ensureTrack root path = .ok () → Cursor.set catalog root path = .ok ⟨some path⟩ := by
  refine ⟨Library.tracks_nodup h root, ?_, ?_, ?_, ?_, ?_, ?_, ?_, ?_⟩
  · intro track hfirst
    exact mem_tracks_of_firstTrack h hroot hfirst
  · intro path track hnext
    exact mem_tracks_of_nextTrack h hroot hnext
  · intro row hrow
    exact hrow.eq_tracks h hroot
  · intro id item hitem
    rw [Playlist.Item.tracks_of_expand h hitem]
    exact Path.sortByLength_perm _
  · intro path
    refine ⟨Library.ensureTrack_of_mem_tracks h, ?_⟩
    rintro ⟨hpath, hself⟩
    obtain ⟨plain, hmem, hplain⟩ := (ensureTrack_iff_plain? h hroot).1 hpath
    rw [hself] at hplain
    cases hplain
    exact hmem
  · intro path
    rw [ensureTrack_iff_plain? h hroot]
    constructor
    · rintro ⟨plain, hmem, hplain⟩
      obtain ⟨leaf, key, index, rfl, hindex, rfl⟩ := Path.exists_of_plain? hplain
      exact ⟨leaf, key, index, rfl, Key.number?_eq_some_iff.1 hindex, hmem⟩
    · rintro ⟨leaf, key, index, rfl, hwrites, hmem⟩
      exact ⟨_, hmem, Path.plain?_child (Key.number?_eq_some_iff.2 hwrites)⟩
  · intro path other hpath hother
    exact locate_eq_iff_plain?_eq hpath hother
  · intro path hpath
    exact Cursor.set_of_ensureTrack hpath

/-- The prelude on the shelf is found under a path that no walk meets, and a cursor is set to it. -/
theorem track_addresses_shelf : ∃ catalog group, Catalog.ofLibrary .house = .ok catalog ∧
    catalog.group? ["shelf"] = some group ∧
    catalog.ensureTrack ["shelf"] ["shelf", "disc", "+00"] = .ok () ∧
    (∃ (leaf : Path) (key : Key) (index : Nat), ["shelf", "disc", "+00"] = leaf.child key ∧
      key.Writes index ∧ leaf.child (Key.ofIndex index) ∈ Library.house.tracks ["shelf"]) ∧
    Cursor.set catalog ["shelf"] ["shelf", "disc", "+00"] = .ok ⟨some ["shelf", "disc", "+00"]⟩ := by
  refine ⟨_, _, rfl, rfl, rfl, ?_⟩
  obtain ⟨-, -, -, -, -, -, hleads, -, hset⟩ := @track_addresses .house _ ["shelf"] _ rfl rfl
  exact ⟨(hleads _).1 rfl, hset _ rfl⟩

/-- A path that leads to a track need not be the one that a walk meets, and with the latter another
path leads to the same track. -/
theorem not_one_address_per_track :
    (¬ ∀ (library : Library) (catalog : Catalog) (root : Path) (group : Group) (path : Path),
      Catalog.ofLibrary library = .ok catalog → catalog.group? root = some group →
      (catalog.ensureTrack root path = .ok () ↔ path ∈ library.tracks root)) ∧
    ¬ ∀ (library : Library) (catalog : Catalog) (root : Path) (group : Group) (path other : Path),
      Catalog.ofLibrary library = .ok catalog → catalog.group? root = some group →
      catalog.ensureTrack root path = .ok () → catalog.ensureTrack root other = .ok () →
      catalog.locate root path = catalog.locate root other → path = other := by
  constructor
  · intro h
    have hmem := (h .house _ ["shelf"] _ ["shelf", "disc", "00"] rfl rfl).1 rfl
    exact absurd hmem (by decide)
  · intro h
    have hsame := h .house _ ["shelf"] _ ["shelf", "disc", "00"] ["shelf", "disc", "0"]
      rfl rfl rfl rfl rfl
    exact absurd hsame (by decide)

end Catalog

end Jukebox
