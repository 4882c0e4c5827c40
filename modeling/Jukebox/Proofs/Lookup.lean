import Jukebox.Proofs.Catalog.Landing
import Jukebox.Proofs.Catalog.Tracks
import Jukebox.Proofs.Playlist.Reach

/-!
The two ways to look up a track. A path is located below a root by the kind of its leaf and the count of
the leaf's tracks; the track at a path is fetched from a group that lists no keys. In any catalog, whatever
groups it holds, the two agree, and whatever walks and expansions write is found by both.
-/

namespace Jukebox.Catalog

variable {catalog : Catalog} {root path : Path} {track : Track} {located : Located}

/-- A track is fetched from a group without children, by a key that writes its index. -/
theorem track?_eq_some_iff : catalog.track? path = some track ↔
    ∃ (leaf : Path) (key : Key) (index : Nat) (group : Group), path = leaf.child key ∧
      key.number? = some index ∧ catalog.group? leaf = some group ∧ group.keys = [] ∧
      group.tracks[index]? = some track := by
  constructor
  · intro h
    obtain ⟨key, hkey, h⟩ := Option.bind_eq_some_iff.1 h
    obtain ⟨index, hindex, h⟩ := Option.bind_eq_some_iff.1 h
    obtain ⟨group, hgroup, h⟩ := Option.bind_eq_some_iff.1 h
    obtain ⟨hkeys, htrack⟩ := Option.ite_none_right_eq_some.1 h
    exact ⟨path.dropLast, key, index, group, Path.eq_child_of_getLast? hkey, hindex, hgroup,
      by simpa using hkeys, htrack⟩
  · rintro ⟨leaf, key, index, group, rfl, hindex, hgroup, hkeys, htrack⟩
    simp [track?, hindex, hgroup, hkeys, htrack]

theorem track?_of_locate (h : catalog.locate root path = .ok located) :
    ∃ group track, catalog.group? located.leaf = some group ∧
      located.count = group.tracks.length ∧ group.tracks[located.index]? = some track ∧
      catalog.track? path = some track := by
  obtain ⟨leaf, key, index, group, rfl, -, hindex, hgroup, hkeys, hlt, rfl⟩ := locate_eq_ok_iff.1 h
  have htrack := List.getElem?_eq_getElem hlt
  exact ⟨group, _, hgroup, rfl, htrack,
    track?_eq_some_iff.2 ⟨leaf, key, index, group, rfl, hindex, hgroup, hkeys, htrack⟩⟩

theorem HasTrack.isSome_track? (h : catalog.HasTrack root path) : (catalog.track? path).isSome :=
  (ensureTrack_iff_track?.1 h.ensureTrack).2

/-- **The two lookups agree.** In any catalog a path is located below a root just if it lies below the root and
a track is fetched by it, and it is this track of the leaf that it is located at. Whatever path a descent or a
step of a walk comes to, in either direction, and whatever path an expanded item holds, a track is fetched by
it. -/
theorem lookups_agree (catalog : Catalog) (root : Path) :
    (∀ path, catalog.ensureTrack root path = .ok () ↔
      (root <+: path ∧ root ≠ path) ∧ (catalog.track? path).isSome) ∧
    (∀ path located, catalog.locate root path = .ok located →
      ∃ group track, catalog.group? located.leaf = some group ∧
        group.tracks[located.index]? = some track ∧ catalog.track? path = some track) ∧
    (∀ direction found, catalog.edge direction root = .ok (some found) →
      (catalog.track? found).isSome) ∧
    (∀ direction current found, catalog.step direction root current = .ok (some found) →
      (catalog.track? found).isSome) ∧
    ∀ id item, Playlist.Item.expand catalog id root = .ok item →
      ∀ path ∈ item.tracks, (catalog.track? path).isSome := by
  refine ⟨fun path => ?_, fun path located hlocated => ?_, fun direction found hedge => ?_,
    fun direction current found hstep => ?_, fun id item hitem path hpath => ?_⟩
  · rw [ensureTrack_iff_track?, Path.isBelow_iff]
  · obtain ⟨group, track, hgroup, -, htrack, hfetched⟩ := track?_of_locate hlocated
    exact ⟨group, track, hgroup, htrack, hfetched⟩
  · exact (hasTrack_of_edge (List.prefix_refl root) hedge).isSome_track?
  · exact (hasTrack_of_step hstep).isSome_track?
  · obtain ⟨leaf, group, index, -, hgroup, hkeys, hlt, rfl⟩ :=
      (Playlist.Item.mem_tracks_of_expand hitem).1 hpath
    have hhas : catalog.HasTrack leaf (leaf.child (Key.ofIndex index)) :=
      ⟨leaf, group, index, List.prefix_refl leaf, hgroup, hkeys, hlt, rfl⟩
    exact hhas.isSome_track?

/-- A disc with two tracks, and a box that lists a key and holds a track as well, which no path leads to. -/
theorem lookups_agree_box :
    let track : Track := ⟨"aria", "aria", "", [], [], none, none, none, 0⟩
    let groups : List (Path × Group) := [(["shelf"], ⟨"shelf", ["disc", "box"], []⟩),
      (["shelf", "disc"], ⟨"disc", [], [track, track]⟩), (["shelf", "box"], ⟨"box", ["lid"], [track]⟩)]
    let catalog := Catalog.ofGroups (.ofList groups)
    catalog.firstTrack ["shelf"] = .ok (some ["shelf", "disc", "0"]) ∧
      (catalog.track? ["shelf", "disc", "0"]).isSome ∧
      catalog.nextTrack ["shelf"] ["shelf", "disc", "0"] = .ok (some ["shelf", "disc", "1"]) ∧
      (catalog.track? ["shelf", "disc", "1"]).isSome ∧
      catalog.ensureTrack ["shelf"] ["shelf", "disc", "1"] = .ok () ∧
      catalog.track? ["shelf", "box", "0"] = none ∧
      catalog.ensureTrack ["shelf"] ["shelf", "box", "0"] ≠ .ok () := by
  intro track groups catalog
  have hfirst : catalog.firstTrack ["shelf"] = .ok (some ["shelf", "disc", "0"]) := by decide +kernel
  have hnext : catalog.nextTrack ["shelf"] ["shelf", "disc", "0"] =
      .ok (some ["shelf", "disc", "1"]) := by decide +kernel
  have hbox : catalog.track? ["shelf", "box", "0"] = none := by decide +kernel
  obtain ⟨hiff, -, hedge, hstep, -⟩ := lookups_agree catalog ["shelf"]
  have hsecond := hstep .forward _ _ hnext
  refine ⟨hfirst, hedge .forward _ hfirst, hnext, hsecond, (hiff _).2 ⟨by decide, hsecond⟩, hbox,
    fun hok => ?_⟩
  have hfetched := ((hiff _).1 hok).2
  rw [hbox] at hfetched
  cases hfetched

end Jukebox.Catalog
