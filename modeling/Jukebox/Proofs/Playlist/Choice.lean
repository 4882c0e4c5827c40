import Jukebox.Proofs.Catalog.Walk
import Jukebox.Proofs.Playlist.Store

/-!
The choice of a track of a playlist. A track is chosen by the index of its item and by its path, and is
found at the first place of the item that holds the path. No item of a playlist ever holds a path twice,
so that this is the only place, and whoever names a position by its path comes back to it.
-/

namespace Jukebox.Playlist

open Catalog (idxOf?_eq_some_iff_of_nodup)

variable {playlist played : Playlist} {item : Item} {position : Position} {index track : Nat}
  {path : Path}

/-- No item holds a path twice. -/
def TracksDistinct (playlist : Playlist) : Prop := ∀ item ∈ playlist.items, item.tracks.Nodup

/-! ### Positions of a path -/

theorem trackAt?_of_getElem? (h : playlist.items[index]? = some item) :
    playlist.trackAt? ⟨index, track⟩ = item.tracks[track]? := by
  simp [trackAt?, h]

theorem exists_of_trackAt? (h : playlist.trackAt? position = some path) :
    ∃ item, playlist.items[position.item]? = some item ∧ item.tracks[position.track]? = some path :=
  Option.bind_eq_some_iff.1 h

theorem TracksDistinct.track_unique (h : playlist.TracksDistinct) {other : Nat}
    (htrack : playlist.trackAt? ⟨index, track⟩ = some path) :
    playlist.trackAt? ⟨index, other⟩ = some path ↔ other = track := by
  obtain ⟨item, hitem, hpath⟩ := exists_of_trackAt? htrack
  have hnodup := h item (List.mem_of_getElem? hitem)
  rw [trackAt?_of_getElem? hitem, ← idxOf?_eq_some_iff_of_nodup hnodup,
    (idxOf?_eq_some_iff_of_nodup hnodup).2 hpath, Option.some.injEq, eq_comm]

/-! ### Choosing -/

theorem TracksDistinct.playItem_eq (h : playlist.TracksDistinct)
    (hpath : playlist.trackAt? position = some path) :
    playlist.playItem position.item path = .ok { playlist with current := some position } := by
  obtain ⟨item, hitem, htrack⟩ := exists_of_trackAt? hpath
  have hfirst := (idxOf?_eq_some_iff_of_nodup (h item (List.mem_of_getElem? hitem))).2 htrack
  simp [playItem, hitem, hfirst]

theorem playItem_of_none (h : playlist.items[index]? = none) :
    playlist.playItem index path = .error (.unknownItem index) := by
  simp [playItem, h]

theorem playItem_of_not_mem (hitem : playlist.items[index]? = some item) (h : path ∉ item.tracks) :
    playlist.playItem index path = .error (.trackNotInItem path index) := by
  simp [playItem, hitem, List.idxOf?_eq_none_iff.2 h]

/-- What a choice comes to: there is no such item, the item does not hold the path, or the path stands at
some place of the item. -/
theorem TracksDistinct.playItem_cases (h : playlist.TracksDistinct) (index : Nat) (path : Path) :
    (playlist.items[index]? = none ∧
      playlist.playItem index path = .error (.unknownItem index)) ∨
    (∃ item, playlist.items[index]? = some item ∧ path ∉ item.tracks ∧
      playlist.playItem index path = .error (.trackNotInItem path index)) ∨
    ∃ item track, playlist.items[index]? = some item ∧ path ∈ item.tracks ∧
      playlist.trackAt? ⟨index, track⟩ = some path ∧
      playlist.playItem index path = .ok { playlist with current := some ⟨index, track⟩ } := by
  cases hitem : playlist.items[index]? with
  | none => exact .inl ⟨rfl, playItem_of_none hitem⟩
  | some item =>
    by_cases hmem : path ∈ item.tracks
    · obtain ⟨track, htrack⟩ := List.mem_iff_getElem?.1 hmem
      have hpath := (trackAt?_of_getElem? hitem).trans htrack
      exact .inr (.inr ⟨item, track, rfl, hmem, hpath, h.playItem_eq hpath⟩)
    · exact .inr (.inl ⟨item, rfl, hmem, playItem_of_not_mem hitem hmem⟩)

theorem TracksDistinct.exists_playItem_iff (h : playlist.TracksDistinct) :
    (∃ played, playlist.playItem index path = .ok played) ↔
      ∃ item, playlist.items[index]? = some item ∧ path ∈ item.tracks := by
  rcases h.playItem_cases index path with ⟨hitem, hchoice⟩ | ⟨item, hitem, hmem, hchoice⟩ |
    ⟨item, track, hitem, hmem, -, hchoice⟩
  · simp [hchoice, hitem]
  · simp [hchoice, hitem, hmem]
  · simp [hchoice, hitem, hmem]

/-- The chosen track becomes the current one, at the only place of the item that holds its path. -/
theorem TracksDistinct.of_playItem_eq_ok (h : playlist.TracksDistinct)
    (hplayed : playlist.playItem index path = .ok played) :
    played.items = playlist.items ∧ played.currentPath? = some path ∧
      ∃ track, played.current = some ⟨index, track⟩ ∧
        ∀ other, playlist.trackAt? ⟨index, other⟩ = some path ↔ other = track := by
  rcases h.playItem_cases index path with ⟨-, hchoice⟩ | ⟨item, -, -, hchoice⟩ |
    ⟨item, track, -, -, hpath, hchoice⟩
  · cases hchoice.symm.trans hplayed
  · cases hchoice.symm.trans hplayed
  · cases hchoice.symm.trans hplayed
    exact ⟨rfl, hpath, track, rfl, fun other => h.track_unique hpath⟩

theorem TracksDistinct.kind_of_playItem_eq_error (h : playlist.TracksDistinct) {error : Error}
    (herror : playlist.playItem index path = .error error) :
    (error.kind = .unknownEntity ∧ playlist.items.length ≤ index) ∨
      error.kind = .invalidState ∧
        ∃ item, playlist.items[index]? = some item ∧ path ∉ item.tracks := by
  rcases h.playItem_cases index path with ⟨hitem, hchoice⟩ | ⟨item, hitem, hmem, hchoice⟩ |
    ⟨item, track, -, -, -, hchoice⟩
  · cases hchoice.symm.trans herror
    exact .inl ⟨rfl, List.getElem?_eq_none_iff.1 hitem⟩
  · cases hchoice.symm.trans herror
    exact .inr ⟨rfl, item, hitem, hmem⟩
  · cases hchoice.symm.trans herror

/-! ### Named playlists -/

namespace Store

variable {catalog : Catalog}

/-- Expansion writes no path twice and removals write none, so no item of a named playlist ever holds a
path twice. -/
theorem tracksDistinct_run (hdistinct : catalog.KeysDistinct) (envelopes : List Envelope)
    (name : String) : ((Store.run catalog ∅ envelopes).playlist name).TracksDistinct := by
  have hsound : Every (Item.Sound catalog) (Store.run catalog ∅ envelopes) :=
    every_empty.run (fun id root item => Item.sound_of_expand hdistinct)
      (fun item path pruned => Item.Sound.remove) envelopes
  exact fun item hitem => (hsound name item hitem).tracks_nodup

/-- The choice of a track of a named playlist answers with the playlist as it is then, and stores it under
its name; if the track is not found, the playlist stays as it is. -/
theorem apply_playItem (store : Store) (catalog : Catalog) (fresh : Uuid) {name : String}
    (hname : name ≠ "") (index : Nat) (path : Path) :
    let choice := (store.playlist name).playItem index path
    let outcome := store.apply catalog fresh name (.playItem index path)
    outcome.answer = choice.map (·.snapshot name) ∧
    ∀ other, outcome.store.playlist other =
      if name = other then choice.toOption.getD (store.playlist name) else store.playlist other := by
  intro choice outcome
  have houtcome : outcome = store.edit name (·.playItem index path) := by
    simp [outcome, Store.apply, hname]
  rw [houtcome]
  unfold Store.edit
  dsimp only
  cases hchoice : (store.playlist name).playItem index path with
  | ok played | error error =>
    refine ⟨by simp [choice, hchoice, Except.map], fun other => ?_⟩
    rw [playlist_insert]
    simp [choice, hchoice, Except.toOption]

/-- **A track is chosen exactly.** After any run of actions from no playlists, with the catalog of a library,
a track can be chosen just if the item at the index holds its path. The path stands at one place of the item,
and this becomes the current one, with the path as the current path. So the path of any position leads back
to this very position, whatever other items hold. A choice that fails names an item that there is not, or a
path that the item does not hold. The action on the named playlist answers with the choice and stores it, and
a choice that fails changes no playlist. -/
theorem choice_exact {library : Library} {catalog : Catalog}
    (h : Catalog.ofLibrary library = .ok catalog) (envelopes : List Envelope) (name : String)
    (index : Nat) (path : Path) :
    let store := Store.run catalog ∅ envelopes
    let playlist := store.playlist name
    let choice := playlist.playItem index path
    ((∃ played, choice = .ok played) ↔
      ∃ item, playlist.items[index]? = some item ∧ path ∈ item.tracks) ∧
    (∀ played, choice = .ok played → played.items = playlist.items ∧
      played.currentPath? = some path ∧ ∃ track, played.current = some ⟨index, track⟩ ∧
        ∀ other, playlist.trackAt? ⟨index, other⟩ = some path ↔ other = track) ∧
    (∀ position, playlist.trackAt? position = some path →
      playlist.playItem position.item path = .ok { playlist with current := some position }) ∧
    (∀ error, choice = .error error →
      (error.kind = .unknownEntity ∧ playlist.items.length ≤ index) ∨
      error.kind = .invalidState ∧
        ∃ item, playlist.items[index]? = some item ∧ path ∉ item.tracks) ∧
    ∀ fresh, name ≠ "" →
      let outcome := store.apply catalog fresh name (.playItem index path)
      outcome.answer = choice.map (·.snapshot name) ∧
      (∀ played, choice = .ok played → outcome.store.playlist name = played) ∧
      ∀ error, choice = .error error → ∀ other, outcome.store.playlist other = store.playlist other := by
  intro store playlist choice
  have hdistinct : playlist.TracksDistinct :=
    tracksDistinct_run (Catalog.keysDistinct_ofLibrary h) envelopes name
  refine ⟨hdistinct.exists_playItem_iff, fun played => hdistinct.of_playItem_eq_ok,
    fun position => hdistinct.playItem_eq, fun error => hdistinct.kind_of_playItem_eq_error,
    fun fresh hname => ?_⟩
  obtain ⟨hanswer, hstore⟩ := store.apply_playItem catalog fresh hname index path
  refine ⟨hanswer, fun played hplayed => ?_, fun error herror other => ?_⟩
  · rw [hstore, if_pos rfl]
    exact congrArg (fun choice : Except Error Playlist => choice.toOption.getD playlist) hplayed
  · have hkept : choice.toOption.getD playlist = playlist := by
      rw [herror]
      rfl
    rw [hstore]
    split
    · rename_i heq
      exact hkept.trans (congrArg store.playlist heq)
    · rfl

/-- Two items hold the same track of a disc. Its path leads to it in the item that is named, whatever was
current before. -/
theorem choice_exact_disc : ∃ catalog, Catalog.ofLibrary .house = .ok catalog ∧
    let envelopes : List Envelope := [⟨⟨0⟩, "mix", .append ["shelf"]⟩,
      ⟨⟨1⟩, "mix", .append ["shelf", "disc"]⟩, ⟨⟨2⟩, "mix", .next⟩]
    let store := Store.run catalog ∅ envelopes
    let playlist := store.playlist "mix"
    let fugue := ["shelf", "disc", "1"]
    playlist.current = some ⟨0, 0⟩ ∧ playlist.trackAt? ⟨0, 1⟩ = some fugue ∧
    playlist.trackAt? ⟨1, 1⟩ = some fugue ∧
    playlist.playItem 1 fugue = .ok { playlist with current := some ⟨1, 1⟩ } ∧
    ((store.apply catalog ⟨3⟩ "mix" (.playItem 1 fugue)).store.playlist "mix").current =
      some ⟨1, 1⟩ := by
  refine ⟨_, rfl, ?_⟩
  intro envelopes store playlist fugue
  have hsecond : playlist.trackAt? ⟨1, 1⟩ = some fugue := by decide +kernel
  obtain ⟨-, -, hback, -, hstored⟩ := @choice_exact .house _ rfl envelopes "mix" 1 fugue
  have hchoice := hback ⟨1, 1⟩ hsecond
  exact ⟨by decide +kernel, by decide +kernel, hsecond, hchoice,
    congrArg Playlist.current ((hstored ⟨3⟩ (by decide)).2.1 _ hchoice)⟩

end Store

end Jukebox.Playlist
