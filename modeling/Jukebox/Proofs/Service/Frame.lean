import Jukebox.Proofs.Service.Files

/-!
What an action on a name does: it answers with what it stores, stores it under that name and nowhere
else, and reports it once. An item that is added is the only thing that is new in a playlist.
-/

namespace Jukebox

open Result (map_eq_ok_iff)

/-! ### Playlists -/

namespace Playlist

variable {playlist changed : Playlist} {catalog : Catalog} {fresh : Uuid} {path : Path}

/-- The playlist after an action; an item that it adds gets the fresh identifier. -/
def act (playlist : Playlist) (catalog : Catalog) (fresh : Uuid) : Action → Except Error Playlist
  | .fetch => .ok playlist
  | .append path => (Item.expand catalog fresh path).map playlist.append
  | .playNow path => (Item.expand catalog fresh path).map playlist.playNow
  | .remove index path => playlist.remove index path
  | .playItem index path => playlist.playItem index path
  | .next => .ok playlist.next
  | .prev => .ok playlist.prev
  | .clear => .ok playlist.clear

theorem act_append (h : playlist.act catalog fresh (.append path) = .ok changed) :
    ∃ item, Item.expand catalog fresh path = .ok item ∧
      changed = ⟨playlist.items ++ [item], playlist.current⟩ := by
  obtain ⟨item, hitem, rfl⟩ := map_eq_ok_iff.1 h
  have hnonempty := Item.isEmpty_eq_false_iff.2 (Item.tracks_ne_nil_of_expand hitem)
  exact ⟨item, hitem, by simp [append, hnonempty]⟩

theorem Valid.act_playNow (hvalid : playlist.Valid)
    (h : playlist.act catalog fresh (.playNow path) = .ok changed) :
    ∃ item before after, Item.expand catalog fresh path = .ok item ∧
      playlist.items = before ++ after ∧
      (before.length = match playlist.current with
        | none => 0
        | some position => position.item + 1) ∧
      changed = ⟨before ++ item :: after, some ⟨before.length, 0⟩⟩ := by
  obtain ⟨item, hitem, rfl⟩ := map_eq_ok_iff.1 h
  have hnonempty := Item.isEmpty_eq_false_iff.2 (Item.tracks_ne_nil_of_expand hitem)
  cases hcurrent : playlist.current with
  | none => exact ⟨item, [], playlist.items, hitem, rfl, rfl, by simp [playNow, hnonempty, hcurrent]⟩
  | some position =>
    have hlength : (playlist.items.take (position.item + 1)).length = position.item + 1 :=
      List.length_take_of_le (hvalid.item_lt hcurrent)
    exact ⟨item, playlist.items.take (position.item + 1), playlist.items.drop (position.item + 1),
      hitem, (List.take_append_drop _ _).symm, hlength,
      by simp [playNow, hnonempty, hcurrent, hlength]⟩

theorem snapshot_current_of_getElem? {item : Item} {before after : List Item} {track : Path}
    {name : String} (h : item.tracks[0]? = some track) :
    (snapshot ⟨before ++ item :: after, some ⟨before.length, 0⟩⟩ name).current =
      some ⟨⟨before.length, 0⟩, track⟩ := by
  simp [snapshot, trackAt?, h]

namespace Store

variable {store : Store} {name : String} {action : Action} {snapshot : Snapshot}

theorem edit_of_eq_ok {change : Playlist → Except Error Playlist}
    (h : (store.edit name change).answer = .ok snapshot) :
    ∃ changed, change (store.playlist name) = .ok changed ∧ store.edit name change =
      ⟨store.insert name changed, .ok (changed.snapshot name), [.playlistChanged name]⟩ := by
  unfold Store.edit at h ⊢
  dsimp only at h ⊢
  cases hresult : change (store.playlist name) with
  | error error =>
    rw [hresult] at h
    cases h
  | ok changed => exact ⟨changed, rfl, rfl⟩

theorem editWith_of_eq_ok {path : Path} {change : Playlist → Item → Playlist}
    (h : (store.editWith catalog fresh name path change).answer = .ok snapshot) :
    ∃ changed, (Item.expand catalog fresh path).map (change (store.playlist name)) = .ok changed ∧
      store.editWith catalog fresh name path change =
        ⟨store.insert name changed, .ok (changed.snapshot name), [.playlistChanged name]⟩ := by
  unfold Store.editWith at h ⊢
  cases hitem : Item.expand catalog fresh path with
  | error error =>
    rw [hitem] at h
    cases h
  | ok item => exact ⟨change (store.playlist name) item, rfl, rfl⟩

/-- **An action that succeeds stores the playlist that it answers with**, and reports it. -/
theorem apply_of_eq_ok (haction : action ≠ .fetch)
    (h : (store.apply catalog fresh name action).answer = .ok snapshot) :
    name ≠ "" ∧ ∃ changed, (store.playlist name).act catalog fresh action = .ok changed ∧
      snapshot = changed.snapshot name ∧ store.apply catalog fresh name action =
        ⟨store.insert name changed, .ok snapshot, [.playlistChanged name]⟩ := by
  suffices hacts : name ≠ "" ∧ ∃ changed, (store.playlist name).act catalog fresh action = .ok changed ∧
      store.apply catalog fresh name action =
        ⟨store.insert name changed, .ok (changed.snapshot name), [.playlistChanged name]⟩ by
    obtain ⟨hname, changed, hchanged, happly⟩ := hacts
    rw [happly] at h
    cases h
    exact ⟨hname, changed, hchanged, rfl, happly⟩
  unfold Store.apply at h ⊢
  split at h
  · cases h
  rename_i hname
  rw [if_neg hname]
  refine ⟨by simpa using hname, ?_⟩
  cases action with
  | fetch => exact absurd rfl haction
  | append path => exact editWith_of_eq_ok h
  | playNow path => exact editWith_of_eq_ok h
  | remove index path => exact edit_of_eq_ok h
  | playItem index path => exact edit_of_eq_ok h
  | next | prev | clear => exact edit_of_eq_ok h

theorem apply_fetch (hname : name ≠ "") : store.apply catalog fresh name .fetch =
    ⟨store, .ok ((store.playlist name).snapshot name), []⟩ := by
  simp [Store.apply, Store.get, hname]

theorem store_apply_fetch : (store.apply catalog fresh name .fetch).store = store ∧
    (store.apply catalog fresh name .fetch).events = [] := by
  unfold Store.apply
  split <;> exact ⟨rfl, rfl⟩

end Store

end Playlist

/-! ### Cursors -/

namespace Cursor.Store

variable {store : Store} {catalog : Catalog} {anchor : Path} {played : Option Path} {name : String}
  {action : Action} {snapshot : Snapshot}

/-- **An action that succeeds stores the cursor that it answers with**, and reports it. -/
theorem apply_of_eq_ok (haction : action ≠ .fetch)
    (h : (store.apply catalog anchor played name action).answer = .ok snapshot) :
    name ≠ "" ∧ ∃ moved : Cursor, moved.snapshot catalog anchor name = .ok snapshot ∧
      store.apply catalog anchor played name action =
        ⟨store.insert name moved, .ok snapshot, [.cursorChanged name]⟩ := by
  rcases store.apply_cases catalog anchor played name action with
    ⟨error, happly⟩ | ⟨hfetch, -⟩ | ⟨-, hname, moved, shown, -, hshown, happly⟩
  · rw [happly] at h
    cases h
  · exact absurd hfetch haction
  · rw [happly] at h
    cases h
    exact ⟨hname, moved, hshown, happly⟩

theorem apply_fetch_insert {cursor : Cursor} (hname : name ≠ "")
    (h : cursor.snapshot catalog anchor name = .ok snapshot) :
    (apply (store.insert name cursor) catalog anchor played name .fetch).answer = .ok snapshot := by
  have hcursor : Store.cursor (store.insert name cursor) name = cursor :=
    cursor_of_getElem? Std.ExtTreeMap.getElem?_insert_self
  simp [Store.apply, get, hname, hcursor, h]

theorem store_apply_fetch : (store.apply catalog anchor played name .fetch).store = store ∧
    (store.apply catalog anchor played name .fetch).events = [] := by
  unfold Store.apply
  split <;> exact ⟨rfl, rfl⟩

end Cursor.Store

/-! ### Services -/

namespace Service

/-- **An action changes one name and answers with what it stores.** After any run of operations,
files that are loaded among them, an action on a name that succeeds answers with what is fetched
under that name afterwards. Nothing else that is stored changes, and one event names the name.
Fetching changes nothing and reports nothing. An item that is appended stands behind all others, and
one that is played now stands behind the current one, or at the front if there is none, and its
first track is the current one. -/
theorem action_on_one_name (catalog : Catalog) (anchor : Path) (players : Players)
    (operations : List Operation) :
    let service := ({ catalog, anchor, players } : Service).run operations
    (∀ fresh name action snapshot, action ≠ .fetch →
      (service.applyPlaylist fresh name action).answer = .ok snapshot →
      let after := (service.applyPlaylist fresh name action).store
      snapshot = (after.playlists.playlist name).snapshot name ∧
      (∀ fresh, (after.applyPlaylist fresh name .fetch).answer = .ok snapshot) ∧
      (∀ other : String, other ≠ name → after.playlists[other]? = service.playlists[other]?) ∧
      (service.applyPlaylist fresh name action).events = [.playlistChanged name] ∧
      after = { service with playlists := after.playlists }) ∧
    (∀ name action snapshot, action ≠ .fetch →
      (service.applyCursor name action).answer = .ok snapshot →
      let after := (service.applyCursor name action).store
      (after.applyCursor name .fetch).answer = .ok snapshot ∧
      (∀ other : String, other ≠ name → after.cursors[other]? = service.cursors[other]?) ∧
      (service.applyCursor name action).events = [.cursorChanged name] ∧
      after = { service with cursors := after.cursors }) ∧
    (∀ fresh name, (service.applyPlaylist fresh name .fetch).store = service ∧
      (service.applyPlaylist fresh name .fetch).events = []) ∧
    (∀ name, (service.applyCursor name .fetch).store = service ∧
      (service.applyCursor name .fetch).events = []) ∧
    (∀ fresh name path snapshot,
      (service.applyPlaylist fresh name (.append path)).answer = .ok snapshot →
      let before := service.playlists.playlist name
      let after := (service.applyPlaylist fresh name (.append path)).store.playlists.playlist name
      ∃ item, Playlist.Item.expand catalog fresh path = .ok item ∧
        after = ⟨before.items ++ [item], before.current⟩) ∧
    ∀ fresh name path snapshot,
      (service.applyPlaylist fresh name (.playNow path)).answer = .ok snapshot →
      let before := service.playlists.playlist name
      let after := (service.applyPlaylist fresh name (.playNow path)).store.playlists.playlist name
      ∃ item track first rest, Playlist.Item.expand catalog fresh path = .ok item ∧
        item.tracks[0]? = some track ∧ before.items = first ++ rest ∧
        (first.length = match before.current with
          | none => 0
          | some position => position.item + 1) ∧
        after = ⟨first ++ item :: rest, some ⟨first.length, 0⟩⟩ ∧
        snapshot.current = some ⟨⟨first.length, 0⟩, track⟩ := by
  intro service
  have hstorable : service.Storable := by
    have hempty := storable_start catalog anchor
    have hstart : Storable { catalog, anchor, players } := ⟨hempty.playlists, hempty.cursors⟩
    exact hstart.run operations
  have hcatalog : service.catalog = catalog := (sameSurroundings_run _ operations).catalog_eq
  refine ⟨?_, ?_, ?_, ?_, ?_, ?_⟩
  · intro fresh name action snapshot haction hanswer
    obtain ⟨hname, changed, -, rfl, happly⟩ := Playlist.Store.apply_of_eq_ok haction hanswer
    have hstored := Playlist.Store.playlist_insert service.playlists name name changed
    rw [if_pos rfl] at hstored
    dsimp only [applyPlaylist]
    rw [happly]
    refine ⟨by rw [hstored], fun fresh => ?_, fun other hne => ?_, rfl, rfl⟩
    · rw [Playlist.Store.apply_fetch hname, hstored]
    · rw [Map.getElem?_insert, if_neg hne.symm]
  · intro name action snapshot haction hanswer
    obtain ⟨hname, moved, hshown, happly⟩ := Cursor.Store.apply_of_eq_ok haction hanswer
    dsimp only [applyCursor]
    rw [happly]
    refine ⟨Cursor.Store.apply_fetch_insert hname hshown, fun other hne => ?_, rfl, rfl⟩
    rw [Map.getElem?_insert, if_neg hne.symm]
  · intro fresh name
    obtain ⟨hstore, hevents⟩ := @Playlist.Store.store_apply_fetch service.catalog fresh
      service.playlists name
    exact ⟨by rw [applyPlaylist, hstore], hevents⟩
  · intro name
    obtain ⟨hstore, hevents⟩ := @Cursor.Store.store_apply_fetch service.cursors service.catalog
      service.anchor (service.playlists.currentPath? name) name
    exact ⟨by rw [applyCursor, hstore], hevents⟩
  · intro fresh name path snapshot hanswer
    obtain ⟨-, changed, hchanged, rfl, happly⟩ := Playlist.Store.apply_of_eq_ok (by simp) hanswer
    obtain ⟨item, hitem, rfl⟩ := Playlist.act_append hchanged
    dsimp only [applyPlaylist]
    rw [happly]
    exact ⟨item, hcatalog ▸ hitem, by rw [Playlist.Store.playlist_insert, if_pos rfl]⟩
  · intro fresh name path snapshot hanswer
    obtain ⟨-, changed, hchanged, rfl, happly⟩ := Playlist.Store.apply_of_eq_ok (by simp) hanswer
    obtain ⟨item, first, rest, hitem, hitems, hlength, rfl⟩ :=
      (hstorable.playlists name).act_playNow hchanged
    obtain ⟨track, tracks, htracks⟩ :=
      List.exists_cons_of_ne_nil (Playlist.Item.tracks_ne_nil_of_expand hitem)
    have htrack : item.tracks[0]? = some track := by simp [htracks]
    dsimp only [applyPlaylist]
    rw [happly]
    exact ⟨item, track, first, rest, hcatalog ▸ hitem, htrack, hitems, hlength,
      by rw [Playlist.Store.playlist_insert, if_pos rfl], Playlist.snapshot_current_of_getElem? htrack⟩

end Service

end Jukebox
