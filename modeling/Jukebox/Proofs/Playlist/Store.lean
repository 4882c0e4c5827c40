import Jukebox.Proofs.Playlist.Run
import Jukebox.Proofs.Playlist.Validity

/-!
What an action does to the named playlists. One that is reported edits the playlist of its name; one
that is not reported leaves every playlist as it was, though an edit that fails stores a new name.
-/

namespace Jukebox.Playlist.Store

variable {store : Store} {catalog : Catalog} {fresh : Uuid} {name : String} {action : Action}

/-- What an action on the playlist of a name does to the playlists. -/
inductive Acts (store : Store) (name : String) (outcome : Outcome Store Snapshot) : Prop
  /-- Nothing, for it reads or fails. -/
  | stays (hstore : outcome.store = store) (hevents : outcome.events = [])
  /-- An edit fails and leaves the playlist as it was, but stored. -/
  | keeps (hstore : outcome.store = store.insert name (store.playlist name))
    (hevents : outcome.events = [])
  /-- The playlist is edited. -/
  | edits (edit : Edit) (hstore : outcome.store = store.insert name
    ((store.playlist name).perform edit)) (hevents : outcome.events = [.playlistChanged name])

theorem acts_edit {change : Playlist → Except Error Playlist} (edit : Edit)
    (hchange : ∀ changed, change (store.playlist name) = .ok changed →
      (store.playlist name).perform edit = changed) : store.Acts name (store.edit name change) := by
  unfold Store.edit
  dsimp only
  cases hresult : change (store.playlist name) with
  | error e => exact .keeps rfl rfl
  | ok changed => exact .edits edit (by rw [hchange changed hresult]) rfl

theorem acts_editWith {path : Path} {change : Playlist → Item → Playlist} (edit : Item → Edit)
    (hchange : ∀ item, (store.playlist name).perform (edit item) =
      change (store.playlist name) item) :
    store.Acts name (store.editWith catalog fresh name path change) := by
  unfold Store.editWith
  cases Item.expand catalog fresh path with
  | error e => exact .stays rfl rfl
  | ok item =>
    refine acts_edit (edit item) fun changed hchanged => ?_
    cases hchanged
    exact hchange item

/-- Every action stays, keeps or edits. -/
theorem acts_apply (store : Store) (catalog : Catalog) (fresh : Uuid) (name : String)
    (action : Action) : store.Acts name (store.apply catalog fresh name action) := by
  unfold Store.apply
  split
  · exact .stays rfl rfl
  cases action with
  | fetch => exact .stays rfl rfl
  | append path => exact acts_editWith .append fun item => rfl
  | playNow path => exact acts_editWith .playNow fun item => rfl
  | remove index path =>
    refine acts_edit (.remove index path) fun changed hchanged => ?_
    simp [perform, hchanged, Except.toOption]
  | playItem index path =>
    refine acts_edit (.playItem index path) fun changed hchanged => ?_
    simp [perform, hchanged, Except.toOption]
  | next => exact acts_edit .next fun changed hchanged => by cases hchanged; rfl
  | prev => exact acts_edit .prev fun changed hchanged => by cases hchanged; rfl
  | clear => exact acts_edit .clear fun changed hchanged => by cases hchanged; rfl

theorem playlist_apply (h : (store.apply catalog fresh name action).events = []) (other : String) :
    (store.apply catalog fresh name action).store.playlist other = store.playlist other := by
  cases store.acts_apply catalog fresh name action with
  | stays hstore => rw [hstore]
  | keeps hstore =>
    rw [hstore, playlist_insert]
    split
    · rename_i heq
      rw [heq]
    · rfl
  | edits edit _ hevents =>
    rw [hevents] at h
    cases h

/-! ### Valid playlists -/

def AllValid (store : Store) : Prop := ∀ name, (store.playlist name).Valid

theorem allValid_empty : AllValid ∅ := fun name => valid_of_items (by simp)

theorem AllValid.insert (h : store.AllValid) {playlist : Playlist} (hplaylist : playlist.Valid) :
    AllValid (store.insert name playlist) := by
  intro other
  rw [playlist_insert]
  split
  · exact hplaylist
  · exact h other

theorem AllValid.apply (h : store.AllValid) :
    (store.apply catalog fresh name action).store.AllValid := by
  cases store.acts_apply catalog fresh name action with
  | stays hstore =>
    rw [hstore]
    exact h
  | keeps hstore =>
    rw [hstore]
    exact h.insert (h name)
  | edits edit hstore =>
    rw [hstore]
    exact h.insert (valid_perform (h name) edit)

theorem playlist_of_getElem? {playlist : Playlist} (h : store[name]? = some playlist) :
    store.playlist name = playlist := by
  rw [Store.playlist, Std.ExtTreeMap.getD_eq_getD_getElem?, h, Option.getD_some]

/-- Repaired playlists are valid, and valid ones are not changed by a repair. -/
theorem allValid_repaired (store : Store) : store.repaired.AllValid := by
  intro name
  rw [Store.playlist, Std.ExtTreeMap.getD_eq_getD_getElem?, Store.repaired,
    Std.ExtTreeMap.getElem?_map]
  cases store[name]? with
  | none => exact valid_of_items (by simp)
  | some playlist => exact valid_repair playlist

theorem AllValid.repaired (h : store.AllValid) : store.repaired = store := by
  refine Map.map_eq_self fun name playlist hplaylist => ?_
  have hvalid := h name
  rw [playlist_of_getElem? hplaylist] at hvalid
  exact repair_of_valid hvalid

end Jukebox.Playlist.Store
