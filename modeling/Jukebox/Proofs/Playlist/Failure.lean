import Jukebox.Playlist.Codec
import Jukebox.Proofs.Playlist.Store

/-!
What an action that fails leaves of the named playlists. Nothing is reported and every playlist is
as it was. But an action that looks for an item stores the playlist of its name first, so that a
name which was not stored before is stored afterwards, with a playlist without items.
-/

namespace Jukebox.Playlist

/-- The action looks for an item by its index, and may not find it. -/
def Action.seeksItem : Action → Bool
  | remove .. | playItem .. => true
  | _ => false

namespace Store

variable {store : Store} {catalog : Catalog} {fresh : Uuid} {name : String} {action : Action}
  {error : Error} {playlist : Playlist}

theorem edit_of_error {change : Playlist → Except Error Playlist}
    (h : (store.edit name change).answer = .error error) :
    (store.edit name change).store = store.insert name (store.playlist name) ∧
      (store.edit name change).events = [] := by
  unfold Store.edit at h ⊢
  dsimp only at h ⊢
  cases hresult : change (store.playlist name) with
  | error e => exact ⟨rfl, rfl⟩
  | ok changed =>
    rw [hresult] at h
    cases h

/-- An edit with a new item fails only if the item cannot be expanded, and changes nothing then. -/
theorem editWith_of_error {path : Path} {change : Playlist → Item → Playlist}
    (h : (store.editWith catalog fresh name path change).answer = .error error) :
    (store.editWith catalog fresh name path change).store = store ∧
      (store.editWith catalog fresh name path change).events = [] := by
  unfold Store.editWith at h ⊢
  cases hitem : Item.expand catalog fresh path with
  | error e => exact ⟨rfl, rfl⟩
  | ok item =>
    rw [hitem] at h
    cases h

/-- **What a failure leaves**: no report, and the store as it was, but for the name that was searched
for an item. -/
theorem apply_of_error (h : (store.apply catalog fresh name action).answer = .error error) :
    (store.apply catalog fresh name action).store =
      (if name ≠ "" ∧ action.seeksItem then store.insert name (store.playlist name) else store) ∧
    (store.apply catalog fresh name action).events = [] := by
  unfold Store.apply at h ⊢
  by_cases hname : name = ""
  · simp [hname]
  have hnonempty : name.isEmpty = false := by simpa using hname
  simp only [hnonempty, Bool.false_eq_true, if_false] at h ⊢
  cases action with
  | fetch => simp [get, hnonempty] at h
  | append path => simpa [Action.seeksItem] using editWith_of_error h
  | playNow path => simpa [Action.seeksItem] using editWith_of_error h
  | remove index path => simpa [Action.seeksItem, hname] using edit_of_error h
  | playItem index path => simpa [Action.seeksItem, hname] using edit_of_error h
  | next | prev | clear => cases h

theorem insert_playlist_of_mem (h : name ∈ store) : store.insert name (store.playlist name) = store := by
  refine Std.ExtTreeMap.ext_getElem? fun other => ?_
  rw [Map.getElem?_insert]
  split
  · rename_i heq
    obtain ⟨playlist, hplaylist⟩ := Map.exists_getElem? h
    rw [playlist_of_getElem? hplaylist, ← heq, hplaylist]
  · rfl

theorem playlist_of_not_mem (h : name ∉ store) : store.playlist name = {} := by
  rw [Store.playlist, Std.ExtTreeMap.getD_eq_getD_getElem?, Std.ExtTreeMap.getElem?_eq_none h]
  rfl

/-- **A failure shows nothing, but may store a name.** An action that fails reports nothing and
leaves every playlist as it was. The store is the same, unless the action looked for an item under a
name that was not stored: then this name is stored, with a playlist without items. -/
theorem failure_keeps_playlists
    (h : (store.apply catalog fresh name action).answer = .error error) :
    let outcome := store.apply catalog fresh name action
    outcome.events = [] ∧ (∀ other, outcome.store.playlist other = store.playlist other) ∧
    outcome.store =
      if name ≠ "" ∧ action.seeksItem ∧ name ∉ store then store.insert name {} else store := by
  intro outcome
  obtain ⟨hstore, hevents⟩ := apply_of_error h
  refine ⟨hevents, playlist_apply hevents, hstore.trans ?_⟩
  by_cases hmem : name ∈ store
  · simp [hmem, insert_playlist_of_mem hmem]
  · simp [hmem, playlist_of_not_mem hmem]

/-- A playlist keeps its item and its position when a track is looked for in vain. -/
theorem failure_keeps_playlists_mix :
    let disc : Item := ⟨⟨0⟩, ["disc"], .ofList [(["disc"], ["0", "1"])], [["disc", "0"], ["disc", "1"]]⟩
    let mix : Playlist := ⟨[disc], some ⟨0, 1⟩⟩
    let store : Store := Std.ExtTreeMap.insert ∅ "mix" mix
    let outcome := store.apply (.ofGroups ∅) ⟨1⟩ "mix" (.playItem 0 ["disc", "2"])
    outcome.answer = .error (.trackNotInItem ["disc", "2"] 0) ∧ outcome.events = [] ∧
    outcome.store = store ∧ outcome.store.playlist "mix" = mix := by
  intro disc mix store outcome
  have hmix : store.playlist "mix" = mix := playlist_of_getElem? (by simp [store])
  have hanswer : outcome.answer = .error (.trackNotInItem ["disc", "2"] 0) := rfl
  obtain ⟨hevents, hkept, hstore⟩ := failure_keeps_playlists hanswer
  exact ⟨hanswer, hevents, hstore.trans (if_neg (by simp [store])), (hkept "mix").trans hmix⟩

/-- An item that is looked for under a new name leaves the name behind, in the store and in what is
saved of it. -/
theorem failure_stores_name : ¬ ∀ (store : Store) (catalog : Catalog) (fresh : Uuid) (name : String)
    (action : Action) (error : Error), (store.apply catalog fresh name action).answer = .error error →
      (store.apply catalog fresh name action).store.toJson = store.toJson := by
  intro h
  have hsame := h ∅ (.ofGroups ∅) ⟨0⟩ "mix" (.remove 0 ["disc"]) (.unknownItem 0) rfl
  have hlength := congrArg List.length (Json.object.inj hsame)
  revert hlength
  decide

end Store

end Jukebox.Playlist
