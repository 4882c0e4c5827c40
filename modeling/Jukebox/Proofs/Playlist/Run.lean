import Jukebox.Playlist.Store
import Jukebox.Proofs.Catalog.Library
import Jukebox.Proofs.Playlist.Basic
import Jukebox.Proofs.Playlist.Expansion
import Jukebox.Proofs.Playlist.Removal

/-!
Runs of actions on named playlists. What holds of every item that is expanded from the catalog, and
goes on to hold when a part of an item is removed, holds of all items of all playlists after any
run. Soundness is such a property.
-/

namespace Jukebox.Playlist

open Result (bind_eq_ok_iff)

/-- An action on the playlist of a name, and the identifier that an item it adds gets. -/
structure Envelope where
  fresh : Uuid
  name : String
  action : Action

namespace Store

/-- The store after a run of actions, whether they succeed or fail. -/
def run (catalog : Catalog) (store : Store) (envelopes : List Envelope) : Store :=
  envelopes.foldl (fun store envelope =>
    (store.apply catalog envelope.fresh envelope.name envelope.action).store) store

/-- Every item of every playlist has a property. -/
def Every (property : Item → Prop) (store : Store) : Prop :=
  ∀ name, ∀ item ∈ (store.playlist name).items, property item

section

variable {property : Item → Prop} {catalog : Catalog} {store : Store}

theorem every_empty : Every property ∅ := by
  intro name item hitem
  simp [Store.playlist] at hitem

theorem playlist_insert (store : Store) (name other : String) (playlist : Playlist) :
    Store.playlist (store.insert name playlist) other =
      if name = other then playlist else store.playlist other := by
  simp only [Store.playlist, Std.ExtTreeMap.getD_insert]
  simp

theorem Every.insert (h : store.Every property) {name : String} {playlist : Playlist}
    (hplaylist : ∀ item ∈ playlist.items, property item) :
    Every property (store.insert name playlist) := by
  intro other item hitem
  rw [playlist_insert] at hitem
  split at hitem
  · exact hplaylist item hitem
  · exact h other item hitem

theorem Every.edit (h : store.Every property) {name : String}
    {change : Playlist → Except Error Playlist}
    (hchange : ∀ changed, change (store.playlist name) = .ok changed →
      ∀ item ∈ changed.items, property item) :
    (store.edit name change).store.Every property := by
  unfold Store.edit
  dsimp only
  cases hresult : change (store.playlist name) with
  | error e => exact h.insert (h name)
  | ok changed => exact h.insert (hchange changed hresult)

theorem Every.editWith (h : store.Every property)
    (hexpand : ∀ id root item, Item.expand catalog id root = .ok item → property item)
    {fresh : Uuid} {name : String} {path : Path} {change : Playlist → Item → Playlist}
    (hchange : ∀ item, ∀ other ∈ (change (store.playlist name) item).items,
      other ∈ (store.playlist name).items ∨ other = item ∧ item.tracks ≠ []) :
    (store.editWith catalog fresh name path change).store.Every property := by
  unfold Store.editWith
  cases hitem : Item.expand catalog fresh path with
  | error e => exact h
  | ok item =>
    refine h.edit fun changed hchanged other hother => ?_
    cases hchanged
    rcases hchange item other hother with hold | ⟨rfl, -⟩
    · exact h name other hold
    · exact hexpand fresh path other hitem

/-- Every action keeps a property of all items that expanded items have and removals keep. -/
theorem Every.apply (h : store.Every property)
    (hexpand : ∀ id root item, Item.expand catalog id root = .ok item → property item)
    (hremove : ∀ item path pruned, property item → item.remove path = .ok pruned → property pruned)
    (fresh : Uuid) (name : String) (action : Action) :
    (store.apply catalog fresh name action).store.Every property := by
  unfold Store.apply
  split
  · exact h
  cases action with
  | fetch => exact h
  | append path => exact h.editWith hexpand fun item other => of_mem_append
  | playNow path => exact h.editWith hexpand fun item other => of_mem_playNow
  | remove index path =>
    refine h.edit fun removed hremoved other hother => ?_
    rcases (of_remove hremoved).2 other hother with hold | ⟨-, item, hitem, hpruned⟩
    · exact h name other hold
    · exact hremove item path other (h name item hitem) hpruned
  | playItem index path =>
    refine h.edit fun played hplayed => ?_
    rw [items_playItem hplayed]
    exact h name
  | next => exact h.edit fun changed hchanged => by cases hchanged; exact h name
  | prev => exact h.edit fun changed hchanged => by cases hchanged; exact h name
  | clear => exact h.edit fun changed hchanged => by cases hchanged; simp [clear]

theorem Every.run (h : store.Every property)
    (hexpand : ∀ id root item, Item.expand catalog id root = .ok item → property item)
    (hremove : ∀ item path pruned, property item → item.remove path = .ok pruned → property pruned)
    (envelopes : List Envelope) : (store.run catalog envelopes).Every property := by
  induction envelopes generalizing store with
  | nil => exact h
  | cons envelope rest ih =>
    exact ih (h.apply hexpand hremove envelope.fresh envelope.name envelope.action)

end

/-- **All items stay sound**: after any run of actions from no playlists, with the catalog of a
library, every item of every playlist is sound. -/
theorem sound_of_run {library : Library} {catalog : Catalog}
    (h : Catalog.ofLibrary library = .ok catalog) (envelopes : List Envelope) (name : String) :
    ∀ item ∈ ((Store.run catalog ∅ envelopes).playlist name).items, item.Sound catalog := by
  have hdistinct := Catalog.keysDistinct_ofLibrary h
  have hevery : Every (Item.Sound catalog) (Store.run catalog ∅ envelopes) :=
    every_empty.run (fun id root item => Item.sound_of_expand hdistinct)
      (fun item path pruned => Item.Sound.remove) envelopes
  exact hevery name

/-- A shelf is added, and the attic is not, because of its empty crate. When the only track of the box
on the shelf is removed, the box goes with it. -/
theorem sound_of_run_house : ∃ catalog, Catalog.ofLibrary .house = .ok catalog ∧
    let store := Store.run catalog ∅ [⟨⟨0⟩, "mix", .append ["shelf"]⟩, ⟨⟨1⟩, "mix", .append ["attic"]⟩,
      ⟨⟨2⟩, "mix", .remove 0 ["shelf", "box", "tape", "0"]⟩, ⟨⟨3⟩, "mix", .next⟩]
    (store.playlist "mix").items.map (·.tracks) = [[["shelf", "disc", "0"], ["shelf", "disc", "1"]]] ∧
    (store.playlist "mix").items.map (·.nodes.keys) = [[["shelf"], ["shelf", "disc"]]] ∧
    ∀ item ∈ (store.playlist "mix").items, item.Sound catalog :=
  ⟨_, rfl, rfl, by decide +kernel, @sound_of_run .house _ rfl _ "mix"⟩

end Store

end Jukebox.Playlist
