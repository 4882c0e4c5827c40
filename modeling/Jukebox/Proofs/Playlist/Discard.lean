import Jukebox.Proofs.Playlist.Basic
import Jukebox.Proofs.Playlist.Projection

/-!
Removal from a playlist. A removal names an item by its index and a path of the item. It takes out
the item or a part of it, and leaves the other items alone; where it fails, it leaves everything
alone. Nothing has to be known of the catalogs in which the items were expanded: a group may list a
key twice there.
-/

namespace Jukebox.Playlist

open Result (map_eq_ok_iff)

/-- How an item has come about: it was expanded in some catalog, and parts of it were removed since.
-/
inductive Item.Made : Item → Prop
  | expanded {catalog : Catalog} {id : Uuid} {root : Path} {item : Item}
    (hitem : Item.expand catalog id root = .ok item) : Item.Made item
  | pruned {item left : Item} {path : Path} (hmade : Item.Made item)
    (hremove : item.remove path = .ok left) : Item.Made left

theorem Item.Made.grown {item : Item} (h : item.Made) :
    Item.Grown item.root item.nodes item.tracks := by
  induction h with
  | expanded hitem =>
    obtain ⟨nodes, hlevels, rfl⟩ := Item.expand_eq_ok hitem
    exact hlevels.collected.grown
  | pruned _ hremove ih => exact ih.remove hremove

variable {playlist removed : Playlist} {item pruned : Item} {index : Nat} {path : Path}

/-- The items with another one, or none, in the place of the one at an index. -/
def itemsWith (playlist : Playlist) (index : Nat) (kept : Option Item) : List Item :=
  playlist.items.take index ++ kept.toList ++ playlist.items.drop (index + 1)

/-- The item, unless it holds no tracks. -/
def Item.unlessEmpty (item : Item) : Option Item := if item.isEmpty then none else some item

/-! ### Removal from the item at an index -/

theorem itemsWith_none (playlist : Playlist) (index : Nat) :
    playlist.itemsWith index none = playlist.items.eraseIdx index := by
  rw [List.eraseIdx_eq_take_drop_succ]
  simp [itemsWith]

theorem itemsWith_some (h : index < playlist.items.length) (item : Item) :
    playlist.itemsWith index (some item) = playlist.items.set index item := by
  rw [List.set_eq_take_append_cons_drop, if_pos h]
  simp [itemsWith]

theorem remove_of_none (h : playlist.items[index]? = none) :
    playlist.remove index path = .error (.unknownItem index) := by
  simp [remove, h]

theorem remove_root (h : playlist.items[index]? = some item) :
    playlist.remove index item.root = .ok { items := playlist.itemsWith index none } := by
  simp [remove, h, itemsWith_none]

theorem remove_part (h : playlist.items[index]? = some item) (hroot : path ≠ item.root) :
    playlist.remove index path = (item.remove path).map fun pruned =>
      { items := playlist.itemsWith index pruned.unlessEmpty } := by
  obtain ⟨hlt, -⟩ := List.getElem?_eq_some_iff.1 h
  simp only [remove, h, if_neg hroot.symm]
  cases item.remove path with
  | error error => rfl
  | ok pruned =>
    dsimp only [bind, Except.bind, pure, Except.pure, Except.map]
    cases hempty : pruned.isEmpty with
    | true => simp [Item.unlessEmpty, hempty, itemsWith_none]
    | false => simp [Item.unlessEmpty, hempty, itemsWith_some hlt]

/-! ### Removal in place -/

/-- A removal as it goes on in place, with its failure if it fails: the item at the index is removed
from in place before it is known whether it goes. -/
def removeInPlace (playlist : Playlist) (index : Nat) (path : Path) : Playlist × Option Error :=
  match playlist.items[index]? with
  | none => (playlist, some (.unknownItem index))
  | some item =>
    if item.root = path then ({ items := playlist.items.eraseIdx index }, none) else
    match item.removeInPlace path with
    | (left, some error) => ({ playlist with items := playlist.items.set index left }, some error)
    | (left, none) =>
      let items := playlist.items.set index left
      ({ items := if left.isEmpty then items.eraseIdx index else items }, none)

theorem removeInPlace_eq (playlist : Playlist) (index : Nat) (path : Path) :
    playlist.removeInPlace index path =
      match playlist.remove index path with
      | .ok removed => (removed, none)
      | .error error => (playlist, some error) := by
  unfold removeInPlace
  cases hitem : playlist.items[index]? with
  | none => simp [remove_of_none hitem]
  | some item =>
  obtain ⟨hlt, hat⟩ := List.getElem?_eq_some_iff.1 hitem
  by_cases hroot : item.root = path
  · subst hroot
    simp [remove_root hitem, itemsWith_none]
  · rw [remove_part hitem (Ne.symm hroot)]
    simp only [if_neg hroot, Item.removeInPlace_eq]
    cases item.remove path with
    | error error =>
      have hsame : playlist.items.set index item = playlist.items := by
        rw [← hat, List.set_getElem_self]
      simp [Except.map, hsame]
    | ok pruned =>
      cases hempty : pruned.isEmpty with
      | true => simp [Except.map, Item.unlessEmpty, hempty, itemsWith_none, List.eraseIdx_set_eq]
      | false => simp [Except.map, Item.unlessEmpty, hempty, itemsWith_some hlt]

/-! ### What a removal takes out -/

theorem Item.unlessEmpty_eq_none_iff : item.unlessEmpty = none ↔ item.tracks = [] := by
  unfold Item.unlessEmpty Item.isEmpty
  cases item.tracks <;> simp

theorem Item.eq_of_unlessEmpty {left : Item} (h : item.unlessEmpty = some left) : left = item := by
  unfold Item.unlessEmpty at h
  split at h <;> cases h
  rfl

theorem tracks_of_remove_eq_nil_iff (hremove : item.remove path = .ok pruned) :
    pruned.tracks = [] ↔ ∀ track ∈ item.tracks, path <+: track := by
  rw [Item.tracks_of_remove hremove, List.filter_eq_nil_iff]
  simp [Path.isUnder_iff]

theorem exists_remove_iff (hmade : ∀ item ∈ playlist.items, item.Made) :
    (∃ removed, playlist.remove index path = .ok removed) ↔
      ∃ item, playlist.items[index]? = some item ∧ (path = item.root ∨
        path.isBelow item.root = true ∧ (path ∈ item.nodes ∨ path ∈ item.tracks)) := by
  cases hitem : playlist.items[index]? with
  | none => simp [remove_of_none hitem]
  | some item =>
    have hgrown := (hmade item (List.mem_of_getElem? hitem)).grown
    simp only [Option.some.injEq, exists_eq_left']
    by_cases hroot : path = item.root
    · subst hroot
      simp [remove_root hitem]
    · rw [remove_part hitem hroot]
      simp only [map_eq_ok_iff, hroot, false_or, ← hgrown.exists_remove_iff]
      constructor
      · rintro ⟨removed, pruned, hpruned, -⟩
        exact ⟨pruned, hpruned⟩
      · rintro ⟨pruned, hpruned⟩
        exact ⟨_, pruned, hpruned, rfl⟩

/-- A removal that succeeds puts what is left of the item in its place, or nothing. -/
theorem of_remove_eq_ok (h : playlist.remove index path = .ok removed) : removed.current = none ∧
    ∃ item kept, playlist.items[index]? = some item ∧ removed.items = playlist.itemsWith index kept ∧
      (kept = none ↔ path = item.root ∨ ∀ track ∈ item.tracks, path <+: track) ∧
      ∀ left, kept = some left → item.remove path = .ok left := by
  cases hitem : playlist.items[index]? with
  | none =>
    rw [remove_of_none hitem] at h
    cases h
  | some item =>
    by_cases hroot : path = item.root
    · subst hroot
      rw [remove_root hitem] at h
      cases h
      exact ⟨rfl, item, none, rfl, rfl, by simp, by simp⟩
    · rw [remove_part hitem hroot, map_eq_ok_iff] at h
      obtain ⟨pruned, hpruned, rfl⟩ := h
      refine ⟨rfl, item, _, rfl, rfl, ?_, fun left hleft => ?_⟩
      · rw [Item.unlessEmpty_eq_none_iff, tracks_of_remove_eq_nil_iff hpruned]
        simp [hroot]
      · rw [Item.eq_of_unlessEmpty hleft]
        exact hpruned

theorem kind_of_remove_eq_error {error : Error} (h : playlist.remove index path = .error error) :
    error.kind = .unknownEntity := by
  cases hitem : playlist.items[index]? with
  | none =>
    rw [remove_of_none hitem] at h
    cases h
    rfl
  | some item =>
    by_cases hroot : path = item.root
    · subst hroot
      rw [remove_root hitem] at h
      cases h
    · rw [remove_part hitem hroot] at h
      cases hremove : item.remove path with
      | ok pruned =>
        rw [hremove] at h
        cases h
      | error other =>
        rw [hremove] at h
        cases h
        exact Item.kind_of_remove_eq_error hremove

theorem made_of_remove (hmade : ∀ item ∈ playlist.items, item.Made)
    (h : playlist.remove index path = .ok removed) : ∀ item ∈ removed.items, item.Made := by
  intro other hother
  rcases (of_remove h).2 other hother with hold | ⟨-, item, hitem, hremove⟩
  · exact hmade other hold
  · exact .pruned (hmade item hitem) hremove

/-- **A removal touches one item.** Let the items of a playlist be expanded, in whatever catalogs, and
parts of them removed since. A removal succeeds just if there is an item at the index and the path is
its root, or a node or a track of it below the root. Then the items before and after it stay as they
are; the item goes if the path is its root or no track is left, and otherwise stays in its place with
its id, its root and, in their order, the tracks that do not lie at or below the path; and there is no
current track. A removal that fails does so for an unknown item or path, and leaves the playlist as
it was. -/
theorem removal_touches_one_item (hmade : ∀ item ∈ playlist.items, item.Made) (index : Nat)
    (path : Path) :
    ((∃ removed, playlist.remove index path = .ok removed) ↔
      ∃ item, playlist.items[index]? = some item ∧ (path = item.root ∨
        path.isBelow item.root = true ∧ (path ∈ item.nodes ∨ path ∈ item.tracks))) ∧
    (∀ removed, playlist.remove index path = .ok removed →
      playlist.removeInPlace index path = (removed, none) ∧ removed.current = none ∧
      (∀ item ∈ removed.items, item.Made) ∧
      ∃ (item : Item) (kept : Option Item), playlist.items[index]? = some item ∧
        removed.items =
          playlist.items.take index ++ kept.toList ++ playlist.items.drop (index + 1) ∧
        (kept = none ↔ path = item.root ∨ ∀ track ∈ item.tracks, path <+: track) ∧
        ∀ left, kept = some left → item.remove path = .ok left ∧ left.id = item.id ∧
          left.root = item.root ∧ left.tracks = item.tracks.filter fun track => !track.isUnder path) ∧
    ∀ error, playlist.remove index path = .error error →
      error.kind = .unknownEntity ∧ playlist.removeInPlace index path = (playlist, some error) := by
  refine ⟨exists_remove_iff hmade, fun removed hremove => ?_, fun error herror => ?_⟩
  · have hplace : playlist.removeInPlace index path = (removed, none) := by
      rw [removeInPlace_eq, hremove]
    obtain ⟨hcurrent, item, kept, hitem, hitems, hgone, hkept⟩ := of_remove_eq_ok hremove
    refine ⟨hplace, hcurrent, made_of_remove hmade hremove, item, kept, hitem, hitems, hgone,
      fun left hleft => ?_⟩
    have hpruned := hkept left hleft
    obtain ⟨hid, hroot⟩ := Item.id_and_root_of_remove hpruned
    exact ⟨hpruned, hid, hroot, Item.tracks_of_remove hpruned⟩
  · exact ⟨kind_of_remove_eq_error herror, by rw [removeInPlace_eq, herror]⟩

/-- The chest behind a shelf loses its second track. The shelf loses nothing, for the track is not
below it. -/
theorem removal_touches_one_item_chest : ∃ catalog shelf chest removed left error,
    Catalog.ofLibrary .house = .ok catalog ∧ Item.expand catalog ⟨0⟩ ["shelf"] = .ok shelf ∧
    Item.expand catalog ⟨1⟩ ["attic", "chest"] = .ok chest ∧
    (Playlist.mk [shelf, chest] (some ⟨0, 2⟩)).remove 1 ["attic", "chest", "1"] = .ok removed ∧
    removed.items = [shelf, left] ∧ left.id = ⟨1⟩ ∧ left.tracks = [["attic", "chest", "0"]] ∧
    (Playlist.mk [shelf, chest] (some ⟨0, 2⟩)).removeInPlace 0 ["attic", "chest", "1"] =
      (⟨[shelf, chest], some ⟨0, 2⟩⟩, some error) := by
  obtain ⟨catalog, shelf, chest, removed, left, error, hcatalog, hshelf, hchest, hid, htracks,
    hremove, hitems, herror⟩ :
      ∃ catalog shelf chest removed left error, Catalog.ofLibrary .house = .ok catalog ∧
        Item.expand catalog ⟨0⟩ ["shelf"] = .ok shelf ∧
        Item.expand catalog ⟨1⟩ ["attic", "chest"] = .ok chest ∧ chest.id = ⟨1⟩ ∧
        chest.tracks = [["attic", "chest", "0"], ["attic", "chest", "1"]] ∧
        (Playlist.mk [shelf, chest] (some ⟨0, 2⟩)).remove 1 ["attic", "chest", "1"] = .ok removed ∧
        removed.items = [shelf, left] ∧
        (Playlist.mk [shelf, chest] (some ⟨0, 2⟩)).remove 0 ["attic", "chest", "1"] = .error error :=
    ⟨_, _, _, _, _, _, rfl, rfl, rfl, rfl, by decide +kernel, rfl, rfl, rfl⟩
  have hmade : ∀ item ∈ [shelf, chest], item.Made := by
    simp only [List.mem_cons, List.not_mem_nil, or_false]
    rintro item (rfl | rfl)
    · exact .expanded hshelf
    · exact .expanded hchest
  obtain ⟨-, -, -, item, kept, hitem, hparts, -, hkept⟩ :=
    (@removal_touches_one_item ⟨[shelf, chest], some ⟨0, 2⟩⟩ hmade 1 ["attic", "chest", "1"]).2.1
      removed hremove
  obtain rfl : chest = item := Option.some.inj hitem
  have hleft : kept = some left := by
    rw [hitems] at hparts
    cases kept <;> simp at hparts
    rw [hparts]
  obtain ⟨-, hleftId, -, hleftTracks⟩ := hkept left hleft
  refine ⟨catalog, shelf, chest, removed, left, error, hcatalog, hshelf, hchest, hremove, hitems,
    hleftId.trans hid, ?_, ?_⟩
  · rw [hleftTracks, htracks]
    decide +kernel
  · exact ((@removal_touches_one_item ⟨[shelf, chest], some ⟨0, 2⟩⟩ hmade 0
      ["attic", "chest", "1"]).2.2 error herror).2

end Jukebox.Playlist
