import Jukebox.Proofs.Cursor.Placement
import Jukebox.Proofs.Service.Files

/-!
Cursors that follow a playlist. What a playlist plays is a track of the catalog, whatever was added,
moved and removed before, so a cursor that follows it is set to that track, or reset if nothing is
played. It fails only if the track lies outside the anchor.
-/

namespace Jukebox

open Playlist (Item)

namespace Catalog

variable {library : Library} {catalog : Catalog} {path : Path}

/-- A track of the catalog of a library lies below a collection just if its path starts there. -/
theorem isBelow_ofCollection_iff (h : Catalog.ofLibrary library = .ok catalog)
    (htrack : (catalog.track? path).isSome) {key : Key} :
    path.isBelow (Path.ofCollection key) = true ↔ Path.ofCollection key <+: path := by
  rw [Path.isBelow_iff, and_iff_left_iff_imp]
  rintro - hsame
  -- the path of a collection would be that of a track in a group at the empty path
  have hnone : catalog.group? [] = none := by
    refine Option.eq_none_iff_forall_ne_some.2 fun group hgroup => ?_
    obtain ⟨node, hnode, -⟩ := (group?_ofLibrary_eq_some_iff h).1 hgroup
    cases hnode
  obtain ⟨track, htrack⟩ := Option.isSome_iff_exists.1 htrack
  obtain ⟨last, -, htrack⟩ := Option.bind_eq_some_iff.1 htrack
  obtain ⟨index, -, htrack⟩ := Option.bind_eq_some_iff.1 htrack
  obtain ⟨group, hgroup, -⟩ := Option.bind_eq_some_iff.1 htrack
  rw [← hsame, Path.ofCollection, List.dropLast_singleton, hnone] at hgroup
  cases hgroup

end Catalog

namespace Cursor.Store

variable {library : Library} {store : Store} {catalog : Catalog} {anchor : Path} {name : String}

theorem apply_follow_some (track : Path) (played : Option Path) :
    store.apply catalog anchor (some track) name .follow =
      store.apply catalog anchor played name (.set track) := by
  simp [apply, perform, Cursor.set]

theorem apply_follow_none (played : Option Path) :
    store.apply catalog anchor none name .follow = store.apply catalog anchor played name .reset := by
  simp [apply, perform, follow, reset, pure, Except.pure]

/-- Where all stops below the anchor are clear, a cursor that follows is where the playlist is, or it
stays where it was because it has no name or the playlist is not below the anchor. -/
theorem follow_cases (h : Catalog.ofLibrary library = .ok catalog) {key : Key}
    (hclear : ∀ index : Nat, Stop.Clear (library.stops (Path.ofCollection key))[index]?)
    (store : Store) (name : String) {played : Option Path}
    (hplayed : ∀ track, played = some track → (catalog.track? track).isSome) :
    ((name ≠ "" ∧ ∀ track, played = some track → Path.ofCollection key <+: track) ∧
      ∃ snapshot, snapshot.current = played ∧
        store.apply catalog (Path.ofCollection key) played name .follow =
          ⟨store.insert name ⟨played⟩, .ok snapshot, [.cursorChanged name]⟩) ∨
    (¬ (name ≠ "" ∧ ∀ track, played = some track → Path.ofCollection key <+: track) ∧
      ∃ error, error.kind = .unknownEntity ∧
        store.apply catalog (Path.ofCollection key) played name .follow = ⟨store, .error error, []⟩) := by
  by_cases hname : name = ""
  · exact .inr ⟨fun hnamed => hnamed.1 hname, _, rfl, apply_of_name_eq hname⟩
  cases played with
  | none =>
    refine .inl ⟨⟨hname, by simp⟩, ?_⟩
    rw [apply_follow_none none, apply_reset h hname]
    have hfirst := hclear 0
    rw [← List.head?_eq_getElem?] at hfirst
    obtain ⟨previous, next, hplace⟩ := store.place_of_clear name none Stop.clear_none hfirst
    exact ⟨_, rfl, hplace⟩
  | some track =>
    rw [apply_follow_some track none]
    have hbelow : track.isBelow (Path.ofCollection key) = true ↔ Path.ofCollection key <+: track :=
      Catalog.isBelow_ofCollection_iff h (hplayed track rfl)
    cases hensure : catalog.ensureTrack (Path.ofCollection key) track with
    | ok _ =>
      have hunder := hbelow.1 (Catalog.ensureTrack_iff_track?.1 hensure).1
      refine .inl ⟨⟨hname, fun other hother => Option.some.inj hother ▸ hunder⟩, ?_⟩
      have hanchor : Path.ofCollection key ≠ [] := List.cons_ne_nil key []
      obtain ⟨plain, index, -, -, hset⟩ := apply_set h hanchor store none hname hensure
      have hbefore : Stop.Clear
          (if index = 0 then none else (library.stops (Path.ofCollection key))[index - 1]?) :=
        Stop.clear_ite.2 fun _ => hclear (index - 1)
      obtain ⟨previous, next, hplace⟩ :=
        store.place_of_clear name (some track) hbefore (hclear (index + 1))
      exact ⟨_, rfl, hset.trans hplace⟩
    | error error =>
      have hunder : ¬ Path.ofCollection key <+: track := by
        intro hunder
        have hthere := Catalog.ensureTrack_iff_track?.2 ⟨hbelow.2 hunder, hplayed track rfl⟩
        rw [hensure] at hthere
        cases hthere
      refine .inr ⟨fun hnamed => hunder (hnamed.2 track rfl), error, ?_, apply_set_of_error hname hensure⟩
      rcases Catalog.kind_of_ensureTrack_eq_error h hensure with ⟨⟨habove, -⟩, -⟩ | ⟨-, hkind⟩
      · exact absurd (hbelow.1 habove) hunder
      · exact hkind

end Cursor.Store

namespace Service

variable {service : Service} {library : Library} {catalog : Catalog}

/-! ### What playlists play -/

/-- All playlists are valid, and their items are sound. -/
structure Playable (service : Service) : Prop where
  valid : service.playlists.AllValid
  sound : service.playlists.Every (Item.Sound service.catalog)

/-- The operation reads a file. -/
def Operation.Loads : Operation → Prop
  | .load .. => True
  | _ => False

theorem playable_start (catalog : Catalog) (anchor : Key) : (start catalog anchor).Playable :=
  ⟨Playlist.Store.allValid_empty, Playlist.Store.every_empty⟩

theorem Playable.perform (h : service.Playable) (hkeys : service.catalog.KeysDistinct)
    {operation : Operation} (hoperation : ¬ operation.Loads) :
    (service.perform operation).Playable := by
  cases operation with
  | load file source => exact absurd trivial hoperation
  | playlist fresh name action =>
    refine ⟨h.valid.apply, ?_⟩
    exact h.sound.apply (fun id root item => Item.sound_of_expand hkeys)
      (fun item path pruned => Item.Sound.remove) fresh name action
  | cursor name action => exact ⟨h.valid, h.sound⟩
  | setFlag list path value => cases list <;> exact ⟨h.valid, h.sound⟩
  | recordPlay play => exact ⟨h.valid, h.sound⟩

/-- Playlists stay playable as long as none is read from a file. -/
theorem Playable.run (h : service.Playable) (hkeys : service.catalog.KeysDistinct)
    {operations : List Operation} (hoperations : ∀ operation ∈ operations, ¬ operation.Loads) :
    (service.run operations).Playable := by
  induction operations generalizing service with
  | nil => exact h
  | cons operation rest ih =>
    obtain ⟨hoperation, hrest⟩ := List.forall_mem_cons.1 hoperations
    refine ih (h.perform hkeys hoperation) ?_ hrest
    rw [(service.sameSurroundings_perform operation).catalog_eq]
    exact hkeys

/-- A playlist plays nothing, or it has a position and plays a track of the catalog. -/
theorem Playable.plays (h : service.Playable) (name : String) :
    ((service.playlists.playlist name).current = none ∧
      service.playlists.currentPath? name = none) ∨
    ∃ position track, (service.playlists.playlist name).current = some position ∧
      service.playlists.currentPath? name = some track ∧ (service.catalog.track? track).isSome := by
  cases hposition : (service.playlists.playlist name).current with
  | none =>
    refine .inl ⟨rfl, ?_⟩
    simp [Playlist.Store.currentPath?, Playlist.currentPath?, hposition]
  | some position =>
    obtain ⟨item, hitem, hlt⟩ := (h.valid name).current_leads position hposition
    have htrack := List.getElem?_eq_getElem hlt
    have hsound := h.sound name item (List.mem_of_getElem? hitem)
    have hexists := hsound.track_exists _ (List.mem_of_getElem? htrack)
    refine .inr ⟨position, _, rfl, ?_, (Catalog.ensureTrack_iff_track?.1 hexists).2⟩
    simp [Playlist.Store.currentPath?, Playlist.currentPath?, hposition, Playlist.trackAt?, hitem,
      htrack]

theorem Playable.exists_currentPath? (h : service.Playable) {name : String}
    {position : Playlist.Position}
    (hposition : (service.playlists.playlist name).current = some position) :
    ∃ track, service.playlists.currentPath? name = some track ∧
      (service.catalog.track? track).isSome := by
  rcases h.plays name with ⟨hnone, -⟩ | ⟨-, track, -, htrack, hexists⟩
  · rw [hposition] at hnone
    cases hnone
  · exact ⟨track, htrack, hexists⟩

theorem Playable.isSome_track? (h : service.Playable) {name : String} {track : Path}
    (htrack : service.playlists.currentPath? name = some track) :
    (service.catalog.track? track).isSome := by
  rcases h.plays name with ⟨-, hnothing⟩ | ⟨-, found, -, hfound, hexists⟩
  · rw [htrack] at hnothing
    cases hnothing
  · rw [htrack] at hfound
    cases hfound
    exact hexists

/-- What holds of a track that is played holds if nothing is played, or of the one track that is. -/
theorem Playable.forall_currentPath?_iff (h : service.Playable) {name : String} {p : Path → Prop} :
    (∀ track, service.playlists.currentPath? name = some track → p track) ↔
      (service.playlists.playlist name).current = none ∨
        ∃ track, service.playlists.currentPath? name = some track ∧ p track := by
  rcases h.plays name with ⟨hnone, hnothing⟩ | ⟨position, track, hposition, htrack, -⟩
  · simp [hnone, hnothing]
  · simp [hposition, htrack]

/-! ### Exactness -/

/-- **A cursor follows what is played below the anchor.** Take the catalog of a library and an anchor
that does not exist or at and below which no group is empty. After any run of operations from nothing
stored, in which no file is read, a playlist with a position plays a track of the catalog. A cursor
with a name that is told to follow succeeds just if the playlist of its name has no position or plays
a track below the anchor. It then is where the playlist is, at this track or at nothing. If it fails,
then for want of a track below the anchor, and nothing changes. -/
theorem follow_exact (h : Catalog.ofLibrary library = .ok catalog) (key : Key)
    (hanchor : catalog.group? (Path.ofCollection key) = none ∨
      ∀ path, Path.ofCollection key <+: path → ¬ catalog.EmptyGroup path)
    (operations : List Operation) (hoperations : ∀ operation ∈ operations, ¬ operation.Loads)
    (name : String) :
    let service := (start catalog key).run operations
    let played := service.playlists.currentPath? name
    let outcome := service.applyCursor name .follow
    ((∃ snapshot, outcome.answer = .ok snapshot) ↔
      name ≠ "" ∧ ((service.playlists.playlist name).current = none ∨
        ∃ track, played = some track ∧ Path.ofCollection key <+: track)) ∧
    (∀ snapshot, outcome.answer = .ok snapshot → snapshot.current = played ∧
      outcome.store = { service with cursors := service.cursors.insert name ⟨played⟩ }) ∧
    (∀ error, outcome.answer = .error error →
      error.kind = .unknownEntity ∧ outcome.store = service) ∧
    ∀ other position, (service.playlists.playlist other).current = some position →
      ∃ track, service.playlists.currentPath? other = some track ∧ (catalog.track? track).isSome := by
  intro service played outcome
  have hsame : service.SameSurroundings (start catalog key) := sameSurroundings_run _ operations
  have hcatalog : service.catalog = catalog := hsame.catalog_eq
  have hplayable : service.Playable :=
    (playable_start catalog key).run (Catalog.keysDistinct_ofLibrary h) hoperations
  have hclear : ∀ index : Nat, Stop.Clear (library.stops (Path.ofCollection key))[index]? := by
    rcases hanchor with hgroup | hempty
    · rw [Library.stops_eq_nil h hgroup]
      rintro index path ⟨⟩
    · exact Cursor.Store.clear_of_not_emptyGroup h hempty
  let after := service.cursors.apply catalog (Path.ofCollection key) played name .follow
  have houtcome : outcome =
      ⟨{ service with cursors := after.store }, after.answer, after.events⟩ := by
    have hkey : service.anchor = Path.ofCollection key := hsame.anchor_eq
    simp only [after, ← hcatalog, ← hkey]
    rfl
  have hplays : ∀ other position, (service.playlists.playlist other).current = some position →
      ∃ track, service.playlists.currentPath? other = some track ∧ (catalog.track? track).isSome := by
    intro other position hposition
    rw [← hcatalog]
    exact hplayable.exists_currentPath? hposition
  have hplayed : ∀ track, played = some track → (catalog.track? track).isSome := by
    intro track htrack
    rw [← hcatalog]
    exact hplayable.isSome_track? htrack
  rw [houtcome, ← hplayable.forall_currentPath?_iff]
  rcases Cursor.Store.follow_cases h hclear service.cursors name hplayed with
    ⟨hfollowed, snapshot, hcurrent, hafter⟩ | ⟨hfollowed, error, hkind, hafter⟩
  · have hafter : after = _ := hafter
    rw [hafter]
    refine ⟨iff_of_true ⟨snapshot, rfl⟩ hfollowed, ?_, ?_, hplays⟩
    · rintro found ⟨⟩
      exact ⟨hcurrent, rfl⟩
    · rintro error ⟨⟩
  · have hafter : after = _ := hafter
    rw [hafter]
    refine ⟨iff_of_false ?_ hfollowed, ?_, ?_, hplays⟩
    · rintro ⟨snapshot, ⟨⟩⟩
    · rintro snapshot ⟨⟩
    · rintro found ⟨⟩
      exact ⟨hkind, rfl⟩

/-- On the shelf a cursor follows the playlist that plays the fugue there, but not the one that plays a
reel in the attic. -/
theorem follow_exact_shelf : ∃ catalog, Catalog.ofLibrary .house = .ok catalog ∧
    let service := (start catalog "shelf").run [.playlist ⟨0⟩ "den" (.playNow ["shelf", "disc"]),
      .cursor "den" .next, .playlist ⟨1⟩ "den" .next,
      .playlist ⟨2⟩ "loft" (.playNow ["attic", "chest"])]
    service.playlists.currentPath? "den" = some ["shelf", "disc", "1"] ∧
    (∃ snapshot, (service.applyCursor "den" .follow).answer = .ok snapshot) ∧
    ¬ ∃ snapshot, (service.applyCursor "loft" .follow).answer = .ok snapshot := by
  let operations : List Operation := [.playlist ⟨0⟩ "den" (.playNow ["shelf", "disc"]),
    .cursor "den" .next, .playlist ⟨1⟩ "den" .next, .playlist ⟨2⟩ "loft" (.playNow ["attic", "chest"])]
  obtain ⟨catalog, hcatalog, hden, hloft⟩ : ∃ catalog, Catalog.ofLibrary .house = .ok catalog ∧
      ((start catalog "shelf").run operations).playlists.currentPath? "den" =
        some ["shelf", "disc", "1"] ∧
      ((start catalog "shelf").run operations).playlists.currentPath? "loft" =
        some ["attic", "chest", "0"] := ⟨_, rfl, by decide +kernel, by decide +kernel⟩
  obtain ⟨entries, hentries, hfull⟩ : ∃ entries, Library.house.entries = .ok entries ∧
      ∀ entry ∈ entries, ["shelf"] <+: entry.1 → ¬ (entry.2.keys = [] ∧ entry.2.tracks = []) :=
    ⟨_, rfl, by decide⟩
  have hempty : ∀ path, ["shelf"] <+: path → ¬ catalog.EmptyGroup path := by
    rintro path hunder ⟨group, hgroup, hnothing⟩
    rw [Catalog.group?_ofLibrary hcatalog] at hgroup
    exact hfull (path, group) ((Library.mem_entries hentries).2 hgroup) hunder hnothing
  have hoperations : ∀ operation ∈ operations, ¬ operation.Loads := by
    simp [operations, Operation.Loads]
  refine ⟨catalog, hcatalog, hden, ?_, fun hanswer => ?_⟩
  · refine (follow_exact hcatalog "shelf" (.inr hempty) operations hoperations "den").1.2 ?_
    exact ⟨by decide, .inr ⟨_, hden, by decide⟩⟩
  · obtain ⟨-, hnone | ⟨track, htrack, hunder⟩⟩ :=
      (follow_exact hcatalog "shelf" (.inr hempty) operations hoperations "loft").1.1 hanswer
    · have hplayed : ((start catalog "shelf").run operations).playlists.currentPath? "loft" = none := by
        rw [Playlist.Store.currentPath?, Playlist.currentPath?, hnone, Option.bind_none]
      rw [hloft] at hplayed
      cases hplayed
    · rw [hloft] at htrack
      cases htrack
      exact absurd hunder (by decide)

/-- A cursor without a name follows nothing, though the playlist without a name has no position. -/
theorem follow_needs_name :
    ¬ ∀ (library : Library) (catalog : Catalog) (key : Key) (operations : List Operation)
      (name : String), Catalog.ofLibrary library = .ok catalog →
      (catalog.group? (Path.ofCollection key) = none ∨
        ∀ path, Path.ofCollection key <+: path → ¬ catalog.EmptyGroup path) →
      (∀ operation ∈ operations, ¬ operation.Loads) →
      let service := (start catalog key).run operations
      ((∃ snapshot, (service.applyCursor name .follow).answer = .ok snapshot) ↔
        ((service.playlists.playlist name).current = none ∨ ∃ track,
          service.playlists.currentPath? name = some track ∧ Path.ofCollection key <+: track)) := by
  intro h
  obtain ⟨snapshot, hsnapshot⟩ := (h .house _ "cellar" [] "" rfl (.inl rfl) (by simp)).2 (.inl rfl)
  cases hsnapshot

end Service

end Jukebox
