import Jukebox.Proofs.Cursor.Run
import Jukebox.Proofs.Playlist.Store
import Jukebox.Proofs.Service.Codec
import Jukebox.Service.Files

/-!
Saved stores are read back as they were. Whatever was loaded and done before, all playlists and
cursors of a service are valid, so that reading them from their documents neither repairs nor
resets anything.
-/

namespace Jukebox

open Json (Decoder)

namespace Service

variable {service : Service} {file : StoreFile} {source : Json.Source}

/-- The service with the store of a file from another service. -/
def withStore (service other : Service) : StoreFile → Service
  | .playlists => { service with playlists := other.playlists }
  | .cursors => { service with cursors := other.cursors }
  | .history => { service with history := other.history }
  | .flags list => service.withFlags list (other.flags list)

/-- The services have the same catalog and the same anchor. -/
structure SameSurroundings (service other : Service) : Prop where
  catalog_eq : service.catalog = other.catalog
  anchor_eq : service.anchor = other.anchor

theorem SameSurroundings.refl (service : Service) : service.SameSurroundings service := ⟨rfl, rfl⟩

theorem SameSurroundings.symm {other : Service} (h : service.SameSurroundings other) :
    other.SameSurroundings service := ⟨h.catalog_eq.symm, h.anchor_eq.symm⟩

theorem SameSurroundings.trans {other third : Service} (h : service.SameSurroundings other)
    (hthird : other.SameSurroundings third) : service.SameSurroundings third :=
  ⟨h.catalog_eq.trans hthird.catalog_eq, h.anchor_eq.trans hthird.anchor_eq⟩

theorem sameSurroundings_withStore (service other : Service) (file : StoreFile) :
    (service.withStore other file).SameSurroundings service := by
  cases file with
  | flags list => cases list <;> exact ⟨rfl, rfl⟩
  | _ => exact ⟨rfl, rfl⟩

/-! ### Storable services -/

/-- **All playlists and cursors are valid**, so that a document keeps them as they are. -/
structure Storable (service : Service) : Prop where
  playlists : service.playlists.AllValid
  cursors : service.cursors.AllValid service.catalog service.anchor

theorem storable_start (catalog : Catalog) (anchor : Path) : Storable { catalog, anchor } :=
  ⟨Playlist.Store.allValid_empty, fun name cursor h => by simp at h⟩

theorem Storable.withFlags (h : service.Storable) (list : FlagList) (flags : Flags) :
    (service.withFlags list flags).Storable := by
  cases list <;> exact ⟨h.playlists, h.cursors⟩

theorem Storable.setFlag (h : service.Storable) (list : FlagList) (path : Path) (value : Bool) :
    (service.setFlag list path value).1.Storable := h.withFlags list _

theorem Storable.recordPlay (h : service.Storable) (play : Play) :
    (service.recordPlay play).1.Storable := ⟨h.playlists, h.cursors⟩

theorem Storable.applyPlaylist (h : service.Storable) (fresh : Uuid) (name : String)
    (action : Playlist.Action) : (service.applyPlaylist fresh name action).store.Storable :=
  ⟨h.playlists.apply, h.cursors⟩

theorem Storable.applyCursor (h : service.Storable) (name : String) (action : Cursor.Action) :
    (service.applyCursor name action).store.Storable :=
  ⟨h.playlists, h.cursors.apply⟩

theorem allValid_of_decoder {depth : Nat} {store : Playlist.Store}
    (h : Playlist.Store.decoder depth source = some store) : store.AllValid := by
  obtain ⟨members, -, h⟩ := Option.bind_eq_some_iff.1 h
  cases h
  exact Playlist.Store.allValid_repaired _

/-- What is loaded is storable, whatever the document holds. -/
theorem Storable.load (h : service.Storable) {loaded : Service}
    (hload : service.load? file source = some loaded) : loaded.Storable := by
  cases file <;> obtain ⟨stored, hread, hloaded⟩ := Option.bind_eq_some_iff.1 hload <;>
    cases hloaded
  case playlists => exact ⟨allValid_of_decoder hread, h.cursors⟩
  case cursors => exact ⟨h.playlists, Cursor.Store.allValid_validated stored _ _⟩
  case history => exact ⟨h.playlists, h.cursors⟩
  case flags list => exact h.withFlags list stored

/-! ### Loading -/

section

variable {other loaded : Service}

theorem withStore_of_load? (h : service.load? file source = some loaded) :
    service.withStore loaded file = loaded := by
  cases file <;> obtain ⟨stored, hread, hloaded⟩ := Option.bind_eq_some_iff.1 h <;> cases hloaded
  case flags list => cases list <;> rfl
  all_goals rfl

/-- What a file holds does not depend on the service that loads it, but for the catalog and the
anchor. -/
theorem load?_of_load? (hother : other.SameSurroundings service)
    (h : service.load? file source = some loaded) :
    other.load? file source = some (other.withStore loaded file) := by
  obtain ⟨hcatalog, hanchor⟩ := hother
  cases file <;> obtain ⟨stored, hread, hloaded⟩ := Option.bind_eq_some_iff.1 h <;> cases hloaded
  case flags list => cases list <;> simp [load?, hread, withStore, withFlags, flags]
  all_goals simp [load?, hread, withStore, hcatalog, hanchor]

theorem Storable.load_document (h : service.Storable) (hother : other.SameSurroundings service)
    (file : StoreFile) :
    other.load? file (.ofJson (service.document file)) = some (other.withStore service file) := by
  obtain ⟨hcatalog, hanchor⟩ := hother
  cases file with
  | playlists =>
    have hmembers := service.playlists.reads_members Json.maxDepth (by decide)
    have hrepaired := h.playlists.repaired
    simp [load?, document, Decoder.run, Playlist.Store.decoder, hmembers, Map.ofList_toList,
      hrepaired, withStore]
  | cursors =>
    have hread := service.cursors.reads.run (by decide)
    have hvalidated := h.cursors.validated
    simp [load?, document, hread, hcatalog, hanchor, hvalidated, withStore]
  | history =>
    have hread := (History.reads service.history).run (by decide)
    simp [load?, document, hread, withStore]
  | flags list =>
    have hread := (Flags.reads (service.flags list)).run (by decide)
    simp [load?, document, hread, withStore]

end

/-! ### Runs -/

/-- What can happen to the stores of a service. -/
inductive Operation where
  | load (file : StoreFile) (source : Json.Source)
  | playlist (fresh : Uuid) (name : String) (action : Playlist.Action)
  | cursor (name : String) (action : Cursor.Action)
  | setFlag (list : FlagList) (path : Path) (value : Bool)
  | recordPlay (play : Play)

/-- The service after an operation, which may fail. A file that is refused is not loaded. -/
def perform (service : Service) : Operation → Service
  | .load file source => (service.load? file source).getD service
  | .playlist fresh name action => (service.applyPlaylist fresh name action).store
  | .cursor name action => (service.applyCursor name action).store
  | .setFlag list path value => (service.setFlag list path value).1
  | .recordPlay play => (service.recordPlay play).1

def run (service : Service) (operations : List Operation) : Service :=
  operations.foldl perform service

theorem Storable.perform (h : service.Storable) (operation : Operation) :
    (service.perform operation).Storable := by
  cases operation with
  | load file source =>
    rw [Service.perform]
    cases hload : service.load? file source with
    | none => exact h
    | some loaded => exact h.load hload
  | playlist fresh name action => exact h.applyPlaylist fresh name action
  | cursor name action => exact h.applyCursor name action
  | setFlag list path value => exact h.setFlag list path value
  | recordPlay play => exact h.recordPlay play

theorem Storable.run (h : service.Storable) (operations : List Operation) :
    (service.run operations).Storable := by
  induction operations generalizing service with
  | nil => exact h
  | cons operation rest ih => exact ih (h.perform operation)

theorem sameSurroundings_perform (service : Service) (operation : Operation) :
    (service.perform operation).SameSurroundings service := by
  cases operation with
  | load file source =>
    rw [perform]
    cases hload : service.load? file source with
    | none => exact .refl service
    | some loaded =>
      rw [Option.getD_some, ← withStore_of_load? hload]
      exact sameSurroundings_withStore service loaded file
  | setFlag list path value => cases list <;> exact ⟨rfl, rfl⟩
  | _ => exact ⟨rfl, rfl⟩

theorem sameSurroundings_run (service : Service) (operations : List Operation) :
    (service.run operations).SameSurroundings service := by
  induction operations generalizing service with
  | nil => exact .refl service
  | cons operation rest ih =>
    exact (ih (service.perform operation)).trans (service.sameSurroundings_perform operation)

/-- **Stores are read back as they were saved.** After any run of operations from a service with
nothing stored, files that are loaded among them, every document is loaded into a new service as
the store it was written for. No playlist that is read needs a repair, and no cursor is reset. So
what a file was loaded as is what it is loaded as when it was saved again. -/
theorem stores_read_back (catalog : Catalog) (anchor : Path) (operations : List Operation) :
    let fresh : Service := { catalog, anchor }
    let service := fresh.run operations
    (∀ file, fresh.load? file (.ofJson (service.document file)) =
      some (fresh.withStore service file)) ∧
    Decoder.run (.members Playlist.decoder) (.ofJson (service.document .playlists)) =
      some service.playlists.toList ∧
    (∀ entry ∈ service.playlists.toList, entry.2.needsRepair = false) ∧
    Decoder.run Cursor.Store.decoder (.ofJson (service.document .cursors)) =
      some service.cursors ∧
    (∀ (name : String) (cursor : Cursor), service.cursors[name]? = some cursor →
      cursor.isValid catalog anchor = true) ∧
    ∀ file source loaded, fresh.load? file source = some loaded →
      fresh.load? file (.ofJson (loaded.document file)) = some loaded := by
  intro fresh service
  have hfresh : fresh.Storable := storable_start catalog anchor
  have hstorable : service.Storable := hfresh.run operations
  have hsame : service.SameSurroundings fresh := fresh.sameSurroundings_run operations
  refine ⟨hstorable.load_document hsame.symm,
    service.playlists.reads_members Json.maxDepth (by decide), ?_,
    service.cursors.reads.run (by decide), ?_, ?_⟩
  · rintro ⟨name, playlist⟩ hentry
    rw [Std.ExtTreeMap.mem_toList_iff_getElem?_eq_some] at hentry
    have hvalid := hstorable.playlists name
    rw [Playlist.Store.playlist_of_getElem? hentry] at hvalid
    have hneeds := not_congr (Playlist.needsRepair_iff_not_valid playlist)
    simpa [hvalid] using hneeds
  · intro name cursor hcursor
    have hvalid := hstorable.cursors name cursor hcursor
    rw [hsame.catalog_eq, hsame.anchor_eq] at hvalid
    exact Cursor.isValid_iff.2 hvalid
  · intro file source loaded hload
    have hloaded := withStore_of_load? hload
    have hsame := fresh.sameSurroundings_withStore loaded file
    rw [hloaded] at hsame
    have hread := (hfresh.load hload).load_document hsame.symm file
    rw [hloaded] at hread
    exact hread

end Service

end Jukebox
