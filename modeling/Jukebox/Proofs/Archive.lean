import Jukebox.Proofs.Service.Flags
import Jukebox.Proofs.Service.Restore
import Jukebox.Proofs.System

/-!
The archive loses nothing. Every change of a store is reported, and as long as a report is waiting
the store is saved later on; so a store with no report waiting is on the disk as it is, and a
service that starts again shows what the old one showed.
-/

namespace Jukebox

namespace Service

variable {service other third : Service} {file : StoreFile} {events : List Event}

/-- The stores of a file hold the same under every name. A playlist without items may be stored or
not. -/
def Alike (service other : Service) : StoreFile → Prop
  | .playlists => ∀ name, service.playlists.playlist name = other.playlists.playlist name
  | file => service.content file = other.content file

theorem alike_of_content (h : service.content file = other.content file) :
    service.Alike other file := by
  cases file with
  | playlists =>
    have hplaylists : service.playlists = other.playlists := h
    intro name
    rw [hplaylists]
  | _ => exact h

theorem Alike.trans (h : service.Alike other file) (hthird : other.Alike third file) :
    service.Alike third file := by
  cases file with
  | playlists => exact fun name => (h name).trans (hthird name)
  | _ => exact Eq.trans h hthird

theorem Alike.symm (h : service.Alike other file) : other.Alike service file := by
  cases file with
  | playlists => exact fun name => (h name).symm
  | _ => exact Eq.symm h

/-- What a user is shown of the store of a file is the same: the answer when any playlist or cursor
is fetched, the flags, and the plays. -/
def Shows (service other : Service) : StoreFile → Prop
  | .playlists => ∀ fresh name, (service.applyPlaylist fresh name .fetch).answer =
      (other.applyPlaylist fresh name .fetch).answer
  | .cursors => ∀ name, (service.applyCursor name .fetch).answer =
      (other.applyCursor name .fetch).answer
  | .history => service.history = other.history
  | .flags list => service.flags list = other.flags list

theorem Alike.shows (h : service.Alike other file) (hsame : service.SameSurroundings other) :
    service.Shows other file := by
  cases file with
  | playlists =>
    intro fresh name
    have hname := h name
    simp only [applyPlaylist, Playlist.Store.apply, Playlist.Store.get, hname]
    split <;> rfl
  | cursors =>
    intro name
    have hcursors : service.cursors = other.cursors := h
    simp [applyCursor, Cursor.Store.apply, hcursors, hsame.catalog_eq, hsame.anchor_eq]
  | _ => exact h

/-! ### Changes -/

/-- **A change is reported.** The catalog and the anchor stay, the service stays storable, and every
store about which nothing is reported is as before. -/
structure Moves (service after : Service) (events : List Event) : Prop where
  surroundings : after.SameSurroundings service
  storable : service.Storable → after.Storable
  reported : ∀ file, (∃ event ∈ events, StoreFile.ofEvent event = file) ∨ after.Alike service file

theorem moves_refl (service : Service) : service.Moves service [] :=
  ⟨.refl service, id, fun _ => .inr (alike_of_content rfl)⟩

theorem content_players (service : Service) (players : Players) (file : StoreFile) :
    ({ service with players } : Service).content file = service.content file := by
  cases file with
  | flags list => cases list <;> rfl
  | _ => rfl

theorem Moves.players (h : service.Moves other events) (players : Players) :
    service.Moves { other with players } events := by
  refine ⟨⟨h.surroundings.catalog_eq, h.surroundings.anchor_eq⟩, fun hstorable => ?_,
    fun file => ?_⟩
  · have hother := h.storable hstorable
    exact ⟨hother.playlists, hother.cursors⟩
  · have hplayers := other.content_players players file
    exact (h.reported file).imp_right (alike_of_content hplayers).trans

theorem moves_applyPlaylist (service : Service) (fresh : Uuid) (name : String)
    (action : Playlist.Action) : service.Moves (service.applyPlaylist fresh name action).store
      (service.applyPlaylist fresh name action).events := by
  refine ⟨⟨rfl, rfl⟩, fun h => h.applyPlaylist fresh name action, fun file => ?_⟩
  cases file with
  | playlists =>
    cases service.playlists.acts_apply service.catalog fresh name action with
    | stays _ hevents => exact .inr (Playlist.Store.playlist_apply hevents)
    | keeps _ hevents => exact .inr (Playlist.Store.playlist_apply hevents)
    | edits edit _ hevents =>
      exact .inl ⟨.playlistChanged name, by simp [applyPlaylist, hevents], rfl⟩
  | flags list => exact .inr (alike_of_content (by cases list <;> rfl))
  | _ => exact .inr (alike_of_content rfl)

theorem moves_applyCursor (service : Service) (name : String) (action : Cursor.Action) :
    service.Moves (service.applyCursor name action).store
      (service.applyCursor name action).events := by
  refine ⟨⟨rfl, rfl⟩, fun h => h.applyCursor name action, fun file => ?_⟩
  cases file with
  | cursors =>
    rcases service.cursors.apply_cases service.catalog service.anchor
      (service.playlists.currentPath? name) name action with
      ⟨error, happly⟩ | ⟨-, -, snapshot, -, happly⟩ | ⟨-, -, moved, snapshot, -, -, happly⟩
    · refine .inr (alike_of_content ?_)
      change (service.cursors.apply _ _ _ _ _).store = service.cursors
      rw [happly]
    · refine .inr (alike_of_content ?_)
      change (service.cursors.apply _ _ _ _ _).store = service.cursors
      rw [happly]
    · refine .inl ⟨.cursorChanged name, ?_, rfl⟩
      simp [applyCursor, happly]
  | flags list => exact .inr (alike_of_content (by cases list <;> rfl))
  | _ => exact .inr (alike_of_content rfl)

theorem moves_setFlag (service : Service) (list : FlagList) (path : Path) (value : Bool) :
    service.Moves (service.setFlag list path value).1 (service.setFlag list path value).2 := by
  refine ⟨by cases list <;> exact ⟨rfl, rfl⟩, fun h => h.setFlag list path value, fun file => ?_⟩
  by_cases hfile : file = .flags list
  · -- nothing is reported of a flag that is set as it was
    subst hfile
    by_cases hcontains : (service.flags list).contains path = value
    · refine .inr (alike_of_content ?_)
      change (service.withFlags list _).flags list = service.flags list
      rw [flags_withFlags, if_pos rfl, Flags.assign_of_contains hcontains]
    · exact .inl ⟨.flagChanged list path value, by simp [setFlag, hcontains], rfl⟩
  · have hstore : service.withStore (service.setFlag list path value).1 (.flags list) =
        (service.setFlag list path value).1 := by cases list <;> rfl
    have hcontent := service.content_withStore_of_ne (service.setFlag list path value).1 hfile
    rw [hstore] at hcontent
    exact .inr (alike_of_content hcontent)

theorem moves_recordPlay (service : Service) (play : Play) :
    service.Moves (service.recordPlay play).1 (service.recordPlay play).2 := by
  refine ⟨⟨rfl, rfl⟩, fun h => h.recordPlay play, fun file => ?_⟩
  cases file with
  | history => exact .inl ⟨.playRecorded play.path play.playedAt, by simp [recordPlay], rfl⟩
  | flags list => exact .inr (alike_of_content (by cases list <;> rfl))
  | _ => exact .inr (alike_of_content rfl)

end Service

namespace Session

variable {session : Session} {service : Service}

theorem moves_handle (session : Session) (service : Service) (circumstances : Circumstances)
    (command : Protocol.Command) :
    service.Moves (session.handle service circumstances command).service
      (session.handle service circumstances command).events := by
  cases command with
  | key key => exact service.moves_refl.players _
  | recordPlay path => exact service.moves_recordPlay ⟨path, circumstances.now⟩
  | setFlag list path value => exact service.moves_setFlag list path value
  | playlist name action => exact service.moves_applyPlaylist circumstances.fresh name action
  | cursor name action => exact service.moves_applyCursor name action
  | forward key action =>
    simp only [handle]
    split <;> exact service.moves_refl
  | _ => exact service.moves_refl

theorem moves_close {after : Service} {events : List Event} (h : service.Moves after events)
    (session : Session) : service.Moves (session.close after) events := by
  unfold close
  split
  · exact h
  · exact h.players _

theorem moves_step (session : Session) (service : Service) (circumstances : Circumstances)
    (inbound : Inbound) :
    service.Moves (session.step service circumstances inbound).service
      (session.step service circumstances inbound).events := by
  cases inbound with
  | failure reason => exact moves_close service.moves_refl session
  | finish => exact moves_close service.moves_refl session
  | text frame =>
    simp only [step]
    cases Protocol.Command.ofText frame with
    | error failure => exact moves_close service.moves_refl session
    | ok command =>
      have hmoves := session.moves_handle service circumstances command
      simp only [settle]
      split
      · exact hmoves
      · split
        · exact hmoves
        · exact moves_close hmoves _
      · exact moves_close hmoves _

end Session

namespace System

variable {read : StoreFile → Except Error (Option Json.Source)} {system : System}
  {fresh : Service} {file : StoreFile}

/-- What reading a file gives: what was saved last, or what the file held before. -/
def disk (system : System) (read : StoreFile → Except Error (Option Json.Source))
    (file : StoreFile) : Except Error (Option Json.Source) :=
  match system.archive.saved file with
  | some document => .ok (some (.ofJson document))
  | none => read file

/-- The names of the files tell them apart, so what is on the disk is told by name. -/
theorem exists_disk_of_name (system : System)
    (read : StoreFile → Except Error (Option Json.Source)) :
    ∃ stored : String → Except Error (Option Json.Source),
      ∀ file : StoreFile, stored file.name = system.disk read file :=
  ⟨Function.extend StoreFile.name (system.disk read) fun _ => .ok none,
    StoreFile.name_injective.extend_apply _ _⟩

/-- The store of a file is on the disk as it is. -/
def Backed (system : System) (read : StoreFile → Except Error (Option Json.Source))
    (fresh : Service) (file : StoreFile) : Prop :=
  ∃ loaded, Service.restoreFiles (system.disk read) fresh [file] = (loaded, .ok ()) ∧
    loaded.Alike system.service file

/-- A report about the store of a file is waiting. -/
def Waits (system : System) (file : StoreFile) : Prop :=
  ∃ event ∈ system.archive.queue, StoreFile.ofEvent event = file

/-- **Every store is on the disk as it is, or a report about it is waiting.** -/
structure Archived (read : StoreFile → Except Error (Option Json.Source)) (fresh : Service)
    (system : System) : Prop where
  surroundings : system.service.SameSurroundings fresh
  storable : system.service.Storable
  backed : ∀ file, system.Waits file ∨ system.Backed read fresh file

/-! ### Steps -/

theorem archived_start {restored : Service} (hfresh : fresh.Storable)
    (h : fresh.restore read = (restored, .ok ())) :
    Archived read fresh { service := restored } := by
  obtain ⟨hsurroundings, -, heach⟩ := Service.restoreFiles_each h (.refl fresh)
    (fun file _ => rfl) (by decide)
  refine ⟨hsurroundings, hfresh.restoreFiles h, fun file => .inr ?_⟩
  obtain ⟨loaded, hloaded, hcontent⟩ := heach file file.mem_all
  exact ⟨loaded, hloaded, Service.alike_of_content hcontent⟩

theorem Archived.of_moves (h : Archived read fresh system) {after : System} {events : List Event}
    (hmoves : system.service.Moves after.service events)
    (hqueue : after.archive.queue = system.archive.queue ++ events)
    (hsaved : after.archive.saved = system.archive.saved) : Archived read fresh after := by
  refine ⟨hmoves.surroundings.trans h.surroundings, hmoves.storable h.storable, fun file => ?_⟩
  rcases h.backed file with ⟨event, hevent, hfile⟩ | ⟨loaded, hloaded, halike⟩
  · exact .inl ⟨event, by rw [hqueue]; exact List.mem_append_left events hevent, hfile⟩
  · rcases hmoves.reported file with ⟨event, hevent, hfile⟩ | hmoved
    · exact .inl ⟨event, by rw [hqueue]; exact List.mem_append_right _ hevent, hfile⟩
    · refine .inr ⟨loaded, ?_, halike.trans hmoved.symm⟩
      have hdisk : after.disk read file = system.disk read file := by rw [disk, disk, hsaved]
      rw [Service.restoreFiles_congr hdisk, hloaded]

theorem Archived.save (h : Archived read fresh system) :
    Archived read fresh (system.step .save) := by
  cases hqueue : system.archive.queue with
  | nil =>
    have hstay : system.step .save = system := by simp [step, Archive.step, hqueue]
    rw [hstay]
    exact h
  | cons event rest =>
    refine ⟨h.surroundings, h.storable, fun file => ?_⟩
    by_cases hfile : file = .ofEvent event
    · -- the store is written as it is now, and so with all changes since the event
      have hdisk : (system.step .save).disk read file =
          .ok (some (.ofJson (system.service.document file))) := by
        simp [disk, step, Archive.step, hqueue, Archive.save, hfile]
      have hload := h.storable.load_document h.surroundings.symm file
      refine .inr ⟨fresh.withStore system.service file, ?_,
        Service.alike_of_content (fresh.content_withStore_self system.service file)⟩
      exact Service.restoreFiles_singleton.2 (.inr ⟨_, hdisk, hload⟩)
    · rcases h.backed file with ⟨other, hother, hofEvent⟩ | ⟨loaded, hloaded, halike⟩
      · rw [hqueue] at hother
        rcases List.mem_cons.1 hother with rfl | hother
        · exact absurd hofEvent.symm hfile
        · exact .inl ⟨other, by simpa [step, Archive.step, hqueue, Archive.save] using hother,
            hofEvent⟩
      · -- the file of another store is not touched
        have hdisk : (system.step .save).disk read file = system.disk read file := by
          simp [disk, step, Archive.step, hqueue, Archive.save, hfile]
        exact .inr ⟨loaded, by rw [Service.restoreFiles_congr hdisk, hloaded], halike⟩

theorem archive_settle (system : System) (connection : Nat) (turn : Session.Turn) :
    (system.settle connection turn).archive = system.archive.notice turn.events := by
  unfold settle
  dsimp only
  split <;> rfl

theorem Archived.step (h : Archived read fresh system) (step : Step) :
    Archived read fresh (system.step step) := by
  cases step with
  | save => exact h.save
  | connect => exact h.of_moves system.service.moves_refl (List.append_nil _).symm rfl
  | mute connection => exact h.of_moves system.service.moves_refl (List.append_nil _).symm rfl
  | receive connection fresh now inbound =>
    cases hsession : system.sessions[connection]? with
    | none =>
      simp only [System.step, hsession]
      exact h
    | some session =>
      have hmoves := session.moves_step system.service (system.circumstances fresh now) inbound
      rw [← service_settle system connection] at hmoves
      rw [step_receive hsession]
      refine h.of_moves hmoves ?_ ?_ <;> rw [archive_settle] <;> rfl

theorem Archived.run (h : Archived read fresh system) (steps : List Step) :
    Archived read fresh (system.run steps) := by
  induction steps generalizing system with
  | nil => exact h
  | cons step rest ih => exact ih (h.step step)

/-- If no report is waiting, all stores can be restored, and they are as they were. -/
theorem Archived.restore (h : Archived read fresh system) (hqueue : system.archive.queue = []) :
    ∃ loaded, fresh.restore (system.disk read) = (loaded, .ok ()) ∧
      ∀ file, loaded.Alike system.service file := by
  have hbacked : ∀ file, system.Backed read fresh file := by
    intro file
    refine (h.backed file).resolve_left ?_
    rintro ⟨event, hevent, -⟩
    rw [hqueue] at hevent
    cases hevent
  choose stored hstored halike using hbacked
  have heach : ∀ file ∈ StoreFile.all,
      ∃ loaded, Service.restoreFiles (system.disk read) fresh [file] = (loaded, .ok ()) ∧
        loaded.content file = (stored file).content file :=
    fun file _ => ⟨stored file, hstored file, rfl⟩
  obtain ⟨loaded, hloaded, -, hcontents⟩ :=
    Service.restoreFiles_all heach (.refl fresh) (fun file _ => rfl) (by decide)
  refine ⟨loaded, hloaded, fun file => ?_⟩
  have hcontent := hcontents file file.mem_all
  exact (Service.alike_of_content hcontent).trans (halike file)

/-- **No update is lost.** Let a service be restored from files, and let commands of any connections
and the steps of the archive follow in any order. At every moment, a store about which no report is
waiting is shown after a new start as it is now: what is on the disk is loaded, and every playlist
and every cursor is fetched with the same answer, with the same flags and the same plays. When
nothing is waiting, a new start loses nothing. -/
theorem no_update_lost (catalog : Catalog) (anchor : Path)
    (read : StoreFile → Except Error (Option Json.Source)) (restored : Service)
    (hrestore : Service.restore { catalog, anchor } read = (restored, .ok ())) (steps : List Step) :
    let fresh : Service := { catalog, anchor }
    let system := System.run { service := restored } steps
    (∀ file, (∀ event ∈ system.archive.queue, StoreFile.ofEvent event ≠ file) →
      ∃ loaded, Service.restoreFiles (system.disk read) fresh [file] = (loaded, .ok ()) ∧
        loaded.Shows system.service file) ∧
    (system.archive.queue = [] → ∃ loaded, fresh.restore (system.disk read) = (loaded, .ok ()) ∧
      ∀ file, loaded.Shows system.service file) := by
  intro fresh system
  have hfresh : fresh.Storable := Service.storable_start catalog anchor
  have h : Archived read fresh system := (archived_start hfresh hrestore).run steps
  constructor
  · intro file hnone
    have hbacked : system.Backed read fresh file := by
      refine (h.backed file).resolve_left ?_
      rintro ⟨event, hevent, hfile⟩
      exact hnone event hevent hfile
    obtain ⟨loaded, hloaded, halike⟩ := hbacked
    obtain ⟨hsame, -⟩ := Service.frame_of_restoreFiles hloaded
    exact ⟨loaded, hloaded, halike.shows (hsame.trans h.surroundings.symm)⟩
  · intro hqueue
    obtain ⟨loaded, hloaded, halike⟩ := h.restore hqueue
    obtain ⟨hsame, -, -⟩ := Service.restoreFiles_each hloaded (.refl fresh) (fun file _ => rfl)
      (by decide)
    exact ⟨loaded, hloaded, fun file => (halike file).shows (hsame.trans h.surroundings.symm)⟩

/-- A favourite is still one after it was saved and the service has started again. -/
theorem no_update_lost_hall :
    let now := ⟨⟨2024, 1, 1⟩, 0, 0, 0, by decide⟩
    let like := "\x7b\"Action\":\"SET_FAVOURITE\",\"Data\":" ++
      "\x7b\"path\":[\"hall\"],\"value\":true\x7d\x7d"
    let read : StoreFile → Except Error (Option Json.Source) := fun _ => .ok none
    let fresh : Service := { catalog := .ofGroups ∅, anchor := ["hall"] }
    let system := System.run { service := fresh }
      [.connect, .receive 0 ⟨0⟩ now (.text like), .save]
    fresh.restore read = (fresh, .ok ()) ∧ system.archive.queue = [] ∧
    ∃ loaded, fresh.restore (system.disk read) = (loaded, .ok ()) ∧
      ["hall"] ∈ loaded.favourites := by
  intro now like read fresh system
  have hrestore : fresh.restore read = (fresh, .ok ()) := rfl
  have hlike : Protocol.Command.ofText like = .ok (.setFlag .favourite ["hall"] true) := by
    simp only [like]
    decide +kernel
  have hqueue : system.archive.queue = [] := by
    simp [system, fresh, System.run, step, settle, report, Session.step, Session.settle,
      Session.handle, hlike, Service.setFlag, Service.flags, Archive.notice, Archive.step,
      Archive.save]
  have hflags : ["hall"] ∈ system.service.favourites := by
    simp [system, fresh, System.run, step, settle, report, Session.step, Session.settle,
      Session.handle, hlike, Service.setFlag, Service.withFlags, Flags.assign]
  obtain ⟨-, hall⟩ := no_update_lost (.ofGroups ∅) ["hall"] read fresh hrestore
    [.connect, .receive 0 ⟨0⟩ now (.text like), .save]
  obtain ⟨loaded, hloaded, hshows⟩ := hall hqueue
  have hfavourites : loaded.favourites = system.service.favourites := hshows (.flags .favourite)
  exact ⟨hrestore, hqueue, loaded, hloaded, hfavourites ▸ hflags⟩

end System

end Jukebox
