import Jukebox.Proofs.Service.Files

/-!
Restoring several files. Each file is restored into its own store, whatever the others hold, so that
a restoration succeeds just if that of every single file does, and gives the same stores.
-/

namespace Jukebox

namespace StoreFile

theorem mem_all (file : StoreFile) : file ∈ all := by
  cases file with
  | flags list => cases list <;> decide
  | _ => decide

theorem name_injective : Function.Injective name := by
  have hnames : (all.map name).Nodup := by decide
  intro first second h
  exact List.inj_on_of_nodup_map hnames (mem_all first) (mem_all second) h

end StoreFile

namespace Service

/-- What the store of a file holds. -/
def Content : StoreFile → Type
  | .playlists => Playlist.Store
  | .cursors => Cursor.Store
  | .history => History
  | .flags _ => Flags

/-- The store of a file. -/
def content (service : Service) : (file : StoreFile) → Content file
  | .playlists => service.playlists
  | .cursors => service.cursors
  | .history => service.history
  | .flags list => service.flags list

variable {read : StoreFile → Except Error (Option Json.Source)}
  {service other after restored : Service} {file changed : StoreFile} {files : List StoreFile}

theorem content_withStore_self (service other : Service) (file : StoreFile) :
    (service.withStore other file).content file = other.content file := by
  cases file with
  | flags list => cases list <;> rfl
  | _ => rfl

theorem content_withStore_of_ne (service other : Service) (h : file ≠ changed) :
    (service.withStore other changed).content file = service.content file := by
  cases changed with
  | flags list =>
    cases list <;> cases file with
    | flags list => cases list <;> first | rfl | exact absurd rfl h
    | _ => rfl
  | _ =>
    cases file with
    | flags list => rfl
    | _ => first | rfl | exact absurd rfl h

/-! ### One file -/

/-- A first file that is missing leaves its store as it is; any other one is loaded. -/
theorem restoreFiles_cons_iff : restoreFiles read service (file :: files) = (after, .ok ()) ↔
    (read file = .ok none ∧ restoreFiles read service files = (after, .ok ())) ∨
    ∃ source loaded, read file = .ok (some source) ∧ service.load? file source = some loaded ∧
      restoreFiles read loaded files = (after, .ok ()) := by
  rw [restoreFiles]
  cases hread : read file with
  | error e => simp
  | ok found =>
    cases found with
    | none => simp
    | some source => cases hload : service.load? file source <;> simp [hload]

theorem restoreFiles_singleton : restoreFiles read service [file] = (after, .ok ()) ↔
    (read file = .ok none ∧ service = after) ∨
    ∃ source, read file = .ok (some source) ∧ service.load? file source = some after := by
  rw [restoreFiles_cons_iff]
  simp [restoreFiles]

theorem restoreFiles_cons : restoreFiles read service (file :: files) = (after, .ok ()) ↔
    ∃ middle, restoreFiles read service [file] = (middle, .ok ()) ∧
      restoreFiles read middle files = (after, .ok ()) := by
  rw [restoreFiles_cons_iff]
  constructor
  · rintro (⟨hread, hrest⟩ | ⟨source, loaded, hread, hload, hrest⟩)
    · exact ⟨service, restoreFiles_singleton.2 (.inl ⟨hread, rfl⟩), hrest⟩
    · exact ⟨loaded, restoreFiles_singleton.2 (.inr ⟨source, hread, hload⟩), hrest⟩
  · rintro ⟨middle, hfirst, hrest⟩
    rcases restoreFiles_singleton.1 hfirst with ⟨hread, rfl⟩ | ⟨source, hread, hload⟩
    · exact .inl ⟨hread, hrest⟩
    · exact .inr ⟨source, middle, hread, hload, hrest⟩

theorem restoreFiles_congr {reread : StoreFile → Except Error (Option Json.Source)}
    (h : reread file = read file) (service : Service) :
    restoreFiles reread service [file] = restoreFiles read service [file] := by
  simp [restoreFiles, h]

theorem frame_of_restoreFiles (h : restoreFiles read service [file] = (after, .ok ())) :
    after.SameSurroundings service ∧
      ∀ other, other ≠ file → after.content other = service.content other := by
  rcases restoreFiles_singleton.1 h with ⟨-, rfl⟩ | ⟨source, -, hload⟩
  · exact ⟨.refl service, fun other _ => rfl⟩
  · have hafter := withStore_of_load? hload
    rw [← hafter]
    exact ⟨service.sameSurroundings_withStore after file,
      fun other hne => service.content_withStore_of_ne after hne⟩

/-- A file is restored in the same way wherever its store was the same before. -/
theorem restoreFiles_transport (h : restoreFiles read service [file] = (after, .ok ()))
    (hsame : other.SameSurroundings service)
    (hcontent : other.content file = service.content file) :
    ∃ later, restoreFiles read other [file] = (later, .ok ()) ∧
      later.content file = after.content file := by
  rcases restoreFiles_singleton.1 h with ⟨hread, rfl⟩ | ⟨source, hread, hload⟩
  · exact ⟨other, restoreFiles_singleton.2 (.inl ⟨hread, rfl⟩), hcontent⟩
  · have hother := load?_of_load? hsame hload
    exact ⟨other.withStore after file, restoreFiles_singleton.2 (.inr ⟨source, hread, hother⟩),
      other.content_withStore_self after file⟩

/-! ### All files -/

/-- If a restoration succeeds, so does that of each file by itself. -/
theorem restoreFiles_each (hrestore : restoreFiles read other files = (restored, .ok ()))
    (hsame : other.SameSurroundings service)
    (hcontent : ∀ file ∈ files, other.content file = service.content file) (hnodup : files.Nodup) :
    restored.SameSurroundings service ∧
    (∀ file, file ∉ files → restored.content file = other.content file) ∧
    ∀ file ∈ files, ∃ loaded, restoreFiles read service [file] = (loaded, .ok ()) ∧
      loaded.content file = restored.content file := by
  -- no file is restored twice, so every one finds its store as `service` has it
  induction files generalizing other with
  | nil =>
    cases hrestore
    exact ⟨hsame, fun file _ => rfl, by simp⟩
  | cons first rest ih =>
    obtain ⟨hfirst, hnodup⟩ := List.nodup_cons.1 hnodup
    obtain ⟨middle, hmiddle, hrest⟩ := restoreFiles_cons.1 hrestore
    obtain ⟨hsurroundings, hframe⟩ := frame_of_restoreFiles hmiddle
    have hcontents : ∀ file ∈ rest, middle.content file = service.content file := by
      intro file hfile
      have hne : file ≠ first := fun heq => hfirst (heq ▸ hfile)
      rw [hframe file hne, hcontent file (List.mem_cons_of_mem first hfile)]
    obtain ⟨hrestored, hkept, heach⟩ := ih hrest (hsurroundings.trans hsame) hcontents hnodup
    refine ⟨hrestored, fun file hfile => ?_, fun file hfile => ?_⟩
    · rw [List.mem_cons, not_or] at hfile
      rw [hkept file hfile.2, hframe file hfile.1]
    · rcases List.mem_cons.1 hfile with rfl | hfile
      · obtain ⟨loaded, hloaded, hstored⟩ := restoreFiles_transport hmiddle hsame.symm
          (hcontent file List.mem_cons_self).symm
        exact ⟨loaded, hloaded, by rw [hstored, hkept file hfirst]⟩
      · exact heach file hfile

/-- If each file can be restored by itself, so can all of them, and they hold the same. -/
theorem restoreFiles_all {stored : (file : StoreFile) → Content file}
    (heach : ∀ file ∈ files, ∃ loaded, restoreFiles read service [file] = (loaded, .ok ()) ∧
      loaded.content file = stored file) (hsame : other.SameSurroundings service)
    (hcontent : ∀ file ∈ files, other.content file = service.content file) (hnodup : files.Nodup) :
    ∃ restored, restoreFiles read other files = (restored, .ok ()) ∧
      (∀ file, file ∉ files → restored.content file = other.content file) ∧
      ∀ file ∈ files, restored.content file = stored file := by
  induction files generalizing other with
  | nil => exact ⟨other, rfl, fun file _ => rfl, by simp⟩
  | cons first rest ih =>
    obtain ⟨hfirst, hnodup⟩ := List.nodup_cons.1 hnodup
    obtain ⟨loaded, hloaded, hstored⟩ := heach first List.mem_cons_self
    obtain ⟨middle, hmiddle, hsecond⟩ := restoreFiles_transport hloaded hsame
      (hcontent first List.mem_cons_self)
    obtain ⟨hsurroundings, hframe⟩ := frame_of_restoreFiles hmiddle
    have hcontents : ∀ file ∈ rest, middle.content file = service.content file := by
      intro file hfile
      have hne : file ≠ first := fun heq => hfirst (heq ▸ hfile)
      rw [hframe file hne, hcontent file (List.mem_cons_of_mem first hfile)]
    obtain ⟨restored, hrestore, hkept, hall⟩ :=
      ih (fun file hfile => heach file (List.mem_cons_of_mem first hfile))
        (hsurroundings.trans hsame) hcontents hnodup
    refine ⟨restored, restoreFiles_cons.2 ⟨middle, hmiddle, hrestore⟩, fun file hfile => ?_,
      fun file hfile => ?_⟩
    · rw [List.mem_cons, not_or] at hfile
      rw [hkept file hfile.2, hframe file hfile.1]
    · rcases List.mem_cons.1 hfile with rfl | hfile
      · rw [hkept file hfirst, hsecond, hstored]
      · exact hall file hfile

theorem Storable.restoreFiles (h : service.Storable)
    (hrestore : Service.restoreFiles read service files = (restored, .ok ())) :
    restored.Storable := by
  induction files generalizing service with
  | nil =>
    cases hrestore
    exact h
  | cons first rest ih =>
    obtain ⟨middle, hmiddle, hrest⟩ := restoreFiles_cons.1 hrestore
    refine ih ?_ hrest
    rcases restoreFiles_singleton.1 hmiddle with ⟨-, rfl⟩ | ⟨source, -, hload⟩
    · exact h
    · exact h.load hload

end Service

end Jukebox
