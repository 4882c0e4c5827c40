import Jukebox.Cursor.Store
import Jukebox.Playlist.Store
import Jukebox.Proofs.Catalog.Landing

/-!
Runs of actions on named cursors, in any catalog. A cursor that is stored points at nothing or at a
track below the anchor, and the tracks around it can be told, for an action that cannot tell them
fails and leaves all cursors as they were.
-/

namespace Jukebox.Cursor

open Catalog (ensureTrack_of_edge ensureTrack_of_step)
open Result (bind_eq_ok_iff pure_eq_ok_iff)

/-- An action on the cursor of a name, and the playlists that it may follow. -/
structure Envelope where
  playlists : Playlist.Store
  name : String
  action : Action

/-! ### Moves -/

section

variable {catalog : Catalog} {anchor : Path} {cursor moved : Cursor}

/-- The cursor points at nothing or at a track below the anchor. -/
def Valid (cursor : Cursor) (catalog : Catalog) (anchor : Path) : Prop :=
  ∀ track, cursor.current = some track → catalog.ensureTrack anchor track = .ok ()

theorem isValid_iff : cursor.isValid catalog anchor = true ↔ cursor.Valid catalog anchor := by
  obtain ⟨current⟩ := cursor
  cases current with
  | none => simp [isValid, Valid]
  | some track =>
    suffices (catalog.ensureTrack anchor track).isOk = true ↔
        catalog.ensureTrack anchor track = .ok () by simpa [isValid, Valid]
    cases catalog.ensureTrack anchor track <;> simp [Except.isOk, Except.toBool]

theorem valid_empty : Valid {} catalog anchor := by
  rintro track ⟨⟩

theorem ensureTrack_of_following {current : Option Path} {track : Path}
    (h : following catalog anchor current = .ok (some track)) :
    catalog.ensureTrack anchor track = .ok () := by
  cases current with
  | some current => exact ensureTrack_of_step h
  | none =>
    obtain ⟨-, -, h⟩ := bind_eq_ok_iff.1 h
    exact ensureTrack_of_edge (List.prefix_refl anchor) h

theorem ensureTrack_of_preceding {current : Option Path} {track : Path}
    (h : preceding catalog anchor current = .ok (some track)) :
    catalog.ensureTrack anchor track = .ok () := by
  cases current with
  | some current => exact ensureTrack_of_step h
  | none => cases h

theorem set_of_ensureTrack {track : Path} (h : catalog.ensureTrack anchor track = .ok ()) :
    Cursor.set catalog anchor track = .ok ⟨some track⟩ := by
  rw [Cursor.set, follow]
  dsimp only
  rw [h]
  rfl

theorem set_of_ensureTrack_error {track : Path} {error : Error}
    (h : catalog.ensureTrack anchor track = .error error) :
    Cursor.set catalog anchor track = .error error := by
  rw [Cursor.set, follow]
  dsimp only
  rw [h]
  rfl

theorem valid_of_follow {track : Option Path} (h : follow catalog anchor track = .ok moved) :
    moved.Valid catalog anchor := by
  cases track with
  | none =>
    cases h
    exact valid_empty
  | some track =>
    obtain ⟨⟨⟩, hensure, h⟩ := bind_eq_ok_iff.1 h
    cases pure_eq_ok_iff.1 h
    rintro track ⟨⟩
    exact hensure

theorem Valid.perform (hvalid : cursor.Valid catalog anchor) {played : Option Path}
    {action : Action} (h : cursor.perform catalog anchor played action = .ok moved) :
    moved.Valid catalog anchor := by
  cases action with
  | fetch =>
    cases h
    exact hvalid
  | set track =>
    have h : follow catalog anchor (some track) = .ok moved := h
    exact valid_of_follow h
  | next =>
    obtain ⟨track, hfollowing, h⟩ := bind_eq_ok_iff.1 h
    cases pure_eq_ok_iff.1 h
    rintro track rfl
    exact ensureTrack_of_following hfollowing
  | prev =>
    obtain ⟨answer, hpreceding, h⟩ := bind_eq_ok_iff.1 h
    cases answer with
    | none =>
      cases pure_eq_ok_iff.1 h
      exact hvalid
    | some track =>
      cases pure_eq_ok_iff.1 h
      rintro track ⟨⟩
      exact ensureTrack_of_preceding hpreceding
  | reset =>
    cases h
    exact valid_empty
  | follow => exact valid_of_follow h

end

/-! ### Stores -/

namespace Store

/-- What an envelope brings about. -/
def deliver (store : Store) (catalog : Catalog) (anchor : Path) (envelope : Envelope) :
    Outcome Store Snapshot :=
  store.apply catalog anchor (envelope.playlists.currentPath? envelope.name) envelope.name
    envelope.action

/-- The store after a run of actions, whether they succeed or fail. -/
def run (catalog : Catalog) (anchor : Path) (store : Store) (envelopes : List Envelope) : Store :=
  envelopes.foldl (fun store envelope => (store.deliver catalog anchor envelope).store) store

def AllValid (store : Store) (catalog : Catalog) (anchor : Path) : Prop :=
  ∀ (name : String) (cursor : Cursor), store[name]? = some cursor → cursor.Valid catalog anchor

/-- Every stored cursor has a name, is valid, and can be shown. -/
structure Settled (store : Store) (catalog : Catalog) (anchor : Path) : Prop where
  name_ne_empty : ∀ (name : String) (cursor : Cursor), store[name]? = some cursor → name ≠ ""
  valid : store.AllValid catalog anchor
  shown : ∀ (name : String) (cursor : Cursor), store[name]? = some cursor →
    ∃ snapshot, cursor.snapshot catalog anchor name = .ok snapshot

section

variable {store : Store} {catalog : Catalog} {anchor : Path} {played : Option Path} {name : String}
  {action : Action} {envelope : Envelope}

theorem cursor_of_getElem? {cursor : Cursor} (h : store[name]? = some cursor) :
    store.cursor name = cursor := by
  rw [Store.cursor, Std.ExtTreeMap.getD_eq_getD_getElem?, h, Option.getD_some]

theorem settled_empty : Settled ∅ catalog anchor := by
  constructor <;> intro name cursor h <;> simp at h

theorem AllValid.cursor (h : store.AllValid catalog anchor) (name : String) :
    (store.cursor name).Valid catalog anchor := by
  cases hget : store[name]? with
  | some cursor =>
    rw [cursor_of_getElem? hget]
    exact h name cursor hget
  | none =>
    rw [Store.cursor, Std.ExtTreeMap.getD_eq_getD_getElem?, hget]
    exact valid_empty

/-- **An action does one of three things**: it fails and changes nothing, it reads, or it stores a
cursor that it moved and can show. -/
theorem apply_cases (store : Store) (catalog : Catalog) (anchor : Path) (played : Option Path)
    (name : String) (action : Action) :
    (∃ error, store.apply catalog anchor played name action = ⟨store, .error error, []⟩) ∨
    (action = .fetch ∧ name ≠ "" ∧ ∃ snapshot,
      (store.cursor name).snapshot catalog anchor name = .ok snapshot ∧
      store.apply catalog anchor played name action = ⟨store, .ok snapshot, []⟩) ∨
    (action ≠ .fetch ∧ name ≠ "" ∧ ∃ moved snapshot,
      (store.cursor name).perform catalog anchor played action = .ok moved ∧
      moved.snapshot catalog anchor name = .ok snapshot ∧
      store.apply catalog anchor played name action =
        ⟨store.insert name moved, .ok snapshot, [.cursorChanged name]⟩) := by
  by_cases hname : name = ""
  · exact .inl ⟨.emptyCursorName, by simp [apply, hname]⟩
  have hnonempty : name.isEmpty = false := by simpa using hname
  by_cases hfetch : action = .fetch
  · cases hsnapshot : (store.cursor name).snapshot catalog anchor name with
    | error error => exact .inl ⟨error, by simp [apply, get, hnonempty, hfetch, hsnapshot]⟩
    | ok snapshot =>
      exact .inr (.inl ⟨hfetch, hname, snapshot, rfl, by
        simp [apply, get, hnonempty, hfetch, hsnapshot]⟩)
  cases hmoved : (store.cursor name).perform catalog anchor played action with
  | error error =>
    exact .inl ⟨error, by simp [apply, hnonempty, hfetch, hmoved, bind, Except.bind]⟩
  | ok moved =>
    cases hsnapshot : moved.snapshot catalog anchor name with
    | error error =>
      exact .inl ⟨error, by simp [apply, hnonempty, hfetch, hmoved, hsnapshot, bind, Except.bind]⟩
    | ok snapshot =>
      exact .inr (.inr ⟨hfetch, hname, moved, snapshot, rfl, hsnapshot, by
        simp [apply, hnonempty, hfetch, hmoved, hsnapshot, bind, Except.bind, pure, Except.pure]⟩)

theorem deliver_cases (store : Store) (catalog : Catalog) (anchor : Path) (envelope : Envelope) :
    (∃ error, store.deliver catalog anchor envelope = ⟨store, .error error, []⟩) ∨
    (envelope.action = .fetch ∧
      ∃ snapshot, store.deliver catalog anchor envelope = ⟨store, .ok snapshot, []⟩) ∨
    (envelope.action ≠ .fetch ∧ ∃ moved snapshot, store.deliver catalog anchor envelope =
      ⟨store.insert envelope.name moved, .ok snapshot, [.cursorChanged envelope.name]⟩) := by
  rcases store.apply_cases catalog anchor (envelope.playlists.currentPath? envelope.name)
    envelope.name envelope.action with
    ⟨error, happly⟩ | ⟨hfetch, -, snapshot, -, happly⟩ | ⟨hfetch, -, moved, snapshot, -, -, happly⟩
  · exact .inl ⟨error, happly⟩
  · exact .inr (.inl ⟨hfetch, snapshot, happly⟩)
  · exact .inr (.inr ⟨hfetch, moved, snapshot, happly⟩)

theorem AllValid.insert (h : store.AllValid catalog anchor) {cursor : Cursor}
    (hvalid : cursor.Valid catalog anchor) :
    AllValid (store.insert name cursor) catalog anchor := by
  intro other found hfound
  rw [Map.getElem?_insert] at hfound
  split at hfound
  · cases hfound
    exact hvalid
  · exact h other found hfound

theorem AllValid.apply (h : store.AllValid catalog anchor) :
    AllValid (store.apply catalog anchor played name action).store catalog anchor := by
  rcases store.apply_cases catalog anchor played name action with
    ⟨error, happly⟩ | ⟨-, -, snapshot, -, happly⟩ |
    ⟨-, hname, moved, snapshot, hmoved, hsnapshot, happly⟩ <;> rw [happly]
  · exact h
  · exact h
  · exact h.insert ((h.cursor name).perform hmoved)

/-- Cursors that are not valid are reset on reading, and no others. -/
theorem allValid_validated (store : Store) (catalog : Catalog) (anchor : Path) :
    AllValid (store.validated catalog anchor) catalog anchor := by
  intro name cursor h
  rw [Store.validated, Std.ExtTreeMap.getElem?_map, Option.map_eq_some_iff] at h
  obtain ⟨read, -, rfl⟩ := h
  split
  · rename_i hvalid
    exact isValid_iff.1 hvalid
  · exact valid_empty

theorem AllValid.validated (h : store.AllValid catalog anchor) :
    store.validated catalog anchor = store := by
  refine Map.map_eq_self fun name cursor hcursor => ?_
  have hvalid := isValid_iff.2 (h name cursor hcursor)
  simp [hvalid]

theorem Settled.insert (h : store.Settled catalog anchor) (hname : name ≠ "") {cursor : Cursor}
    (hvalid : cursor.Valid catalog anchor) {snapshot : Snapshot}
    (hshown : cursor.snapshot catalog anchor name = .ok snapshot) :
    Settled (store.insert name cursor) catalog anchor := by
  refine ⟨?_, h.valid.insert hvalid, ?_⟩ <;> intro other found hfound <;>
    rw [Map.getElem?_insert] at hfound <;> split at hfound
  · rename_i heq
    exact heq ▸ hname
  · exact h.name_ne_empty other found hfound
  · rename_i heq
    cases hfound
    exact ⟨snapshot, heq ▸ hshown⟩
  · exact h.shown other found hfound

theorem Settled.apply (h : store.Settled catalog anchor) :
    Settled (store.apply catalog anchor played name action).store catalog anchor := by
  rcases store.apply_cases catalog anchor played name action with
    ⟨error, happly⟩ | ⟨-, -, snapshot, -, happly⟩ |
    ⟨-, hname, moved, snapshot, hmoved, hsnapshot, happly⟩ <;> rw [happly]
  · exact h
  · exact h
  · exact h.insert hname ((h.valid.cursor name).perform hmoved) hsnapshot

theorem Settled.run (h : store.Settled catalog anchor) (envelopes : List Envelope) :
    Settled (store.run catalog anchor envelopes) catalog anchor := by
  induction envelopes generalizing store with
  | nil => exact h
  | cons envelope rest ih => exact ih h.apply

theorem mem_deliver_of_mem (h : name ∈ store) :
    name ∈ (store.deliver catalog anchor envelope).store := by
  rcases store.deliver_cases catalog anchor envelope with
    ⟨error, hdeliver⟩ | ⟨-, snapshot, hdeliver⟩ | ⟨-, moved, snapshot, hdeliver⟩ <;> rw [hdeliver]
  · exact h
  · exact h
  · exact Std.ExtTreeMap.mem_insert.2 (.inr h)

theorem mem_run (h : name ∈ store) (envelopes : List Envelope) :
    name ∈ store.run catalog anchor envelopes := by
  induction envelopes generalizing store with
  | nil => exact h
  | cons envelope rest ih => exact ih (mem_deliver_of_mem h)

theorem Settled.fetch (h : store.Settled catalog anchor) (hmem : name ∈ store) :
    ∃ snapshot, (store.apply catalog anchor played name .fetch).answer = .ok snapshot := by
  obtain ⟨cursor, hcursor⟩ := Map.exists_getElem? hmem
  obtain ⟨snapshot, hsnapshot⟩ := h.shown name cursor hcursor
  have hname : name.isEmpty = false := by simpa using h.name_ne_empty name cursor hcursor
  exact ⟨snapshot, by simp [Store.apply, get, hname, cursor_of_getElem? hcursor, hsnapshot]⟩

theorem mem_deliver {snapshot : Snapshot} (haction : envelope.action ≠ .fetch)
    (h : (store.deliver catalog anchor envelope).answer = .ok snapshot) :
    envelope.name ∈ (store.deliver catalog anchor envelope).store := by
  rcases store.deliver_cases catalog anchor envelope with
    ⟨error, hdeliver⟩ | ⟨hfetch, -⟩ | ⟨-, moved, found, hdeliver⟩
  · rw [hdeliver] at h
    cases h
  · exact absurd hfetch haction
  · rw [hdeliver]
    exact Std.ExtTreeMap.mem_insert_self

theorem deliver_of_error {error : Error}
    (h : (store.deliver catalog anchor envelope).answer = .error error) :
    (store.deliver catalog anchor envelope).store = store ∧
      (store.deliver catalog anchor envelope).events = [] := by
  rcases store.deliver_cases catalog anchor envelope with
    ⟨error, hdeliver⟩ | ⟨-, snapshot, hdeliver⟩ | ⟨-, moved, snapshot, hdeliver⟩ <;>
    rw [hdeliver] at h ⊢
  · exact ⟨rfl, rfl⟩
  · cases h
  · cases h

end

/-- **Cursors stay settled**, whatever the catalog is like. After any run of actions from no
cursors, every stored cursor points at nothing or at a track below the anchor, and a name under
which an action stored a cursor can be fetched ever after. An action that fails leaves all cursors
as they were and reports no change. -/
theorem cursors_settled (catalog : Catalog) (anchor : Path) (envelopes : List Envelope) :
    let store := Store.run catalog anchor ∅ envelopes
    (∀ (name : String) (cursor : Cursor), store[name]? = some cursor → cursor.current = none ∨
      ∃ track, cursor.current = some track ∧ catalog.ensureTrack anchor track = .ok ()) ∧
    (∀ before envelope after snapshot, envelopes = before ++ envelope :: after →
      envelope.action ≠ .fetch →
      ((Store.run catalog anchor ∅ before).deliver catalog anchor envelope).answer = .ok snapshot →
      ∀ playlists, ∃ shown,
        (store.deliver catalog anchor ⟨playlists, envelope.name, .fetch⟩).answer = .ok shown) ∧
    ∀ (before : Store) (envelope : Envelope) (error : Error),
      (before.deliver catalog anchor envelope).answer = .error error →
      (before.deliver catalog anchor envelope).store = before ∧
        (before.deliver catalog anchor envelope).events = [] := by
  intro store
  have hsettled : store.Settled catalog anchor := settled_empty.run envelopes
  refine ⟨fun name cursor hcursor => ?_, ?_, fun before envelope error => deliver_of_error⟩
  · have hvalid := hsettled.valid name cursor hcursor
    cases hcurrent : cursor.current with
    | none => exact .inl rfl
    | some track => exact .inr ⟨track, rfl, hvalid track hcurrent⟩
  · rintro before envelope after snapshot rfl haction hanswer playlists
    refine hsettled.fetch ?_
    -- the name is stored when the action ends, and no later one takes a name away
    have hrun : store = Store.run catalog anchor
        ((Store.run catalog anchor ∅ before).deliver catalog anchor envelope).store after := by
      simp [store, Store.run, List.foldl_append]
    rw [hrun]
    exact mem_run (mem_deliver haction hanswer) after

end Store

end Jukebox.Cursor
