import Jukebox.Proofs.Catalog.Tracks
import Jukebox.Proofs.Cursor.Run
import Jukebox.Proofs.Dial

/-!
A named cursor as a dial. The cursor keeps the path of a track and finds its place again by a walk
at every action. Where no group at or below the anchor is empty, this comes to the same as a dial
that is turned over the row of the tracks.
-/

namespace Jukebox.Cursor

open Catalog (Stocked lookup_eq_ok_iff)

/-- A cursor and a dial over a row of tracks point alike: at nothing, or at the track of an index. -/
inductive Points (tracks : List Path) : Option Path → Dial → Prop
  | nothing : Points tracks none none
  | track {path : Path} {index : Nat} (h : path.indexIn? tracks = some index) :
      Points tracks (some path) (some index)

/-- The dial turned to the track that a path leads to, if there is one. -/
def turnTo? (tracks : List Path) (path : Path) : Option Dial := (path.indexIn? tracks).map some

/-- The dial after an action, unless that asks for a path that leads to no track. -/
def turn? (tracks : List Path) (dial : Dial) (played : Option Path) : Action → Option Dial
  | .fetch => some dial
  | .set path => turnTo? tracks path
  | .next => some (dial.next tracks.length)
  | .prev => some dial.prev
  | .reset => some none
  | .follow => played.elim (some none) (turnTo? tracks)

/-- The path whose track an action asks for. -/
def Action.target? (played : Option Path) : Action → Option Path
  | set path => some path
  | follow => played
  | _ => none

/-- The dial after a run of actions. One that fails leaves it where it is. -/
def turns (tracks : List Path) (dial : Dial) (envelopes : List Envelope) : Dial :=
  envelopes.foldl (fun dial envelope =>
    (turn? tracks dial (envelope.playlists.currentPath? envelope.name) envelope.action).getD dial) dial

/-- A cursor as it is shown, with the tracks that stand next to its dial. -/
def shown (tracks : List Path) (name : String) (current : Option Path) (dial : Dial) : Snapshot where
  name := name
  current := current
  previous := dial.before?.bind (tracks[·]?)
  next := (dial.next tracks.length).bind (tracks[·]?)

variable {library : Library} {catalog : Catalog} {anchor : Path} {cursor moved : Cursor}
  {current played : Option Path} {dial turned : Dial} {action : Action} {name : String}

section

variable (h : catalog.Stocked library anchor)
include h

/-! ### Where a cursor points -/

theorem Points.inRow (hpoints : Points (library.tracks anchor) current dial) :
    dial.InRow (library.tracks anchor).length := by
  cases hpoints with
  | nothing => exact Dial.inRow_none
  | @track path index hindex =>
    obtain ⟨plain, -, hhere⟩ := h.indexIn?_eq_some_iff.1 hindex
    exact Dial.inRow_some.2 (List.getElem?_eq_some_iff.1 hhere).1

theorem points_of_inRow (hrow : dial.InRow (library.tracks anchor).length) :
    Points (library.tracks anchor) (dial.bind ((library.tracks anchor)[·]?)) dial := by
  cases dial with
  | none => exact .nothing
  | some index =>
    have hhere := List.getElem?_eq_getElem (Dial.inRow_some.1 hrow)
    rw [Option.bind_some, hhere]
    exact .track (h.indexIn?_of_getElem? hhere)

theorem valid_iff_points :
    cursor.Valid catalog anchor ↔ ∃ dial, Points (library.tracks anchor) cursor.current dial := by
  obtain ⟨current⟩ := cursor
  cases current with
  | none => exact iff_of_true valid_empty ⟨none, .nothing⟩
  | some path =>
    constructor
    · intro hvalid
      obtain ⟨index, hindex⟩ := h.ensureTrack_iff.1 (hvalid path rfl)
      exact ⟨some index, .track hindex⟩
    · rintro ⟨dial, _ | hindex⟩ track ⟨⟩
      exact h.ensureTrack_of_indexIn? hindex

/-! ### Tracks around a cursor -/

theorem following_eq (hpoints : Points (library.tracks anchor) current dial) :
    following catalog anchor current =
      .ok ((dial.next (library.tracks anchor).length).bind ((library.tracks anchor)[·]?)) := by
  cases hpoints with
  | nothing =>
    obtain ⟨group, hgroup⟩ := h.exists_group
    have hlookup := lookup_eq_ok_iff.2 hgroup
    rw [Dial.bind_next_none, ← h.firstTrack_eq]
    simp [following, hlookup, discard, Functor.discard, Functor.mapConst, Except.map, bind, Except.bind]
  | @track path index hindex =>
    rw [Dial.bind_next_some]
    exact (h.steps_of_indexIn? hindex).1

theorem preceding_eq (hpoints : Points (library.tracks anchor) current dial) :
    preceding catalog anchor current = .ok (dial.before?.bind ((library.tracks anchor)[·]?)) := by
  cases hpoints with
  | nothing => rfl
  | @track path index hindex =>
    rw [Dial.bind_before?_some]
    exact (h.steps_of_indexIn? hindex).2

/-- What is shown of a cursor is what stands around its dial. -/
theorem snapshot_eq (hpoints : Points (library.tracks anchor) cursor.current dial) (name : String) :
    cursor.snapshot catalog anchor name =
      .ok (shown (library.tracks anchor) name cursor.current dial) := by
  have hpreceding := preceding_eq h hpoints
  obtain ⟨current⟩ := cursor
  cases hpoints with
  | nothing =>
    obtain ⟨group, hgroup⟩ := h.exists_group
    simp [snapshot, shown, hgroup, h.firstTrack_eq, hpreceding, Dial.bind_next_none, bind, Except.bind,
      pure, Except.pure]
  | @track path index hindex =>
    have hnext := (h.steps_of_indexIn? hindex).1
    simp [snapshot, shown, hnext, hpreceding, Dial.bind_next_some, bind, Except.bind, pure, Except.pure]

/-! ### Moves -/

theorem next_eq (hpoints : Points (library.tracks anchor) cursor.current dial) :
    cursor.next catalog anchor =
      .ok ⟨(dial.next (library.tracks anchor).length).bind ((library.tracks anchor)[·]?)⟩ := by
  rw [next, following_eq h hpoints]
  rfl

/-- A move back turns the dial backward. At the first track, or at nothing, the cursor stays. -/
theorem points_prev (hpoints : Points (library.tracks anchor) cursor.current dial) :
    ∃ moved, cursor.prev catalog anchor = .ok moved ∧
      Points (library.tracks anchor) moved.current dial.prev := by
  rw [prev, preceding_eq h hpoints, Dial.prev]
  have hrow := (hpoints.inRow h).before?
  cases hdial : dial.before? with
  | none => exact ⟨cursor, rfl, hpoints⟩
  | some index =>
    have hhere := List.getElem?_eq_getElem (hrow index hdial)
    rw [Option.bind_some, hhere]
    exact ⟨_, rfl, .track (h.indexIn?_of_getElem? hhere)⟩

theorem follow_of_turnTo? {path : Path} (hturn : turnTo? (library.tracks anchor) path = some turned) :
    follow catalog anchor (some path) = .ok ⟨some path⟩ ∧
      Points (library.tracks anchor) (some path) turned := by
  obtain ⟨index, hindex, rfl⟩ := Option.map_eq_some_iff.1 hturn
  refine ⟨?_, .track hindex⟩
  rw [follow, h.ensureTrack_of_indexIn? hindex]
  rfl

theorem follow_of_turnTo?_eq_none {path : Path}
    (hturn : turnTo? (library.tracks anchor) path = none) :
    ∃ error, follow catalog anchor (some path) = .error error := by
  have hindex := Option.map_eq_none_iff.1 hturn
  cases hensure : catalog.ensureTrack anchor path with
  | error error => exact ⟨error, by simp [follow, hensure, bind, Except.bind]⟩
  | ok _ =>
    obtain ⟨index, hfound⟩ := h.ensureTrack_iff.1 hensure
    rw [hindex] at hfound
    cases hfound

theorem perform_of_turn? (hpoints : Points (library.tracks anchor) cursor.current dial)
    (hturn : turn? (library.tracks anchor) dial played action = some turned) :
    ∃ moved, cursor.perform catalog anchor played action = .ok moved ∧
      Points (library.tracks anchor) moved.current turned := by
  cases action with
  | fetch =>
    cases hturn
    exact ⟨cursor, rfl, hpoints⟩
  | set path =>
    obtain ⟨hfollow, hthere⟩ := follow_of_turnTo? h hturn
    exact ⟨_, hfollow, hthere⟩
  | next =>
    cases hturn
    exact ⟨_, next_eq h hpoints, points_of_inRow h (Dial.inRow_next dial _)⟩
  | prev =>
    cases hturn
    exact points_prev h hpoints
  | reset =>
    cases hturn
    exact ⟨reset, rfl, .nothing⟩
  | follow =>
    cases played with
    | none =>
      cases hturn
      exact ⟨⟨none⟩, rfl, .nothing⟩
    | some path =>
      obtain ⟨hfollow, hthere⟩ := follow_of_turnTo? h hturn
      exact ⟨_, hfollow, hthere⟩

theorem turn?_eq_none_iff : turn? (library.tracks anchor) dial played action = none ↔
    ∃ path, action.target? played = some path ∧
      ¬ (path.isBelow anchor = true ∧ (catalog.track? path).isSome) := by
  have hpath : ∀ path, turnTo? (library.tracks anchor) path = none ↔
      ¬ (path.isBelow anchor = true ∧ (catalog.track? path).isSome) := by
    intro path
    rw [← Catalog.ensureTrack_iff_track?, h.ensureTrack_iff, turnTo?, Option.map_eq_none_iff,
      Option.eq_none_iff_forall_ne_some, not_exists]
  cases action with
  | fetch | next | prev | reset => simp [turn?, Action.target?]
  | set path => simp [turn?, Action.target?, hpath]
  | follow => cases played <;> simp [turn?, Action.target?, hpath]

theorem perform_of_turn?_eq_none (cursor : Cursor)
    (hturn : turn? (library.tracks anchor) dial played action = none) :
    ∃ error, cursor.perform catalog anchor played action = .error error := by
  cases action with
  | fetch | next | prev | reset => cases hturn
  | set path => exact follow_of_turnTo?_eq_none h hturn
  | follow =>
    cases played with
    | none => cases hturn
    | some path => exact follow_of_turnTo?_eq_none h hturn

end

/-! ### Named cursors -/

namespace Store

variable {store : Store} {envelope : Envelope}

theorem cursor_insert (store : Store) (name : String) (cursor : Cursor) (other : String) :
    Store.cursor (store.insert name cursor) other =
      if name = other then cursor else store.cursor other := by
  simp only [Store.cursor, Std.ExtTreeMap.getD_eq_getD_getElem?, Map.getElem?_insert]
  split <;> rfl

theorem cursor_deliver_of_ne (hne : envelope.name ≠ name) :
    (store.deliver catalog anchor envelope).store.cursor name = store.cursor name := by
  rcases store.deliver_cases catalog anchor envelope with
    ⟨error, hdeliver⟩ | ⟨-, snapshot, hdeliver⟩ | ⟨-, moved, snapshot, hdeliver⟩ <;> rw [hdeliver]
  rw [cursor_insert, if_neg hne]

/-- An action that can be performed, to a place that can be shown, is carried out. -/
theorem apply_of_perform (hname : name ≠ "") {snapshot : Snapshot}
    (hmoved : (store.cursor name).perform catalog anchor played action = .ok moved)
    (hshown : moved.snapshot catalog anchor name = .ok snapshot) :
    (store.apply catalog anchor played name action).answer = .ok snapshot ∧
      (store.apply catalog anchor played name action).store.cursor name = moved := by
  have hnonempty : name.isEmpty = false := by simpa using hname
  by_cases hfetch : action = .fetch
  · subst hfetch
    cases hmoved
    simp [apply, get, hnonempty, hshown]
  · simp [apply, hnonempty, hfetch, hmoved, hshown, cursor_insert, bind, Except.bind, pure, Except.pure]

theorem apply_of_perform_error (hname : name ≠ "") {error : Error}
    (herror : (store.cursor name).perform catalog anchor played action = .error error) :
    store.apply catalog anchor played name action = ⟨store, .error error, []⟩ := by
  have hnonempty : name.isEmpty = false := by simpa using hname
  have hfetch : action ≠ .fetch := by
    rintro rfl
    cases herror
  simp [apply, hnonempty, hfetch, herror, bind, Except.bind]

section

variable (h : catalog.Stocked library anchor)
include h

theorem apply_of_turn? (hname : name ≠ "")
    (hpoints : Points (library.tracks anchor) (store.cursor name).current dial)
    (hturn : turn? (library.tracks anchor) dial played action = some turned) :
    Points (library.tracks anchor)
      ((store.apply catalog anchor played name action).store.cursor name).current turned ∧
    (store.apply catalog anchor played name action).answer = .ok (shown (library.tracks anchor) name
      ((store.apply catalog anchor played name action).store.cursor name).current turned) := by
  obtain ⟨moved, hmoved, hthere⟩ := perform_of_turn? h hpoints hturn
  obtain ⟨hanswer, hcursor⟩ := apply_of_perform hname hmoved (snapshot_eq h hthere name)
  rw [hcursor]
  exact ⟨hthere, hanswer⟩

theorem points_deliver (hname : envelope.name ≠ "")
    (hpoints : Points (library.tracks anchor) (store.cursor envelope.name).current dial) :
    Points (library.tracks anchor)
      ((store.deliver catalog anchor envelope).store.cursor envelope.name).current
      (turns (library.tracks anchor) dial [envelope]) := by
  rw [turns, List.foldl_cons, List.foldl_nil]
  cases hturn : turn? (library.tracks anchor) dial
      (envelope.playlists.currentPath? envelope.name) envelope.action with
  | some turned => exact (apply_of_turn? h hname hpoints hturn).1
  | none =>
    obtain ⟨error, herror⟩ := perform_of_turn?_eq_none h (store.cursor envelope.name) hturn
    rw [deliver, apply_of_perform_error hname herror]
    exact hpoints

/-- **A run of actions turns the dial of each cursor**, by those actions that are on its name. -/
theorem points_run (hname : name ≠ "")
    (hpoints : Points (library.tracks anchor) (store.cursor name).current dial)
    (envelopes : List Envelope) :
    Points (library.tracks anchor) ((store.run catalog anchor envelopes).cursor name).current
      (turns (library.tracks anchor) dial (envelopes.filter (·.name = name))) := by
  induction envelopes generalizing store dial with
  | nil => exact hpoints
  | cons envelope rest ih =>
    by_cases hsame : envelope.name = name
    · subst hsame
      rw [List.filter_cons_of_pos (by simp)]
      exact ih (points_deliver h hname hpoints)
    · rw [List.filter_cons_of_neg (by simpa using hsame)]
      refine ih ?_
      rw [cursor_deliver_of_ne hsame]
      exact hpoints

/-- From nothing, moves on lead through the row of the tracks as turns of the dial do. -/
theorem current_run_next (hname : name ≠ "") (hnothing : (store.cursor name).current = none)
    (playlists : Playlist.Store) (times : Nat) :
    ((store.run catalog anchor (List.replicate times ⟨playlists, name, .next⟩)).cursor name).current =
      Option.bind ((Dial.next (library.tracks anchor).length)^[times] none)
        ((library.tracks anchor)[·]?) := by
  induction times with
  | zero => exact hnothing
  | succ times ih =>
    let count := (library.tracks anchor).length
    have hpoints := points_of_inRow h (Dial.inRow_next_iterate count times)
    have hthere := points_of_inRow h (Dial.inRow_next_iterate count (times + 1))
    rw [← ih] at hpoints
    rw [Function.iterate_succ_apply'] at hthere ⊢
    rw [List.replicate_succ', run, List.foldl_append]
    let before := store.run catalog anchor (List.replicate times ⟨playlists, name, .next⟩)
    have hmoved : (before.cursor name).perform catalog anchor (playlists.currentPath? name) .next =
        .ok _ := next_eq h hpoints
    exact congrArg Cursor.current (apply_of_perform hname hmoved (snapshot_eq h hthere name)).2

end

/-- **A cursor is a dial.** In the catalog of a library, let the anchor exist and no group at or
below it be empty. Then the tracks below the anchor stand in a row, each one once, and every cursor
that is valid points at nothing or into the row. Whatever actions are run, each cursor is where its
dial is that its own actions turn: on to the next track, to nothing behind the last one and to the
first from there, and back as far as the first. What an action answers shows the tracks on either
side. It fails only if it asks for a path without a track below the anchor. From nothing, moves on
lead through the row in rounds. -/
theorem cursor_turns_dial (h : catalog.Stocked library anchor) (hname : name ≠ "") :
    let tracks := library.tracks anchor
    tracks ≠ [] ∧ tracks.Nodup ∧
    (∀ cursor : Cursor, cursor.Valid catalog anchor ↔ ∃ dial, Points tracks cursor.current dial) ∧
    ∀ (store : Store) (dial : Dial), Points tracks (store.cursor name).current dial →
      (∀ envelopes,
        let later := store.run catalog anchor envelopes
        let there := turns tracks dial (envelopes.filter (·.name = name))
        Points tracks (later.cursor name).current there ∧ there.InRow tracks.length ∧
        ∀ (played : Option Path) (action : Action),
          let answer := (later.apply catalog anchor played name action).answer
          (∀ turned, turn? tracks there played action = some turned → ∃ current,
            Points tracks current turned ∧ answer = .ok (shown tracks name current turned)) ∧
          ((∃ error, answer = .error error) ↔ ∃ path, action.target? played = some path ∧
            ¬ (path.isBelow anchor = true ∧ (catalog.track? path).isSome))) ∧
      (dial = none → ∀ playlists times,
        ((store.run catalog anchor (List.replicate times ⟨playlists, name, .next⟩)).cursor
          name).current = if times % (tracks.length + 1) = 0 then none
            else tracks[times % (tracks.length + 1) - 1]?) := by
  intro tracks
  refine ⟨h.tracks_ne_nil, h.nodup_tracks, fun cursor => valid_iff_points h,
    fun store dial hpoints => ⟨?_, ?_⟩⟩
  · intro envelopes later there
    have hthere : Points tracks (later.cursor name).current there :=
      points_run h hname hpoints envelopes
    refine ⟨hthere, hthere.inRow h, fun played action => ⟨fun turned hturn => ?_, ?_⟩⟩
    · obtain ⟨hmoved, hanswer⟩ := apply_of_turn? h hname hthere hturn
      exact ⟨_, hmoved, hanswer⟩
    · have hsticks : turn? tracks there played action = none ↔ _ := turn?_eq_none_iff h
      rw [← hsticks]
      constructor
      · rintro ⟨error, herror⟩
        refine Option.eq_none_iff_forall_ne_some.2 fun turned hturn => ?_
        rw [(apply_of_turn? h hname hthere hturn).2] at herror
        cases herror
      · intro hturn
        obtain ⟨error, herror⟩ := perform_of_turn?_eq_none h (later.cursor name) hturn
        exact ⟨error, congrArg Outcome.answer (apply_of_perform_error hname herror)⟩
  · rintro rfl playlists times
    have hnothing : (store.cursor name).current = none := by
      cases hcurrent : (store.cursor name).current with
      | none => rfl
      | some path =>
        rw [hcurrent] at hpoints
        cases hpoints
    rw [current_run_next h hname hnothing playlists times, Dial.next_iterate]
    split <;> rfl

/-- The fifth move on over the three tracks of the shelf comes to the first one again. -/
theorem cursor_turns_dial_shelf : ∃ catalog : Catalog, catalog.Stocked .house ["shelf"] ∧
    let moves := List.replicate 5 ⟨∅, "den", .next⟩
    ((Store.run catalog ["shelf"] ∅ moves).cursor "den").current = some ["shelf", "disc", "0"] ∧
    ∃ error, ((Store.run catalog ["shelf"] ∅ moves).apply catalog ["shelf"] none "den"
      (.set ["attic", "chest", "0"])).answer = .error error := by
  obtain ⟨catalog, hcatalog⟩ : ∃ catalog, Catalog.ofLibrary .house = .ok catalog := ⟨_, rfl⟩
  obtain ⟨entries, hentries, hfull⟩ : ∃ entries, Library.house.entries = .ok entries ∧
      ∀ entry ∈ entries, ["shelf"] <+: entry.1 → entry.2.keys ≠ [] ∨ entry.2.tracks ≠ [] :=
    ⟨_, rfl, by decide⟩
  have hstocked : catalog.Stocked .house ["shelf"] := by
    refine ⟨hcatalog, ?_, fun path group hunder hgroup => ?_⟩
    · rw [Catalog.group?_ofLibrary hcatalog]
      exact ⟨_, rfl⟩
    · rw [Catalog.group?_ofLibrary hcatalog] at hgroup
      exact hfull (path, group) ((Library.mem_entries hentries).2 hgroup) hunder
  obtain ⟨-, -, -, hruns⟩ := cursor_turns_dial hstocked (show "den" ≠ "" by decide)
  obtain ⟨hrun, hrounds⟩ := hruns ∅ none .nothing
  refine ⟨catalog, hstocked, hrounds rfl ∅ 5, ?_⟩
  refine ((hrun (List.replicate 5 ⟨∅, "den", .next⟩)).2.2 none (.set ["attic", "chest", "0"])).2.2 ?_
  exact ⟨_, rfl, fun hbelow => absurd hbelow.1 (by decide)⟩

end Store

end Jukebox.Cursor
