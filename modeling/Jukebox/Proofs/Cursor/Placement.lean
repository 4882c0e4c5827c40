import Jukebox.Proofs.Cursor.Row

/-!
Cursors that are placed. To set a cursor to a track, or to reset it, does not depend on where it was.
What comes of it is told by the stops on either side of the new place: if one of them is a group without
tracks the cursor cannot be shown there, and the action fails.
-/

namespace Jukebox

open Library (Node)
open Result (bind_eq_error_iff)

/-- No group without tracks stands there. -/
def Stop.Clear (stop : Option Stop) : Prop := ∀ path, stop ≠ some (.barren path)

theorem Stop.clear_iff {stop : Option Stop} : Clear stop ↔ ∃ path, answer stop = .ok path := by
  rcases stop with _ | (path | path) <;> simp [Clear, answer]

theorem Stop.clear_none : Clear none := by
  rintro path ⟨⟩

theorem Stop.clear_ite {p : Prop} [Decidable p] {stop : Option Stop} :
    Clear (if p then none else stop) ↔ (¬ p → Clear stop) := by
  split
  · rename_i hp
    simp [Clear, hp]
  · rename_i hp
    simp [hp]

theorem Library.stops_eq_nil {library : Library} {catalog : Catalog} {path : Path}
    (h : Catalog.ofLibrary library = .ok catalog) (hgroup : catalog.group? path = none) :
    library.stops path = [] := by
  cases hnode : library.node? path with
  | none => rw [stops, hnode]
  | some node =>
    rw [(Catalog.group?_ofLibrary_eq_some_iff h).2 ⟨node, hnode, rfl⟩] at hgroup
    cases hgroup

namespace Catalog

variable {library : Library} {catalog : Catalog} {root path : Path}

/-- The catalog has a group at a path with neither groups nor tracks. -/
def EmptyGroup (catalog : Catalog) (path : Path) : Prop :=
  ∃ group, catalog.group? path = some group ∧ group.keys = [] ∧ group.tracks = []

theorem not_emptyGroup_of_kind {group : Group} (hgroup : catalog.group? path = some group)
    {kind : Group.Kind} (hkind : group.kind path = .ok kind) : ¬ catalog.EmptyGroup path := by
  rintro ⟨same, hsame, hkeys, htracks⟩
  rw [hgroup] at hsame
  cases hsame
  rcases Group.exists_kind_iff.1 ⟨kind, hkind⟩ with ⟨hne, -⟩ | ⟨-, hne⟩
  · exact hne hkeys
  · exact hne htracks

theorem emptyGroup_of_kind_eq_error (h : Catalog.ofLibrary library = .ok catalog) {group : Group}
    (hgroup : catalog.group? path = some group) {error : Error}
    (hkind : group.kind path = .error error) : catalog.EmptyGroup path := by
  obtain ⟨node, hnode, rfl⟩ := (group?_ofLibrary_eq_some_iff h).1 hgroup
  rcases (Library.proper_of_node? h hnode).cases with ⟨hg, ht⟩ | ⟨hg, ht⟩ | ⟨hg, ht⟩
  · exact ⟨_, hgroup, by simp [Node.group, hg], ht⟩
  · rw [Node.kind_of_leaf hg ht] at hkind
    cases hkind
  · rw [Node.kind_of_internal hg ht] at hkind
    cases hkind

/-- What leads to no track addresses nothing, unless it leads into an empty group below the root. -/
theorem kind_of_ensureTrack_eq_error (h : Catalog.ofLibrary library = .ok catalog) {error : Error}
    (herror : catalog.ensureTrack root path = .error error) :
    (path.isBelow root = true ∧ catalog.EmptyGroup path.dropLast) ∧
      error.kind = .catalogInconsistency ∨
    ¬ (path.isBelow root = true ∧ catalog.EmptyGroup path.dropLast) ∧
      error.kind = .unknownEntity := by
  have hlocate := ensureTrack_eq_error_iff.1 herror
  unfold locate at hlocate
  dsimp only at hlocate
  split at hlocate
  · rename_i habove
    cases hlocate
    refine .inr ⟨fun hempty => ?_, rfl⟩
    simp [hempty.1] at habove
  rename_i hbelow
  have hbelow : path.isBelow root = true := by simpa using hbelow
  rcases bind_eq_error_iff.1 hlocate with hmissing | ⟨group, hgroup, hlocate⟩
  · obtain ⟨hnone, hkind⟩ := of_lookup_eq_error hmissing
    refine .inr ⟨?_, hkind⟩
    rintro ⟨-, group, hsome, -⟩
    rw [hnone] at hsome
    cases hsome
  have hgroup := lookup_eq_ok_iff.1 hgroup
  rcases bind_eq_error_iff.1 hlocate with hkind | ⟨kind, hkind, hlocate⟩
  · exact .inl ⟨⟨hbelow, emptyGroup_of_kind_eq_error h hgroup hkind⟩, Group.kind_of_kind_eq_error hkind⟩
  · refine .inr ⟨fun hempty => not_emptyGroup_of_kind hgroup hkind hempty.2, ?_⟩
    -- the group is of a kind, but not a leaf with a track of that number
    split at hlocate
    · split at hlocate <;> cases hlocate
      rfl
    · cases hlocate
      rfl

end Catalog

namespace Cursor

open Catalog (exists_group?_above exists_stop_of_ensureTrack firstTrack_eq_answer)

variable {library : Library} {catalog : Catalog} {anchor path : Path}

/-! ### What is shown -/

theorem snapshot_empty (h : Catalog.ofLibrary library = .ok catalog) (name : String) :
    snapshot {} catalog anchor name = do
      let next ← Stop.answer (library.stops anchor).head?
      return ⟨name, none, none, next⟩ := by
  unfold snapshot
  cases hgroup : catalog.group? anchor with
  | some group =>
    dsimp only
    rw [Option.isSome_some, if_pos rfl, firstTrack_eq_answer h hgroup]
    rfl
  | none =>
    rw [Library.stops_eq_nil h hgroup]
    rfl

theorem snapshot_track (h : Catalog.ofLibrary library = .ok catalog) (hanchor : anchor ≠ [])
    (hpath : catalog.ensureTrack anchor path = .ok ()) (name : String) : ∃ plain index,
      path.plain? = some plain ∧ (library.stops anchor)[index]? = some (.track plain) ∧
      snapshot ⟨some path⟩ catalog anchor name = do
        let next ← Stop.answer (library.stops anchor)[index + 1]?
        let previous ← Stop.answer (if index = 0 then none else (library.stops anchor)[index - 1]?)
        return ⟨name, some path, previous, next⟩ := by
  obtain ⟨located, hlocated⟩ := Catalog.ensureTrack_eq_ok_iff.1 hpath
  obtain ⟨leaf, key, number, group, -, hunder, -, hgroup, -⟩ := Catalog.locate_eq_ok_iff.1 hlocated
  obtain ⟨top, htop⟩ := exists_group?_above h hanchor hunder hgroup
  obtain ⟨plain, index, hplain, hhere, hnext, hprevious⟩ := exists_stop_of_ensureTrack h htop hpath
  refine ⟨plain, index, hplain, hhere, ?_⟩
  unfold snapshot
  dsimp only
  rw [hnext, preceding, hprevious]

/-! ### What comes of it -/

namespace Store

variable {store : Store} {played : Option Path} {name : String} {action : Action}

/-- What comes of an action that points a cursor at a track or at nothing, with a stop on either side:
the cursor is stored and shown, unless one of the stops is a group without tracks. -/
def place (store : Store) (name : String) (current : Option Path) (before after : Option Stop) :
    Outcome Store Snapshot :=
  match Stop.answer after, Stop.answer before with
  | .ok next, .ok previous =>
    ⟨store.insert name ⟨current⟩, .ok ⟨name, current, previous, next⟩, [.cursorChanged name]⟩
  | .ok _, .error error => ⟨store, .error error, []⟩
  | .error error, _ => ⟨store, .error error, []⟩

/-- A cursor is placed where the stops on either side are clear, and if it is not, nothing changes. -/
theorem place_cases (store : Store) (name : String) (current : Option Path) (before after : Option Stop) :
    (Stop.Clear before ∧ Stop.Clear after ∧ ∃ previous next, store.place name current before after =
      ⟨store.insert name ⟨current⟩, .ok ⟨name, current, previous, next⟩, [.cursorChanged name]⟩) ∨
    (¬ (Stop.Clear before ∧ Stop.Clear after) ∧ ∃ error, error.kind = .catalogInconsistency ∧
      store.place name current before after = ⟨store, .error error, []⟩) := by
  unfold place
  rw [Stop.clear_iff, Stop.clear_iff]
  cases hafter : Stop.answer after with
  | error error =>
    refine .inr ⟨?_, error, Stop.kind_of_answer_eq_error hafter, rfl⟩
    rintro ⟨-, next, ⟨⟩⟩
  | ok next =>
    cases hbefore : Stop.answer before with
    | error error =>
      refine .inr ⟨?_, error, Stop.kind_of_answer_eq_error hbefore, rfl⟩
      rintro ⟨⟨previous, ⟨⟩⟩, -⟩
    | ok previous => exact .inl ⟨⟨previous, rfl⟩, ⟨next, rfl⟩, previous, next, rfl⟩

theorem place_of_clear (store : Store) (name : String) (current : Option Path)
    {before after : Option Stop} (hbefore : Stop.Clear before) (hafter : Stop.Clear after) :
    ∃ previous next, store.place name current before after =
      ⟨store.insert name ⟨current⟩, .ok ⟨name, current, previous, next⟩, [.cursorChanged name]⟩ := by
  rcases store.place_cases name current before after with ⟨-, -, hplace⟩ | ⟨hstuck, -⟩
  · exact hplace
  · exact absurd ⟨hbefore, hafter⟩ hstuck

theorem apply_of_snapshot_eq (hname : name ≠ "") (haction : action ≠ .fetch) {moved : Cursor}
    {before after : Option Stop}
    (hmoved : (store.cursor name).perform catalog anchor played action = .ok moved)
    (hshown : moved.snapshot catalog anchor name = do
      let next ← Stop.answer after
      let previous ← Stop.answer before
      return ⟨name, moved.current, previous, next⟩) :
    store.apply catalog anchor played name action = store.place name moved.current before after := by
  have hnonempty : name.isEmpty = false := by simpa using hname
  unfold place
  cases hafter : Stop.answer after <;> cases hbefore : Stop.answer before <;>
    simp [apply, hnonempty, haction, hmoved, hshown, hafter, hbefore, bind, Except.bind, pure, Except.pure]

theorem apply_reset (h : Catalog.ofLibrary library = .ok catalog) (hname : name ≠ "") :
    store.apply catalog anchor played name .reset =
      store.place name none none (library.stops anchor).head? := by
  have hmoved : (store.cursor name).perform catalog anchor played .reset = .ok {} := rfl
  refine apply_of_snapshot_eq hname (by decide) hmoved ?_
  rw [snapshot_empty h]
  rfl

/-- To set a cursor to a track places it between the stops on either side. -/
theorem apply_set (h : Catalog.ofLibrary library = .ok catalog) (hanchor : anchor ≠ []) (store : Store)
    (played : Option Path) (hname : name ≠ "") (hpath : catalog.ensureTrack anchor path = .ok ()) : ∃ plain index,
      path.plain? = some plain ∧ (library.stops anchor)[index]? = some (.track plain) ∧
      store.apply catalog anchor played name (.set path) = store.place name (some path)
        (if index = 0 then none else (library.stops anchor)[index - 1]?)
        (library.stops anchor)[index + 1]? := by
  obtain ⟨plain, index, hplain, hhere, hshown⟩ := snapshot_track h hanchor hpath name
  refine ⟨plain, index, hplain, hhere, ?_⟩
  have hmoved : (store.cursor name).perform catalog anchor played (.set path) = .ok ⟨some path⟩ :=
    set_of_ensureTrack hpath
  exact apply_of_snapshot_eq hname (by simp) hmoved hshown

theorem apply_set_of_error (hname : name ≠ "") {error : Error}
    (herror : catalog.ensureTrack anchor path = .error error) :
    store.apply catalog anchor played name (.set path) = ⟨store, .error error, []⟩ := by
  have hfailed : (store.cursor name).perform catalog anchor played (.set path) = .error error :=
    set_of_ensureTrack_error herror
  exact apply_of_perform_error hname hfailed

theorem apply_of_name_eq (hname : name = "") :
    store.apply catalog anchor played name action = ⟨store, .error .emptyCursorName, []⟩ := by
  simp [apply, hname]

/-! ### Exactness -/

/-- Where a set cursor is stored, and why not. -/
theorem set_exact (h : Catalog.ofLibrary library = .ok catalog) (hanchor : anchor ≠ [])
    (store : Store) (played : Option Path) (name : String) (path : Path) :
    let stops := library.stops anchor
    let outcome := store.apply catalog anchor played name (.set path)
    ((∃ snapshot, outcome.answer = .ok snapshot) ↔
      name ≠ "" ∧ catalog.ensureTrack anchor path = .ok () ∧ ∃ plain index,
        path.plain? = some plain ∧ stops[index]? = some (.track plain) ∧
        (index ≠ 0 → Stop.Clear stops[index - 1]?) ∧ Stop.Clear stops[index + 1]?) ∧
    (∀ snapshot, outcome.answer = .ok snapshot →
      snapshot.current = some path ∧ outcome.store = store.insert name ⟨some path⟩) ∧
    ∀ error, outcome.answer = .error error → outcome.store = store ∧
      (error.kind = .unknownEntity ∨ error.kind = .catalogInconsistency) ∧
      (error.kind = .unknownEntity ↔ name = "" ∨ catalog.ensureTrack anchor path ≠ .ok () ∧
        ¬ (path.isBelow anchor = true ∧ catalog.EmptyGroup path.dropLast)) := by
  intro stops outcome
  by_cases hname : name = ""
  · have houtcome : outcome = ⟨store, .error .emptyCursorName, []⟩ := apply_of_name_eq hname
    rw [houtcome]
    simp [hname, Error.kind]
  cases hpath : catalog.ensureTrack anchor path with
  | error cause =>
    have houtcome : outcome = ⟨store, .error cause, []⟩ := apply_set_of_error hname hpath
    rw [houtcome]
    rcases Catalog.kind_of_ensureTrack_eq_error h hpath with ⟨hempty, hkind⟩ | ⟨hempty, hkind⟩ <;>
      simp [hname, hkind, hempty]
  | ok _ =>
    obtain ⟨plain, index, hplain, hhere, houtcome⟩ :=
      apply_set h hanchor store played hname hpath
    have hclear : (∃ plain index, path.plain? = some plain ∧ stops[index]? = some (.track plain) ∧
        (index ≠ 0 → Stop.Clear stops[index - 1]?) ∧ Stop.Clear stops[index + 1]?) ↔
        Stop.Clear (if index = 0 then none else stops[index - 1]?) ∧ Stop.Clear stops[index + 1]? := by
      rw [Stop.clear_ite]
      constructor
      · rintro ⟨found, position, hfound, hthere, hbefore, hafter⟩
        rw [hplain] at hfound
        cases hfound
        obtain ⟨hlt, -⟩ := List.getElem?_eq_some_iff.1 hhere
        have hsame : index = position :=
          (List.getElem?_inj hlt (Library.stops_nodup h anchor)).1 (hhere.trans hthere.symm)
        rw [hsame]
        exact ⟨hbefore, hafter⟩
      · rintro ⟨hbefore, hafter⟩
        exact ⟨plain, index, hplain, hhere, hbefore, hafter⟩
    have houtcome : outcome = store.place name (some path)
      (if index = 0 then none else stops[index - 1]?) stops[index + 1]? := houtcome
    rw [hclear, houtcome]
    rcases store.place_cases name (some path) (if index = 0 then none else stops[index - 1]?)
        stops[index + 1]? with
      ⟨hbefore, hafter, previous, next, hplace⟩ | ⟨hstuck, error, hkind, hplace⟩ <;> rw [hplace]
    · simp [hname, hbefore, hafter]
    · simp [hname, hkind, hstuck]

/-- Where a reset cursor is stored, and why not. -/
theorem reset_exact (h : Catalog.ofLibrary library = .ok catalog) (anchor : Path) (store : Store)
    (played : Option Path) (name : String) :
    let outcome := store.apply catalog anchor played name .reset
    ((∃ snapshot, outcome.answer = .ok snapshot) ↔
      name ≠ "" ∧ Stop.Clear (library.stops anchor).head?) ∧
    (∀ snapshot, outcome.answer = .ok snapshot →
      snapshot.current = none ∧ outcome.store = store.insert name {}) ∧
    ∀ error, outcome.answer = .error error → outcome.store = store ∧
      (error.kind = .unknownEntity ∨ error.kind = .catalogInconsistency) ∧
      (error.kind = .unknownEntity ↔ name = "") := by
  intro outcome
  by_cases hname : name = ""
  · have houtcome : outcome = ⟨store, .error .emptyCursorName, []⟩ := apply_of_name_eq hname
    rw [houtcome]
    simp [hname, Error.kind]
  have houtcome : outcome = store.place name none none (library.stops anchor).head? :=
    apply_reset h hname
  rw [houtcome]
  rcases store.place_cases name none none (library.stops anchor).head? with
    ⟨-, hafter, previous, next, hplace⟩ | ⟨hstuck, error, hkind, hplace⟩ <;> rw [hplace]
  · simp [hname, hafter]
  · have hafter : ¬ Stop.Clear (library.stops anchor).head? :=
      fun hafter => hstuck ⟨Stop.clear_none, hafter⟩
    simp [hname, hkind, hafter]

/-- Where no group at or below the anchor is empty, all stops are clear. -/
theorem clear_of_not_emptyGroup (h : Catalog.ofLibrary library = .ok catalog)
    (hempty : ∀ path, anchor <+: path → ¬ catalog.EmptyGroup path) (index : Nat) :
    Stop.Clear (library.stops anchor)[index]? := by
  intro path hstop
  have hmem := List.mem_of_getElem? hstop
  cases hnode : library.node? anchor with
  | none =>
    rw [Library.stops, hnode] at hmem
    cases hmem
  | some node =>
    rw [Library.stops, hnode] at hmem
    exact hempty path (Library.prefix_of_mem_stops h hnode hmem)
      (Library.group?_of_barren_mem_stops h hnode hmem)

/-- **Where a cursor is placed.** Let the anchor be a collection of a library. To set a cursor succeeds
just if the path leads to a track below the anchor, and neither stop next to this track is a group
without tracks; then the cursor is stored at the path. To reset it succeeds just if the first stop
below the anchor is not such a group; then the cursor is stored at nothing. Where the cursors were
before does not matter. If an action fails they stay as they are, and with a name and a path to no
track it fails for want of the track, unless the path leads into an empty group. Below an anchor without
empty groups all stops are clear, so there only the path counts. -/
theorem placement_exact {library : Library} {catalog : Catalog}
    (h : Catalog.ofLibrary library = .ok catalog) (key : Key) (store : Store) (played : Option Path)
    (name : String) :
    let anchor := Path.ofCollection key
    let stops := library.stops anchor
    let set := fun path => store.apply catalog anchor played name (.set path)
    let reset := store.apply catalog anchor played name .reset
    (∀ path, (∃ snapshot, (set path).answer = .ok snapshot) ↔
      name ≠ "" ∧ catalog.ensureTrack anchor path = .ok () ∧ ∃ plain index,
        path.plain? = some plain ∧ stops[index]? = some (.track plain) ∧
        (index ≠ 0 → Stop.Clear stops[index - 1]?) ∧ Stop.Clear stops[index + 1]?) ∧
    (∀ path snapshot, (set path).answer = .ok snapshot →
      snapshot.current = some path ∧ (set path).store = store.insert name ⟨some path⟩) ∧
    (∀ path error, (set path).answer = .error error → (set path).store = store ∧
      (error.kind = .unknownEntity ∨ error.kind = .catalogInconsistency) ∧
      (error.kind = .unknownEntity ↔ name = "" ∨ catalog.ensureTrack anchor path ≠ .ok () ∧
        ¬ (path.isBelow anchor = true ∧ catalog.EmptyGroup path.dropLast))) ∧
    ((∃ snapshot, reset.answer = .ok snapshot) ↔ name ≠ "" ∧ Stop.Clear stops.head?) ∧
    (∀ snapshot, reset.answer = .ok snapshot →
      snapshot.current = none ∧ reset.store = store.insert name {}) ∧
    (∀ error, reset.answer = .error error → reset.store = store ∧
      (error.kind = .unknownEntity ∨ error.kind = .catalogInconsistency) ∧
      (error.kind = .unknownEntity ↔ name = "")) ∧
    ((∀ path, anchor <+: path → ¬ catalog.EmptyGroup path) → ∀ index : Nat, Stop.Clear stops[index]?) := by
  intro anchor stops set reset
  have hanchor : anchor ≠ [] := List.cons_ne_nil key []
  have hset := fun path => set_exact h hanchor store played name path
  obtain ⟨hreset, hresetStored, hresetFailed⟩ := reset_exact h anchor store played name
  exact ⟨fun path => (hset path).1, fun path => (hset path).2.1, fun path => (hset path).2.2, hreset,
    hresetStored, hresetFailed, clear_of_not_emptyGroup h⟩

/-- In the attic a cursor can be set to the second track of the chest, but not to the first one, which
lies behind the empty crate. -/
theorem placement_exact_attic : ∃ catalog, Catalog.ofLibrary .house = .ok catalog ∧
    (∃ snapshot, (Store.apply ∅ catalog ["attic"] none "den" (.set ["attic", "chest", "1"])).answer =
      .ok snapshot) ∧
    ¬ (∃ snapshot, (Store.apply ∅ catalog ["attic"] none "den" .reset).answer = .ok snapshot) := by
  refine ⟨_, rfl, ?_⟩
  obtain ⟨hset, -, -, hreset, -⟩ := @placement_exact .house _ rfl "attic" ∅ none "den"
  refine ⟨(hset ["attic", "chest", "1"]).2 ⟨by decide, rfl, ["attic", "chest", "1"], 2, rfl, rfl, ?_, ?_⟩,
    fun hok => ?_⟩
  · rintro - path ⟨⟩
  · rintro path ⟨⟩
  · exact (hreset.1 hok).2 ["attic", "crate"] rfl

/-- A cursor cannot always be set to a track below the anchor, nor reset. -/
theorem placement_needs_neighbours :
    (¬ ∀ (library : Library) (catalog : Catalog) (key : Key) (envelopes : List Envelope)
      (played : Option Path) (name : String) (path : Path), Catalog.ofLibrary library = .ok catalog →
      name ≠ "" → catalog.ensureTrack (Path.ofCollection key) path = .ok () → ∃ snapshot,
        ((Store.run catalog (Path.ofCollection key) ∅ envelopes).apply catalog (Path.ofCollection key)
          played name (.set path)).answer = .ok snapshot) ∧
    ¬ ∀ (library : Library) (catalog : Catalog) (key : Key) (envelopes : List Envelope)
      (played : Option Path) (name : String), Catalog.ofLibrary library = .ok catalog →
      name ≠ "" → ∃ snapshot,
        ((Store.run catalog (Path.ofCollection key) ∅ envelopes).apply catalog (Path.ofCollection key)
          played name .reset).answer = .ok snapshot := by
  constructor
  · intro h
    obtain ⟨snapshot, hsnapshot⟩ := h .house _ "attic" [] none "den" ["attic", "chest", "0"] rfl
      (by decide) rfl
    cases hsnapshot
  · intro h
    obtain ⟨snapshot, hsnapshot⟩ := h .house _ "attic" [] none "den" rfl (by decide)
    cases hsnapshot

end Store

end Cursor

end Jukebox
