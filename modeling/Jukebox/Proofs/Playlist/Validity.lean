import Jukebox.Proofs.Playlist.Basic
import Mathlib.Tactic.Common

/-!
Valid playlists: every item holds a track, and the position, if there is one, leads to a track.
Whatever a playlist was read from, it is valid once it is repaired, and every edit keeps it so.
Next to the edits stand versions that check what the edits take for granted: that an index leads
into its list, that nothing is taken from zero, that an index never passes the length of its list.
On a valid playlist these checks never fail.
-/

namespace Jukebox.Playlist

/-! ### Edits -/

/-- An edit of a playlist. -/
inductive Edit where
  | append (item : Item)
  | playNow (item : Item)
  | next
  | prev
  | clear
  | remove (index : Nat) (path : Path)
  | playItem (index : Nat) (path : Path)
  | repair

/-- The playlist after an edit; one that fails leaves it as it is. -/
def perform (playlist : Playlist) : Edit → Playlist
  | .append item => playlist.append item
  | .playNow item => playlist.playNow item
  | .next => playlist.next
  | .prev => playlist.prev
  | .clear => playlist.clear
  | .remove index path => (playlist.remove index path).toOption.getD playlist
  | .playItem index path => (playlist.playItem index path).toOption.getD playlist
  | .repair => playlist.repair

def run (playlist : Playlist) (edits : List Edit) : Playlist := edits.foldl perform playlist

/-! ### Checked edits -/

/-- The index after one that leads into a list. It is at most the length of the list. -/
def indexAfter? (items : List α) (index : Nat) : Option Nat :=
  if index < items.length then some (index + 1) else none

/-- The last index of a list; the empty list has none. -/
def lastIndex? (items : List α) : Option Nat :=
  if 0 < items.length then some (items.length - 1) else none

/-- The list with an element put in at an index, which may be its length but not more. -/
def insertAt? (items : List α) (index : Nat) (item : α) : Option (List α) :=
  if index ≤ items.length then some (items.insertIdx index item) else none

/-- The position after the current one, with every access checked. -/
def checkedNext? (playlist : Playlist) : Option (Option Position) :=
  match playlist.current with
  | none => some (if playlist.items.isEmpty then none else some ⟨0, 0⟩)
  | some ⟨item, track⟩ => do
    let here ← playlist.items[item]?
    let after ← indexAfter? here.tracks track
    if after < here.tracks.length then return some ⟨item, after⟩
    let following ← indexAfter? playlist.items item
    return if following < playlist.items.length then some ⟨following, 0⟩ else none

/-- The position before the current one, with every access checked. -/
def checkedPrev? (playlist : Playlist) : Option (Option Position) :=
  match playlist.current with
  | none => some none
  | some ⟨item, track⟩ =>
    if 0 < track then some (some ⟨item, track - 1⟩)
    else if 0 < item then do
      let before ← playlist.items[item - 1]?
      return some ⟨item - 1, ← lastIndex? before.tracks⟩
    else some (some ⟨item, track⟩)

/-- Puts an item behind the current one and plays it, with every access checked. -/
def checkedPlayNow? (playlist : Playlist) (item : Item) : Option Playlist :=
  if item.isEmpty then some playlist else do
    let index ← match playlist.current with
      | some position => indexAfter? playlist.items position.item
      | none => some 0
    return { items := ← insertAt? playlist.items index item, current := some ⟨index, 0⟩ }

/-- An edit with every access checked. Those not listed here look nothing up without a check of
their own. -/
def checkedPerform? (playlist : Playlist) : Edit → Option Playlist
  | .playNow item => playlist.checkedPlayNow? item
  | .next => do return { playlist with current := ← playlist.checkedNext? }
  | .prev => do return { playlist with current := ← playlist.checkedPrev? }
  | edit => some (playlist.perform edit)

/-- A run of edits with every access checked. -/
def checkedRun? (playlist : Playlist) (edits : List Edit) : Option Playlist :=
  edits.foldlM checkedPerform? playlist

/-! ### Valid playlists -/

/-- **A valid playlist**: every item holds a track, and the position leads to a track of an item. -/
structure Valid (playlist : Playlist) : Prop where
  holds_track : ∀ item ∈ playlist.items, item.tracks ≠ []
  current_leads : ∀ position, playlist.current = some position →
    ∃ item, playlist.items[position.item]? = some item ∧ position.track < item.tracks.length

theorem trackCount_of_getElem? {playlist : Playlist} {index : Nat} {item : Item}
    (h : playlist.items[index]? = some item) : playlist.trackCount index = item.tracks.length := by
  simp [trackCount, h]

theorem isSome_trackAt? {playlist : Playlist} {position : Position} :
    (playlist.trackAt? position).isSome ↔ ∃ item, playlist.items[position.item]? = some item ∧
      position.track < item.tracks.length := by
  cases h : playlist.items[position.item]? <;> simp [trackAt?, h]

theorem valid_of_items {items : List Item} (h : ∀ item ∈ items, item.tracks ≠ []) :
    Valid { items } :=
  ⟨h, fun _ hp => by simp at hp⟩

theorem Valid.with_current {playlist : Playlist} (h : playlist.Valid) {current : Option Position}
    (hc : ∀ position, current = some position → ∃ item,
      playlist.items[position.item]? = some item ∧ position.track < item.tracks.length) :
    Valid { playlist with current } :=
  ⟨h.holds_track, hc⟩

/-! ### Repair -/

theorem items_repair (playlist : Playlist) :
    playlist.repair.items = playlist.items.filter fun item => !item.isEmpty := by
  unfold repair
  dsimp only
  split
  · rename_i h
    exact (List.filter_eq_self.2 (List.length_filter_eq_length_iff.1 h.1)).symm
  · rfl

theorem valid_repair (playlist : Playlist) : playlist.repair.Valid := by
  have holds : ∀ item ∈ playlist.repair.items, item.tracks ≠ [] := by
    intro item hi
    rw [items_repair] at hi
    simpa [Item.isEmpty] using (List.mem_filter.1 hi).2
  refine ⟨holds, fun position hp => ?_⟩
  unfold repair at hp ⊢
  dsimp only at hp ⊢
  split at hp
  · rename_i h
    rw [if_pos h]
    have hpath := h.2
    rw [currentPath?, hp] at hpath
    exact isSome_trackAt?.1 hpath
  · simp at hp

theorem repair_of_valid {playlist : Playlist} (h : playlist.Valid) : playlist.repair = playlist := by
  have hitems : (playlist.items.filter fun item => !item.isEmpty) = playlist.items :=
    List.filter_eq_self.2 fun item hi => by
      simpa using Item.isEmpty_eq_false_iff.2 (h.holds_track item hi)
  obtain ⟨items, current⟩ := playlist
  unfold repair
  dsimp only at hitems ⊢
  rw [hitems]
  split
  · rfl
  · rename_i hbad
    cases current with
    | none => rfl
    | some position =>
      exact absurd ⟨rfl, isSome_trackAt?.2 (h.current_leads position rfl)⟩ hbad

theorem needsRepair_iff_not_valid (playlist : Playlist) :
    playlist.needsRepair = true ↔ ¬ playlist.Valid := by
  constructor
  · intro hneeds h
    rcases Bool.or_eq_true_iff.1 hneeds with hempty | hlost
    · obtain ⟨item, hi, he⟩ := List.any_eq_true.1 hempty
      rw [Item.isEmpty_eq_false_iff.2 (h.holds_track item hi)] at he
      cases he
    · obtain ⟨hsome, hnone⟩ := Bool.and_eq_true_iff.1 hlost
      obtain ⟨position, hp⟩ := Option.isSome_iff_exists.1 hsome
      have hleads := isSome_trackAt?.2 (h.current_leads position hp)
      rw [currentPath?, hp] at hnone
      simp_all
  · intro hbad
    by_contra hneeds
    rw [needsRepair, Bool.not_eq_true, Bool.or_eq_false_iff, List.any_eq_false] at hneeds
    refine hbad ⟨fun item hi => ?_, fun position hp => ?_⟩
    · exact Item.isEmpty_eq_false_iff.1 (by simpa using hneeds.1 item hi)
    · have hpath := hneeds.2
      rw [currentPath?, hp] at hpath
      exact isSome_trackAt?.1 (by simpa using hpath)

theorem needsRepair_iff_repair_ne (playlist : Playlist) :
    playlist.needsRepair = true ↔ playlist.repair ≠ playlist := by
  rw [needsRepair_iff_not_valid, not_iff_not]
  exact ⟨repair_of_valid, fun h => h ▸ valid_repair playlist⟩

/-! ### Edits keep playlists valid -/

section Edits

variable {playlist : Playlist} {item : Item} {position : Position} {index : Nat} {path : Path}

theorem valid_append (h : playlist.Valid) : (playlist.append item).Valid := by
  refine ⟨fun other ho => ?_, ?_⟩
  · rcases of_mem_append ho with ho | ⟨rfl, hne⟩
    · exact h.holds_track other ho
    · exact hne
  · unfold append
    split
    · exact h.current_leads
    · intro position hp
      obtain ⟨here, hhere, htrack⟩ := h.current_leads position hp
      refine ⟨here, ?_, htrack⟩
      rw [List.getElem?_append_left (List.getElem?_eq_some_iff.1 hhere).1]
      exact hhere

/-- The place behind the current item is within the items or at their end. -/
theorem Valid.item_lt (h : playlist.Valid) (hp : playlist.current = some position) :
    position.item < playlist.items.length := by
  obtain ⟨here, hhere, -⟩ := h.current_leads position hp
  exact (List.getElem?_eq_some_iff.1 hhere).1

theorem valid_playNow (h : playlist.Valid) : (playlist.playNow item).Valid := by
  refine ⟨fun other ho => ?_, ?_⟩
  · rcases of_mem_playNow ho with ho | ⟨rfl, hne⟩
    · exact h.holds_track other ho
    · exact hne
  · unfold playNow
    split
    · exact h.current_leads
    · rename_i hitem
      extract_lets index
      have hindex : index ≤ playlist.items.length := by
        cases hp : playlist.current with
        | none => simp [index, hp]
        | some position =>
          have := h.item_lt hp
          simp only [index, hp]
          omega
      have hlength : (playlist.items.take index).length = index := by
        rw [List.length_take, Nat.min_eq_left hindex]
      intro position hp
      cases hp
      have hne : item.tracks ≠ [] := Item.isEmpty_eq_false_iff.1 (by simpa using hitem)
      refine ⟨item, ?_, List.length_pos_iff.2 hne⟩
      dsimp only
      rw [List.getElem?_append_right (Nat.le_of_eq hlength), hlength, Nat.sub_self]
      rfl

theorem Valid.nextPosition?_leads (h : playlist.Valid) (hp : playlist.nextPosition? = some position) :
    ∃ item, playlist.items[position.item]? = some item ∧ position.track < item.tracks.length := by
  unfold nextPosition? at hp
  split at hp
  · split at hp
    · cases hp
    · rename_i hitems
      cases hp
      obtain ⟨first, rest, hfirst⟩ := List.exists_cons_of_ne_nil (by simpa using hitems)
      have hholds := h.holds_track first (by simp [hfirst])
      exact ⟨first, by simp [hfirst], List.length_pos_iff.2 hholds⟩
  · rename_i index track hcurrent
    obtain ⟨here, hhere, htrack⟩ := h.current_leads _ hcurrent
    rw [trackCount_of_getElem? hhere] at hp
    split at hp
    · rename_i hlt
      cases hp
      exact ⟨here, hhere, hlt⟩
    · split at hp
      · rename_i hlt
        cases hp
        have hholds := h.holds_track _ (List.getElem_mem hlt)
        exact ⟨_, List.getElem?_eq_getElem hlt, List.length_pos_iff.2 hholds⟩
      · cases hp

theorem Valid.prevPosition?_leads (h : playlist.Valid) (hp : playlist.prevPosition? = some position) :
    ∃ item, playlist.items[position.item]? = some item ∧ position.track < item.tracks.length := by
  unfold prevPosition? at hp
  split at hp
  · cases hp
  · rename_i index track hcurrent
    obtain ⟨here, hhere, htrack⟩ := h.current_leads _ hcurrent
    dsimp only at hhere htrack
    split at hp
    · cases hp
      exact ⟨here, hhere, by dsimp only; omega⟩
    · split at hp
      · cases hp
        have hlt : index - 1 < playlist.items.length := by
          have := (List.getElem?_eq_some_iff.1 hhere).1
          omega
        have hbefore := List.getElem?_eq_getElem hlt
        have hpos := List.length_pos_iff.2 (h.holds_track _ (List.getElem_mem hlt))
        refine ⟨_, hbefore, ?_⟩
        dsimp only
        rw [trackCount_of_getElem? hbefore]
        omega
      · cases hp
        exact ⟨here, hhere, htrack⟩

theorem valid_of_remove (h : playlist.Valid) {removed : Playlist}
    (hr : playlist.remove index path = .ok removed) : removed.Valid := by
  obtain ⟨hcurrent, hitems⟩ := of_remove hr
  refine ⟨fun item hi => ?_, fun position hp => ?_⟩
  · rcases hitems item hi with hold | ⟨hne, -⟩
    · exact h.holds_track item hold
    · exact hne
  · rw [hcurrent] at hp
    cases hp

theorem valid_of_playItem (h : playlist.Valid) {played : Playlist}
    (hp : playlist.playItem index path = .ok played) : played.Valid := by
  unfold playItem at hp
  split at hp
  · cases hp
  · rename_i item hitem
    split at hp
    · rename_i track htrack
      cases hp
      refine h.with_current fun position hposition => ?_
      cases hposition
      exact ⟨item, hitem, (List.findIdx?_eq_some_iff_getElem.1 htrack).1⟩
    · cases hp

theorem valid_perform (h : playlist.Valid) (edit : Edit) : (playlist.perform edit).Valid := by
  cases edit with
  | append item => exact valid_append h
  | playNow item => exact valid_playNow h
  | next => exact h.with_current fun position hp => h.nextPosition?_leads hp
  | prev => exact h.with_current fun position hp => h.prevPosition?_leads hp
  | clear => exact valid_of_items (by simp)
  | remove index path =>
    dsimp only [perform]
    cases hr : playlist.remove index path with
    | error e => exact h
    | ok removed => exact valid_of_remove h hr
  | playItem index path =>
    dsimp only [perform]
    cases hp : playlist.playItem index path with
    | error e => exact h
    | ok played => exact valid_of_playItem h hp
  | repair => exact valid_repair playlist

theorem valid_run (h : playlist.Valid) (edits : List Edit) : (playlist.run edits).Valid := by
  induction edits generalizing playlist with
  | nil => exact h
  | cons edit rest ih => exact ih (valid_perform h edit)

/-! ### The checks never fail -/

theorem insertIdx_eq_append {items : List α} {index : Nat} (h : index ≤ items.length) (item : α) :
    items.insertIdx index item = items.take index ++ item :: items.drop index := by
  induction index generalizing items with
  | zero => simp
  | succ index ih =>
    cases items with
    | nil => simp at h
    | cons first rest => simp [ih (Nat.le_of_succ_le_succ h)]

theorem checkedNext?_eq (h : playlist.Valid) :
    playlist.checkedNext? = some playlist.nextPosition? := by
  unfold checkedNext? nextPosition?
  cases hcurrent : playlist.current with
  | none => rfl
  | some position =>
    obtain ⟨index, track⟩ := position
    obtain ⟨here, hhere, htrack⟩ := h.current_leads _ hcurrent
    have hindex := h.item_lt hcurrent
    dsimp only at hhere htrack hindex ⊢
    rw [trackCount_of_getElem? hhere, hhere]
    simp only [indexAfter?, htrack, hindex, if_true, Option.bind_eq_bind, Option.bind_some,
      Option.pure_def]
    split <;> rfl

theorem checkedPrev?_eq (h : playlist.Valid) :
    playlist.checkedPrev? = some playlist.prevPosition? := by
  unfold checkedPrev? prevPosition?
  cases hcurrent : playlist.current with
  | none => rfl
  | some position =>
    obtain ⟨index, track⟩ := position
    have hindex := h.item_lt hcurrent
    dsimp only at hindex ⊢
    by_cases htrack : 0 < track
    · rw [if_pos htrack, if_pos htrack]
    rw [if_neg htrack, if_neg htrack]
    by_cases hpos : 0 < index
    · have hlt : index - 1 < playlist.items.length := by omega
      have hbefore := List.getElem?_eq_getElem hlt
      have hholds := List.length_pos_iff.2 (h.holds_track _ (List.getElem_mem hlt))
      rw [if_pos hpos, if_pos hpos, trackCount_of_getElem? hbefore, hbefore]
      simp [lastIndex?, hholds]
    · rw [if_neg hpos, if_neg hpos]

theorem checkedPlayNow?_eq (h : playlist.Valid) (item : Item) :
    playlist.checkedPlayNow? item = some (playlist.playNow item) := by
  unfold checkedPlayNow? playNow
  split
  · rfl
  cases hcurrent : playlist.current with
  | none => simp [insertAt?]
  | some position =>
    have hindex := h.item_lt hcurrent
    have hinsert : position.item + 1 ≤ playlist.items.length := hindex
    simp [indexAfter?, insertAt?, hindex, hinsert, insertIdx_eq_append hinsert]

theorem checkedPerform?_eq (h : playlist.Valid) (edit : Edit) :
    playlist.checkedPerform? edit = some (playlist.perform edit) := by
  cases edit with
  | playNow item => exact checkedPlayNow?_eq h item
  | next => simp [checkedPerform?, checkedNext?_eq h, perform, next]
  | prev => simp [checkedPerform?, checkedPrev?_eq h, perform, prev]
  | append _ | clear | remove _ _ | playItem _ _ | repair => rfl

theorem checkedRun?_eq (h : playlist.Valid) (edits : List Edit) :
    playlist.checkedRun? edits = some (playlist.run edits) := by
  induction edits generalizing playlist with
  | nil => rfl
  | cons edit rest ih =>
    have hrest := ih (valid_perform h edit)
    simpa [checkedRun?, run, checkedPerform?_eq h edit] using hrest

end Edits

/-- **Repaired playlists stay valid.** From any playlist, once repaired, every run of edits leads
to a valid playlist and passes every check on the way. The repair itself keeps the items that hold
tracks, in order, is not needed a second time, and reports a change exactly if it makes one. -/
theorem valid_run_repair (start : Playlist) (edits : List Edit) :
    (start.repair.run edits).Valid ∧
    start.repair.checkedRun? edits = some (start.repair.run edits) ∧
    start.repair.repair = start.repair ∧
    start.repair.items = (start.items.filter fun item => !item.isEmpty) ∧
    (start.needsRepair = true ↔ start.repair ≠ start) :=
  ⟨valid_run (valid_repair start) edits, checkedRun?_eq (valid_repair start) edits,
    repair_of_valid (valid_repair start), items_repair start, needsRepair_iff_repair_ne start⟩

end Jukebox.Playlist
