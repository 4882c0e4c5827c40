import Jukebox.Proofs.Dial
import Jukebox.Proofs.Playlist.Validity
import Mathlib.Algebra.GroupWithZero.Nat
import Mathlib.Data.List.Range

/-!
A playlist as one row. The tracks of its items stand in a row, one item after the other, and a
position is an index into it. The moves of a playlist turn a dial over this row: to the next track,
whichever item holds it, and to the track before.
-/

namespace Jukebox

/-! ### Lists of lists -/

section

variable {α β : Type} {items : List α} {f : α → List β} {item : α} {i t : Nat}

theorem getElem?_flatMap_of_lt (hitem : items[i]? = some item) (ht : t < (f item).length) :
    (items.flatMap f)[((items.take i).map fun a => (f a).length).sum + t]? = (f item)[t]? := by
  induction items generalizing i with
  | nil => cases hitem
  | cons first rest ih =>
    rw [List.flatMap_cons]
    cases i with
    | zero =>
      cases hitem
      simpa using List.getElem?_append_left ht
    | succ i =>
      have hrest := ih hitem
      rw [List.take_succ_cons, List.map_cons, List.sum_cons, Nat.add_assoc,
        List.getElem?_append_right (Nat.le_add_right _ _), Nat.add_sub_cancel_left, hrest]

end

namespace Playlist

/-- The tracks of all items, one item after the other. -/
def tracks (playlist : Playlist) : List Path := playlist.items.flatMap Item.tracks

/-- The position leads to a track of an item. -/
def Leads (playlist : Playlist) (position : Position) : Prop :=
  ∃ item, playlist.items[position.item]? = some item ∧ position.track < item.tracks.length

/-- One position comes before another: in an earlier item, or earlier in the same item. -/
def Position.Before (position other : Position) : Prop :=
  position.item < other.item ∨ position.item = other.item ∧ position.track < other.track

/-- The positions of all tracks, one item after the other. -/
def positions (playlist : Playlist) : List Position :=
  playlist.items.zipIdx.flatMap fun entry =>
    (List.range entry.1.tracks.length).map fun track => ⟨entry.2, track⟩

/-- The number of tracks in the items before an index. -/
def tracksBefore (playlist : Playlist) (index : Nat) : Nat :=
  ((playlist.items.take index).map fun item => item.tracks.length).sum

/-- The index of a position in the row of all tracks. -/
def flat (playlist : Playlist) (position : Position) : Nat :=
  playlist.tracksBefore position.item + position.track

/-- The current position as a dial over the row of all tracks. -/
def dial (playlist : Playlist) : Dial := playlist.current.map playlist.flat

variable {playlist other : Playlist} {position : Position} {item : Item} {index : Nat}

theorem flat_mk (playlist : Playlist) (index track : Nat) :
    playlist.flat ⟨index, track⟩ = playlist.tracksBefore index + track := rfl

theorem Valid.leads (h : playlist.Valid) (hp : playlist.current = some position) :
    playlist.Leads position :=
  h.current_leads position hp

/-! ### Indices of positions -/

theorem Leads.trackAt? (h : playlist.Leads position) :
    playlist.tracks[playlist.flat position]? = playlist.trackAt? position := by
  obtain ⟨item, hitem, ht⟩ := h
  rw [tracks, flat, tracksBefore, getElem?_flatMap_of_lt hitem ht]
  simp [Playlist.trackAt?, hitem]

theorem Leads.flat_lt (h : playlist.Leads position) :
    playlist.flat position < playlist.tracks.length := by
  have hsome := isSome_trackAt?.2 h
  rw [← h.trackAt?] at hsome
  simpa using hsome

theorem Leads.getElem?_positions (h : playlist.Leads position) :
    playlist.positions[playlist.flat position]? = some position := by
  obtain ⟨item, hitem, ht⟩ := h
  have hentry : playlist.items.zipIdx[position.item]? = some (item, position.item) := by
    simp [hitem]
  have hbefore : playlist.tracksBefore position.item =
      ((playlist.items.zipIdx.take position.item).map fun entry : Item × Nat =>
        ((List.range entry.1.tracks.length).map (Position.mk entry.2)).length).sum := by
    rw [tracksBefore, ← List.zipIdx_map_fst 0 playlist.items, ← List.map_take, List.map_map]
    simp [Function.comp_def]
  rw [flat, hbefore, positions, getElem?_flatMap_of_lt hentry (by simpa using ht)]
  simp [ht]

theorem length_positions (playlist : Playlist) :
    playlist.positions.length = playlist.tracks.length := by
  rw [positions, tracks, List.length_flatMap, List.length_flatMap]
  conv_rhs => rw [← List.zipIdx_map_fst 0 playlist.items, List.map_map]
  simp [Function.comp_def]

theorem mem_positions : position ∈ playlist.positions ↔ playlist.Leads position := by
  constructor
  · intro h
    obtain ⟨⟨item, index⟩, hentry, h⟩ := List.mem_flatMap.1 h
    obtain ⟨track, htrack, rfl⟩ := List.mem_map.1 h
    refine ⟨item, ?_, List.mem_range.1 htrack⟩
    simpa [List.mem_zipIdx_iff_getElem?] using hentry
  · intro h
    exact List.mem_of_getElem? h.getElem?_positions

/-- The positions are listed in lexicographic order. -/
theorem pairwise_positions (playlist : Playlist) :
    playlist.positions.Pairwise Position.Before := by
  rw [positions, List.pairwise_flatMap]
  constructor
  · rintro ⟨item, index⟩ -
    exact List.pairwise_map.2 (List.pairwise_lt_range.imp fun hlt => .inr ⟨rfl, hlt⟩)
  · have hindices : (playlist.items.zipIdx.map Prod.snd).Pairwise (· < ·) := by
      rw [List.zipIdx_map_snd]
      exact List.pairwise_lt_range'
    refine (List.pairwise_map.1 hindices).imp fun {entry later} hlt => ?_
    simp only [List.mem_map]
    rintro _ ⟨track, -, rfl⟩ _ ⟨laterTrack, -, rfl⟩
    exact .inl hlt

/-- Two valid playlists of the same items are the same if their dials are. -/
theorem eq_of_dial_eq (h : playlist.Valid) (hother : other.Valid)
    (hitems : playlist.items = other.items) (hdial : playlist.dial = other.dial) :
    playlist = other := by
  obtain ⟨items, current⟩ := playlist
  obtain ⟨otherItems, otherCurrent⟩ := other
  cases hitems
  congr 1
  cases current with
  | none =>
    cases otherCurrent with
    | none => rfl
    | some otherPosition => cases hdial
  | some position =>
    cases otherCurrent with
    | none => cases hdial
    | some otherPosition =>
      have hposition := (h.leads rfl).getElem?_positions
      have hotherPosition := (hother.leads rfl).getElem?_positions
      have hflat : flat ⟨items, some position⟩ position =
          flat ⟨items, some otherPosition⟩ otherPosition := Option.some.inj hdial
      rw [hflat] at hposition
      exact hposition.symm.trans hotherPosition

/-! ### Moves -/

theorem tracksBefore_succ (h : playlist.items[index]? = some item) :
    playlist.tracksBefore (index + 1) = playlist.tracksBefore index + item.tracks.length := by
  simp [tracksBefore, List.take_add_one, h]

theorem tracksBefore_length (playlist : Playlist) :
    playlist.tracksBefore playlist.items.length = playlist.tracks.length := by
  simp [tracksBefore, tracks, List.length_flatMap]

theorem Valid.length_tracks_pos (h : playlist.Valid) (hitems : playlist.items ≠ []) :
    0 < playlist.tracks.length := by
  obtain ⟨first, rest, hfirst⟩ := List.exists_cons_of_ne_nil hitems
  have hholds := h.holds_track first (by simp [hfirst])
  have hleads : playlist.Leads ⟨0, 0⟩ := ⟨first, by simp [hfirst], List.length_pos_iff.2 hholds⟩
  exact Nat.zero_lt_of_lt hleads.flat_lt

theorem Valid.inRow (h : playlist.Valid) : playlist.dial.InRow playlist.tracks.length := by
  intro index hindex
  obtain ⟨position, hp, rfl⟩ := Option.map_eq_some_iff.1 hindex
  exact (h.leads hp).flat_lt

/-- A move to the next track turns the dial forward: within the item, to the first track of the next
item, or to nothing behind the last track of the last item. -/
theorem Valid.dial_next (h : playlist.Valid) :
    playlist.next.dial = Dial.next playlist.tracks.length playlist.dial := by
  change playlist.nextPosition?.map playlist.flat = _
  cases hcurrent : playlist.current with
  | none =>
    rw [dial, hcurrent]
    simp only [nextPosition?, hcurrent, Option.map_none, Dial.next]
    by_cases hitems : playlist.items = []
    · simp [hitems, tracks]
    · have hpos := h.length_tracks_pos hitems
      simp [hitems, hpos, flat_mk, tracksBefore]
  | some position =>
    obtain ⟨index, track⟩ := position
    obtain ⟨here, hhere, htrack⟩ := h.leads hcurrent
    have hdial : playlist.dial = some (playlist.tracksBefore index + track) := by
      rw [dial, hcurrent]
      rfl
    have hleads : ∀ position, playlist.nextPosition? = some position → playlist.Leads position :=
      fun position hp => h.nextPosition?_leads hp
    have hnext := tracksBefore_succ hhere
    dsimp only at hhere htrack hnext
    simp only [nextPosition?, hcurrent, trackCount_of_getElem? hhere] at hleads ⊢
    rw [hdial, Dial.next]
    by_cases hwithin : track + 1 < here.tracks.length
    · have hlt := (hleads ⟨index, track + 1⟩ (by rw [if_pos hwithin])).flat_lt
      rw [flat_mk] at hlt
      rw [if_pos hwithin, if_pos (by omega)]
      simp [flat_mk, Nat.add_assoc]
    · by_cases hitem : index + 1 < playlist.items.length
      · have hlt := (hleads ⟨index + 1, 0⟩ (by rw [if_neg hwithin, if_pos hitem])).flat_lt
        rw [flat_mk] at hlt
        rw [if_neg hwithin, if_pos hitem, if_pos (by omega)]
        simp only [Option.map_some, flat_mk, Option.some.injEq]
        omega
      · have hindex := h.item_lt hcurrent
        have hlast : index + 1 = playlist.items.length := by
          dsimp only at hindex
          omega
        have hcount := playlist.tracksBefore_length
        rw [← hlast] at hcount
        rw [if_neg hwithin, if_neg hitem, if_neg (by omega)]
        rfl

theorem Valid.dial_prev (h : playlist.Valid) : playlist.prev.dial = playlist.dial.prev := by
  change playlist.prevPosition?.map playlist.flat = _
  cases hcurrent : playlist.current with
  | none =>
    rw [dial, hcurrent]
    simp [prevPosition?, hcurrent, Dial.prev, Dial.before?]
  | some position =>
    obtain ⟨index, track⟩ := position
    have hdial : playlist.dial = some (playlist.tracksBefore index + track) := by
      rw [dial, hcurrent]
      rfl
    simp only [prevPosition?, hcurrent, hdial]
    cases track with
    | succ track => simp [flat_mk, Dial.prev, Dial.before?, ← Nat.add_assoc]
    | zero =>
      cases index with
      | zero => simp [flat_mk, tracksBefore, Dial.prev, Dial.before?]
      | succ index =>
        have hlt : index + 1 < playlist.items.length := h.item_lt hcurrent
        have hltBefore : index < playlist.items.length := Nat.lt_of_succ_lt hlt
        have hbefore := List.getElem?_eq_getElem hltBefore
        have hholds := List.length_pos_iff.2 (h.holds_track _ (List.getElem_mem hltBefore))
        have hflat : playlist.tracksBefore (index + 1) =
            playlist.flat ⟨index, playlist.items[index].tracks.length - 1⟩ + 1 := by
          rw [tracksBefore_succ hbefore, flat_mk]
          omega
        simp [trackCount_of_getElem? hbefore, Dial.prev, Dial.before?, hflat]

theorem Valid.next (h : playlist.Valid) : playlist.next.Valid := valid_perform h .next

theorem Valid.prev (h : playlist.Valid) : playlist.prev.Valid := valid_perform h .prev

theorem dial_ne_of_current_ne (h : playlist.Valid) (hother : other.Valid)
    (hitems : playlist.items = other.items) (hne : playlist.current ≠ other.current) :
    playlist.dial ≠ other.dial := by
  intro hdial
  rw [eq_of_dial_eq h hother hitems hdial] at hne
  exact hne rfl

theorem Valid.prev_next (h : playlist.Valid)
    (hmoves : playlist.next.prev.current ≠ playlist.next.current) :
    playlist.next.prev = playlist := by
  have hdial := dial_ne_of_current_ne h.next.prev h.next rfl hmoves
  refine eq_of_dial_eq h.next.prev h rfl ?_
  rw [h.next.dial_prev, h.dial_next] at hdial ⊢
  exact Dial.prev_next hdial

theorem Valid.next_prev (h : playlist.Valid) (hmoves : playlist.prev.current ≠ playlist.current) :
    playlist.prev.next = playlist := by
  have hdial := dial_ne_of_current_ne h.prev h rfl hmoves
  refine eq_of_dial_eq h.prev.next h rfl ?_
  rw [h.dial_prev] at hdial
  rw [h.prev.dial_next, h.dial_prev]
  exact Dial.next_prev h.inRow hdial

theorem canPrev_iff (playlist : Playlist) :
    playlist.canPrev = true ↔ playlist.prev.current ≠ playlist.current := by
  change _ ↔ playlist.prevPosition? ≠ playlist.current
  unfold canPrev prevPosition?
  cases playlist.current with
  | none => simp
  | some position =>
    obtain ⟨index, track⟩ := position
    dsimp only
    split
    · simp only [Bool.or_eq_true, decide_eq_true_eq, ne_eq, Option.some.injEq, Position.mk.injEq]
      omega
    · split
      · simp only [Bool.or_eq_true, decide_eq_true_eq, ne_eq, Option.some.injEq, Position.mk.injEq]
        omega
      · simp only [Bool.or_eq_true, decide_eq_true_eq, ne_eq, not_true, iff_false]
        omega

/-! ### Rounds -/

theorem items_next_iterate (playlist : Playlist) (turns : Nat) :
    (Playlist.next^[turns] playlist).items = playlist.items := by
  induction turns with
  | zero => rfl
  | succ turns ih =>
    rw [Function.iterate_succ_apply']
    exact ih

theorem Valid.next_iterate (h : playlist.Valid) (turns : Nat) :
    (Playlist.next^[turns] playlist).Valid := by
  induction turns with
  | zero => exact h
  | succ turns ih =>
    rw [Function.iterate_succ_apply']
    exact ih.next

theorem Valid.dial_next_iterate (h : playlist.Valid) (turns : Nat) :
    (Playlist.next^[turns] playlist).dial =
      (Dial.next playlist.tracks.length)^[turns] playlist.dial := by
  induction turns with
  | zero => rfl
  | succ turns ih =>
    rw [Function.iterate_succ_apply', Function.iterate_succ_apply',
      (h.next_iterate turns).dial_next, ih, tracks, items_next_iterate]
    rfl

theorem Valid.current_eq (h : playlist.Valid) :
    playlist.current = playlist.dial.bind (playlist.positions[·]?) := by
  cases hcurrent : playlist.current with
  | none => simp [dial, hcurrent]
  | some position => simp [dial, hcurrent, (h.leads hcurrent).getElem?_positions]

/-! ### Adding an item -/

theorem tracks_append (playlist : Playlist) (item : Item) :
    (playlist.append item).tracks = playlist.tracks ++ item.tracks := by
  unfold append
  split
  · rename_i hempty
    have htracks : item.tracks = [] := by simpa [Item.isEmpty] using hempty
    rw [htracks, List.append_nil]
  · simp [tracks]

theorem Valid.dial_append (h : playlist.Valid) (item : Item) :
    (playlist.append item).dial = playlist.dial := by
  unfold append
  split
  · rfl
  · cases hcurrent : playlist.current with
    | none => simp [dial, hcurrent]
    | some position =>
      have hle := Nat.le_of_lt (h.item_lt hcurrent)
      simp [dial, hcurrent, flat, tracksBefore, List.take_append_of_le_length hle]

/-- **A playlist plays as one row.** The current position of a valid playlist is an index into the
row of its tracks. Moves turn this index as a dial, on to the next track and to nothing behind the
last, and back as far as the first; each undoes the other where both move. What the playlist says of
its moves is true. From nothing, moves on lead through all positions, in lexicographic order, once
in each round. An item that is added leaves the index as it is. -/
theorem plays_in_row (h : playlist.Valid) :
    let count := playlist.tracks.length
    playlist.currentPath? = playlist.dial.bind (playlist.tracks[·]?) ∧ playlist.dial.InRow count ∧
    playlist.next.dial = Dial.next count playlist.dial ∧
    playlist.prev.dial = playlist.dial.prev ∧
    (playlist.next.current ≠ playlist.current → playlist.next.prev.current ≠ playlist.next.current →
      playlist.next.prev = playlist) ∧
    (playlist.prev.current ≠ playlist.current → playlist.prev.next.current ≠ playlist.prev.current →
      playlist.prev.next = playlist) ∧
    (playlist.canNext = true ↔ playlist.next.current ≠ none) ∧
    (playlist.canPrev = true ↔ playlist.prev.current ≠ playlist.current) ∧
    (∀ position, position ∈ playlist.positions ↔ playlist.Leads position) ∧
    playlist.positions.Pairwise Position.Before ∧ playlist.positions.length = count ∧
    (playlist.current = none → ∀ turns,
      let place := if turns % (count + 1) = 0 then none else some (turns % (count + 1) - 1)
      (Playlist.next^[turns] playlist).dial = place ∧
      (Playlist.next^[turns] playlist).current = place.bind (playlist.positions[·]?)) ∧
    ∀ item, (playlist.append item).dial = playlist.dial ∧
      (playlist.append item).tracks = playlist.tracks ++ item.tracks := by
  intro count
  refine ⟨?_, h.inRow, h.dial_next, h.dial_prev, fun _ => h.prev_next, fun hmoves _ =>
    h.next_prev hmoves, ?_, canPrev_iff playlist, fun position => mem_positions,
    pairwise_positions playlist, length_positions playlist, ?_,
    fun item => ⟨h.dial_append item, tracks_append playlist item⟩⟩
  · cases hcurrent : playlist.current with
    | none => simp [currentPath?, dial, hcurrent]
    | some position => simp [currentPath?, dial, hcurrent, (h.leads hcurrent).trackAt?]
  · rw [canNext, Option.isSome_iff_ne_none]
    rfl
  · intro hnone turns place
    have hdial : (Playlist.next^[turns] playlist).dial = place := by
      rw [h.dial_next_iterate, dial, hnone]
      exact Dial.next_iterate count turns
    refine ⟨hdial, ?_⟩
    rw [(h.next_iterate turns).current_eq, hdial, positions, items_next_iterate]
    rfl

/-- Two items of two tracks and of one: the third move on leads to the second item, the fourth to
nothing, and the fifth to the first track again. -/
theorem plays_in_row_sides :
    let side (tracks : List Path) : Item := ⟨⟨0⟩, ["disc"], ∅, tracks⟩
    let playlist : Playlist :=
      { items := [side [["disc", "a", "0"], ["disc", "a", "1"]], side [["disc", "b", "0"]]] }
    playlist.Valid ∧
    (Playlist.next^[3] playlist).current = some ⟨1, 0⟩ ∧
    (Playlist.next^[4] playlist).current = none ∧ (Playlist.next^[5] playlist).dial = some 0 := by
  intro side playlist
  have hvalid : playlist.Valid := valid_of_items (by simp [side])
  have hcount : playlist.tracks.length = 3 := rfl
  obtain ⟨-, -, -, -, -, -, -, -, -, -, -, hrounds, -⟩ := plays_in_row hvalid
  rw [hcount] at hrounds
  exact ⟨hvalid, (hrounds rfl 3).2, (hrounds rfl 4).2, (hrounds rfl 5).1⟩

end Playlist

end Jukebox
