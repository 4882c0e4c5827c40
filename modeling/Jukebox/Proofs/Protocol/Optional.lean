import Jukebox.Proofs.Protocol.Grammar

/-!
Fields that may be left out. Where the word for what to do reads such a field, a value of another type
is refused. Where it does not, the field may hold anything: the command is the one that is read
without it. Of the fields that no word needs, only the index of a cursor is checked all the same.
-/

namespace Jukebox

/-- The value is a number that is whole and not negative, whether it is written as an integer or as
a real number. -/
inductive Json.IsWhole : Json → Nat → Prop
  | integer (n : Nat) : IsWhole (.number (.integer n)) n
  | real (x : Binary64) (n : Nat) (hsign : x.negative = true → x.significand = 0)
    (hwhole : x.whole? = some n) : IsWhole (.number (.real x)) n

namespace Protocol

/-! ### Values of fields -/

/-- What is read as an index is a whole number; one beyond the greatest index is read as that. -/
theorem exists_isWhole_of_index? {found : Json} {index : Nat} (h : index? found = some index) :
    ∃ n, found.IsWhole n ∧ index = min n (Key.indexBound - 1) := by
  unfold index? at h
  split at h
  · rename_i n
    obtain ⟨⟨hsign, hbound⟩, heq⟩ := Option.ite_none_right_eq_some.1 h
    lift n to Nat using hsign
    have hlt : n < Key.indexBound := by exact_mod_cast hbound
    refine ⟨n, .integer n, ?_⟩
    rw [← Option.some.inj heq, Int.toNat_natCast]
    omega
  · rename_i x
    obtain ⟨hsign, h⟩ := Option.ite_none_left_eq_some.1 h
    obtain ⟨n, hwhole, rfl⟩ := Option.map_eq_some_iff.1 h
    have hzero : x.negative = true → x.significand = 0 := by
      intro hnegative
      by_contra hne
      exact hsign ⟨hnegative, hne⟩
    exact ⟨n, .real x n hzero hwhole, rfl⟩
  · cases h

theorem Slot.exists_isWhole_of_filled {fields : Fields} {field : String}
    (h : (Slot.optional field .index).Filled fields) {found : Json}
    (hfound : fields.optional field = some found) : ∃ n, found.IsWhole n := by
  obtain ⟨index, hindex⟩ := Slot.filled_optional.1 h found hfound
  obtain ⟨n, hwhole, -⟩ := exists_isWhole_of_index? hindex
  exact ⟨n, hwhole⟩

/-- A field that has to be there is filled as well if it might be left out. -/
theorem Slot.filled_optional_of_required {fields : Fields} {field : String} {kind : Kind}
    (h : (Slot.required field kind).Filled fields) : (Slot.optional field kind).Filled fields := by
  obtain ⟨held, hheld, hadmits⟩ := Slot.filled_required.1 h
  refine Slot.filled_optional.2 fun found hfound => ?_
  have heq : found = held := by
    unfold Fields.optional at hfound
    rw [hheld] at hfound
    split at hfound
    · cases hfound
    · cases hfound
    · rename_i value _ hvalue
      exact (Option.some.inj hfound).symm.trans (Option.some.inj hvalue).symm
  rw [heq]
  exact hadmits

/-! ### Fields that are not read -/

theorem Slot.held_cons_of_ne {slot : Slot} {field : String} (h : slot.name ≠ field) (value : Json)
    (fields : Fields) : slot.held ((field, value) :: fields) = slot.held fields := by
  have hlookup : List.lookup slot.name ((field, value) :: fields) = fields.lookup slot.name := by
    have hne : (slot.name == field) = false := beq_false_of_ne h
    rw [List.lookup_cons, hne]
  unfold Slot.held Fields.optional
  rw [hlookup]

namespace Command

variable {tag : Tag} {fields : Fields} {field : String}

/-- A field that no slot of an action names may hold any value. -/
theorem ofEnvelope_cons_of_unread (h : ∀ slot ∈ tag.slots fields, slot.name ≠ field) (value : Json) :
    ofEnvelope ⟨tag.name, (field, value) :: fields⟩ = ofEnvelope ⟨tag.name, fields⟩ := by
  have hheld : ∀ slot ∈ tag.slots fields, slot.held ((field, value) :: fields) = slot.held fields :=
    fun slot hslot => Slot.held_cons_of_ne (h slot hslot) value fields
  have hput : ofEnvelope ⟨tag.name, (field, value) :: fields⟩ =
      ofFields ((field, value) :: fields) tag := ofEnvelope_of_name rfl
  have hplain : ofEnvelope ⟨tag.name, fields⟩ = ofFields fields tag := ofEnvelope_of_name rfl
  rw [hput, hplain]
  exact (readBy_ofFields tag).unmoved _ hheld

theorem filled_of_ofEnvelope {command : Command} (h : ofEnvelope ⟨tag.name, fields⟩ = .ok command)
    {slot : Slot} (hslot : slot ∈ tag.slots fields) : slot.Filled fields := by
  have hfields : ofFields fields tag = .ok command := (ofEnvelope_of_name rfl).symm.trans h
  exact (readBy_ofFields tag).succeeds.1 ⟨command, hfields⟩ slot hslot

/-! ### Which words read which fields -/

theorem path_unread_of_cursor (h : fields.word? ≠ some "SET") :
    ∀ slot ∈ Tag.cursor.slots fields, slot.name ≠ "path" := by
  have hslots : Tag.cursorSlots fields.word? = [] := by
    unfold Tag.cursorSlots
    split
    · exact absurd ‹_› h
    · rfl
  intro slot hslot
  rw [Tag.slots, hslots] at hslot
  simp only [List.cons_append, List.nil_append, List.mem_cons, List.not_mem_nil,
    or_false] at hslot
  rcases hslot with rfl | rfl | rfl <;> decide

theorem index_unread_of_playlist (hremove : fields.word? ≠ some "REMOVE")
    (hplay : fields.word? ≠ some "PLAY_ITEM") :
    ∀ slot ∈ Tag.playlist.slots fields, slot.name ≠ "index" := by
  have hslots : ∀ slot ∈ Tag.playlistSlots fields.word?, slot.name ≠ "index" := by
    unfold Tag.playlistSlots
    split
    · decide
    · decide
    · exact absurd ‹_› hremove
    · exact absurd ‹_› hplay
    · simp
  intro slot hslot
  rcases List.mem_cons.1 hslot with rfl | hslot
  · decide
  · rcases List.mem_cons.1 hslot with rfl | hslot
    · decide
    · exact hslots slot hslot

theorem index_filled_of_playlist {command : Command}
    (h : ofEnvelope ⟨"PLAYLIST", fields⟩ = .ok command)
    (hword : fields.word? = some "REMOVE" ∨ fields.word? = some "PLAY_ITEM") :
    (Slot.optional "index" .index).Filled fields := by
  have hfilled : ∀ slot ∈ Tag.playlistSlots fields.word?, slot.Filled fields := by
    intro slot hslot
    have hmem : slot ∈ Tag.playlist.slots fields :=
      List.mem_cons_of_mem _ (List.mem_cons_of_mem _ hslot)
    have hput : ofEnvelope ⟨Tag.playlist.name, fields⟩ = .ok command := h
    exact filled_of_ofEnvelope hput hmem
  rcases hword with hword | hword <;> rw [hword] at hfilled
  · exact hfilled _ List.mem_cons_self
  · exact Slot.filled_optional_of_required (hfilled _ List.mem_cons_self)

theorem filled_of_cursor {command : Command} (h : ofEnvelope ⟨"CURSOR", fields⟩ = .ok command) :
    (Slot.optional "index" .index).Filled fields ∧
      (fields.word? = some "SET" → (Slot.optional "path" .path).Filled fields) := by
  have hput : ofEnvelope ⟨Tag.cursor.name, fields⟩ = .ok command := h
  have hfilled : ∀ slot ∈ Tag.cursor.slots fields, slot.Filled fields :=
    fun slot hslot => filled_of_ofEnvelope hput hslot
  constructor
  · have hindex : Slot.optional "index" .index ∈ Tag.cursor.slots fields := by
      simp [Tag.slots]
    exact hfilled _ hindex
  · intro hword
    have hpath : Slot.required "path" .path ∈ Tag.cursor.slots fields := by
      simp [Tag.slots, Tag.cursorSlots, hword]
    exact Slot.filled_optional_of_required (hfilled _ hpath)

/-- **Fields that may be left out are checked where they are read.** An envelope for a cursor makes a
command only if its index, if there is one, is a whole number, whatever the word; and its path, if
there is one, is an array of keys if the word is SET. One for a playlist makes a command only if its
index, if there is one, is a whole number, provided that the word is REMOVE or PLAY_ITEM. With any
other word the path of a cursor, and the index of a playlist, may be any value and changes nothing. -/
theorem optional_fields_checked (data : Fields) :
    (∀ command, ofEnvelope ⟨"CURSOR", data⟩ = .ok command →
      (∀ found, data.optional "index" = some found → ∃ n, found.IsWhole n) ∧
      (data.word? = some "SET" → ∀ found, data.optional "path" = some found →
        ∃ items path, found = .array items ∧ Json.ArePath items path)) ∧
    (∀ command, ofEnvelope ⟨"PLAYLIST", data⟩ = .ok command →
      data.word? = some "REMOVE" ∨ data.word? = some "PLAY_ITEM" →
      ∀ found, data.optional "index" = some found → ∃ n, found.IsWhole n) ∧
    (data.word? ≠ some "SET" → ∀ value,
      ofEnvelope ⟨"CURSOR", ("path", value) :: data⟩ = ofEnvelope ⟨"CURSOR", data⟩) ∧
    (data.word? ≠ some "REMOVE" → data.word? ≠ some "PLAY_ITEM" → ∀ value,
      ofEnvelope ⟨"PLAYLIST", ("index", value) :: data⟩ = ofEnvelope ⟨"PLAYLIST", data⟩) := by
  refine ⟨?_, ?_, ?_, ?_⟩
  · intro command h
    obtain ⟨hindex, hpath⟩ := filled_of_cursor h
    constructor
    · intro found hfound
      exact Slot.exists_isWhole_of_filled hindex hfound
    · intro hword found hfound
      exact Slot.filled_optional.1 (hpath hword) found hfound
  · intro command h hword found hfound
    exact Slot.exists_isWhole_of_filled (index_filled_of_playlist h hword) hfound
  · intro hword value
    exact ofEnvelope_cons_of_unread (path_unread_of_cursor hword) value
  · intro hremove hplay value
    exact ofEnvelope_cons_of_unread (index_unread_of_playlist hremove hplay) value

/-- A cursor is moved on although its path is a number, and a playlist although its index is a word. -/
theorem unread_fields_unchecked :
    (¬ ∀ (data : Fields) (command : Command), ofEnvelope ⟨"CURSOR", data⟩ = .ok command →
      ∀ found, data.optional "path" = some found →
        ∃ items path, found = .array items ∧ Json.ArePath items path) ∧
    ¬ ∀ (data : Fields) (command : Command), ofEnvelope ⟨"PLAYLIST", data⟩ = .ok command →
      ∀ found, data.optional "index" = some found → ∃ n, found.IsWhole n := by
  constructor
  · intro h
    obtain ⟨items, path, heq, -⟩ := h [("action", .string "NEXT"), ("name", .string "main"),
      ("path", .natural 42)] (.cursor "main" .next) rfl (.natural 42) rfl
    cases heq
  · intro h
    obtain ⟨n, hwhole⟩ := h [("action", .string "NEXT"), ("index", .string "x"),
      ("name", .string "main")] (.playlist "main" .next) rfl (.string "x") rfl
    cases hwhole

end Command

end Protocol

end Jukebox
