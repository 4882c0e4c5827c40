import Jukebox.Proofs.Path.Value
import Jukebox.Protocol.Fields

/-!
Fields of a command's data as slots. A slot says what a field has to hold, and whether it may be left
out. A reading by a list of slots succeeds where all of them are filled; otherwise the first that is
not filled is to blame. Nothing else in the data matters. Readings by slots can be put together.
-/

namespace Jukebox

open Result (bind_eq_ok_iff bind_eq_error_iff map_eq_ok_iff)

namespace Protocol

/-! ### Fields -/

namespace Fields

/-- The word for what to do. -/
def word? (fields : Fields) : Option String :=
  match fields.lookup "action" with
  | some (.string w) => some w
  | _ => none

/-- The field is the string. -/
def HasString (fields : Fields) (field s : String) : Prop := fields.lookup field = some (.string s)

/-- The field is the truth value. -/
def HasBool (fields : Fields) (field : String) (b : Bool) : Prop :=
  fields.lookup field = some (.bool b)

/-- The field is the path. -/
def HasPath (fields : Fields) (field : String) (path : Path) : Prop :=
  ∃ items, fields.lookup field = some (.array items) ∧ Json.ArePath items path

/-- The field is the index. -/
def HasIndex (fields : Fields) (field : String) (n : Nat) : Prop :=
  ∃ found, fields.lookup field = some found ∧ index? found = some n

/-- The field is the index, if there is one, and otherwise left out or `null`. -/
def HasIndex? (fields : Fields) (field : String) : Option Nat → Prop
  | some n => ∃ found, fields.optional field = some found ∧ index? found = some n
  | none => fields.optional field = none

variable {fields : Fields} {field : String}

theorem word?_eq_some_iff {w : String} : fields.word? = some w ↔ fields.HasString "action" w := by
  unfold word? HasString
  split <;> simp_all

theorem get_eq_ok_iff {found : Json} :
    fields.get field = .ok found ↔ fields.lookup field = some found := by
  unfold get
  cases fields.lookup field <;> simp

theorem string_eq_ok_iff {s : String} : fields.string field = .ok s ↔ fields.HasString field s := by
  simp only [string, bind_eq_ok_iff, get_eq_ok_iff, HasString]
  constructor
  · rintro ⟨found, hfound, h⟩
    cases found <;> cases h
    exact hfound
  · intro h
    exact ⟨_, h, rfl⟩

theorem bool_eq_ok_iff {b : Bool} : fields.bool field = .ok b ↔ fields.HasBool field b := by
  simp only [bool, bind_eq_ok_iff, get_eq_ok_iff, HasBool]
  constructor
  · rintro ⟨found, hfound, h⟩
    cases found <;> cases h
    exact hfound
  · intro h
    exact ⟨_, h, rfl⟩

theorem path_eq_ok_iff {path : Path} : fields.path field = .ok path ↔ fields.HasPath field path := by
  simp only [Fields.path, bind_eq_ok_iff, get_eq_ok_iff, HasPath, ← Path.ofJson?_array_eq_ok_iff]
  constructor
  · rintro ⟨found, hfound, h⟩
    cases found with
    | array items =>
      refine ⟨items, hfound, ?_⟩
      cases hread : Path.ofJson? (.array items) <;> simp only [hread] at h <;> cases h
      rfl
    | _ => cases h
  · rintro ⟨items, hfound, h⟩
    refine ⟨_, hfound, ?_⟩
    simp only [h]
    rfl

theorem indexOf_eq_ok_iff {found : Json} {n : Nat} :
    indexOf field found = .ok n ↔ index? found = some n := by
  unfold indexOf
  cases index? found <;> simp [mistyped]

theorem index_eq_ok_iff {n : Nat} : fields.index field = .ok n ↔ fields.HasIndex field n := by
  simp only [index, bind_eq_ok_iff, get_eq_ok_iff, indexOf_eq_ok_iff, HasIndex]

theorem optionalIndex_eq_ok_iff {given : Option Nat} :
    fields.optionalIndex field = .ok given ↔ fields.HasIndex? field given := by
  unfold optionalIndex
  cases hheld : fields.optional field with
  | none => cases given <;> simp [HasIndex?, hheld]
  | some found => cases given <;> simp [HasIndex?, hheld, map_eq_ok_iff, indexOf_eq_ok_iff]

/-- The word that a value is, if it is known. -/
def knownWord (known : List String) (unknown : String → Malformed) : Json → Except Failure String
  | .string w => if w ∈ known then .ok w else .error (.malformed (unknown w))
  | other => mistyped "action" "string" other

theorem knownWord_eq_ok_iff {known : List String} {unknown : String → Malformed}
    {found : Json} {w : String} :
    knownWord known unknown found = .ok w ↔ found = .string w ∧ w ∈ known := by
  cases found with
  | string s =>
    by_cases hs : s ∈ known <;> simp only [knownWord, hs, if_true, if_false]
    · simp only [Except.ok.injEq, Json.string.injEq, iff_self_and]
      rintro rfl
      exact hs
    · simp only [reduceCtorEq, Json.string.injEq, false_iff, not_and]
      rintro rfl
      exact hs
  | _ => simp [knownWord, mistyped]

end Fields

/-! ### Slots -/

/-- What a field has to hold. -/
inductive Kind where
  | string
  /-- One of the words for what to do. -/
  | word (known : List String) (unknown : String → Malformed)
  | bool
  | path
  | index
  /-- Anything. -/
  | value

namespace Kind

/-- The values of a kind. -/
def Admits : Kind → Json → Prop
  | string, found => ∃ s, found = .string s
  | word known _, found => ∃ w ∈ known, found = .string w
  | bool, found => ∃ b, found = .bool b
  | path, found => ∃ items path, found = .array items ∧ Json.ArePath items path
  | index, found => ∃ n, index? found = some n
  | value, _ => True

/-- What is said of a field with a value that is not of the kind. -/
inductive Blames (field : String) : Kind → Json → Malformed → Prop
  | string (found : Json) (h : ∀ s, found ≠ .string s) :
    Blames field string found (.mistyped field "string" found)
  | word (known : List String) (unknown : String → Malformed) (found : Json)
    (h : ∀ s, found ≠ .string s) :
    Blames field (word known unknown) found (.mistyped field "string" found)
  | unknown (known : List String) (unknown : String → Malformed) (w : String) (h : w ∉ known) :
    Blames field (word known unknown) (.string w) (unknown w)
  | bool (found : Json) (h : ∀ b, found ≠ .bool b) :
    Blames field bool found (.mistyped field "bool" found)
  | array (found : Json) (h : ∀ items, found ≠ .array items) :
    Blames field path found (.mistyped field "array" found)
  | path (items : List Json) (reason : Path.Malformed) (h : Json.PathFault items reason) :
    Blames field path (.array items) (.notPath field reason)
  | index (found : Json) (h : index? found = none) :
    Blames field index found (.mistyped field "non-negative integer" found)

end Kind

/-- A field that a command is read from. -/
structure Slot where
  name : String
  kind : Kind
  /-- Otherwise the field may be left out or `null`. -/
  isRequired : Bool

namespace Slot

/-- A field that has to be there. -/
def required (name : String) (kind : Kind) : Slot := ⟨name, kind, true⟩

/-- A field that may be left out or `null`. -/
def optional (name : String) (kind : Kind) : Slot := ⟨name, kind, false⟩

/-- What the data hold in the field. -/
def held (slot : Slot) (fields : Fields) : Option Json :=
  if slot.isRequired then fields.lookup slot.name else fields.optional slot.name

/-- The data hold what is demanded. -/
def Filled (slot : Slot) (fields : Fields) : Prop :=
  match slot.held fields with
  | some found => slot.kind.Admits found
  | none => slot.isRequired = false

theorem held_required {name : String} {kind : Kind} {fields : Fields} :
    (required name kind).held fields = fields.lookup name := rfl

theorem held_optional {name : String} {kind : Kind} {fields : Fields} :
    (optional name kind).held fields = fields.optional name := rfl

theorem filled_required {name : String} {kind : Kind} {fields : Fields} :
    (required name kind).Filled fields ↔
      ∃ found, fields.lookup name = some found ∧ kind.Admits found := by
  simp only [Filled, held_required]
  cases fields.lookup name <;> simp [required]

theorem filled_optional {name : String} {kind : Kind} {fields : Fields} :
    (optional name kind).Filled fields ↔
      ∀ found, fields.optional name = some found → kind.Admits found := by
  simp only [Filled, held_optional]
  cases fields.optional name <;> simp [optional]

/-- What is said of data that do not hold what is demanded. -/
def Blames (slot : Slot) (fields : Fields) (reason : Malformed) : Prop :=
  match slot.held fields with
  | some found => slot.kind.Blames slot.name found reason
  | none => slot.isRequired = true ∧ reason = .missing slot.name

theorem blames_required {name : String} {kind : Kind} {fields : Fields} {reason : Malformed} :
    (required name kind).Blames fields reason ↔
      fields.lookup name = none ∧ reason = .missing name ∨
      ∃ found, fields.lookup name = some found ∧ kind.Blames name found reason := by
  unfold Blames
  rw [held_required]
  cases fields.lookup name <;> simp [required]

theorem blames_optional {name : String} {kind : Kind} {fields : Fields} {reason : Malformed} :
    (optional name kind).Blames fields reason ↔
      ∃ found, fields.optional name = some found ∧ kind.Blames name found reason := by
  unfold Blames
  rw [held_optional]
  cases fields.optional name <;> simp [optional]

end Slot

/-- What is said of the first slot that is not filled. -/
def FirstFault (slots : List Slot) (fields : Fields) (reason : Malformed) : Prop :=
  ∃ before slot after, slots = before ++ slot :: after ∧
    (∀ earlier ∈ before, earlier.Filled fields) ∧ ¬ slot.Filled fields ∧ slot.Blames fields reason

theorem FirstFault.head {slot : Slot} {rest : List Slot} {fields : Fields} {reason : Malformed}
    (hslot : ¬ slot.Filled fields) (hreason : slot.Blames fields reason) :
    FirstFault (slot :: rest) fields reason :=
  ⟨[], slot, rest, rfl, by simp, hslot, hreason⟩

/-! ### Reading by slots -/

/-- The reading is that of the slots: it succeeds where all are filled, it fails as the first that is
not, and it depends on nothing else. -/
structure ReadBy (slots : List Slot) (fields : Fields) (read : Fields → Except Failure α) : Prop where
  succeeds : (∃ a, read fields = .ok a) ↔ ∀ slot ∈ slots, slot.Filled fields
  fails : ∀ failure, read fields = .error failure →
    ∃ reason, FirstFault slots fields reason ∧ failure = .malformed reason
  unmoved : ∀ others : Fields, (∀ slot ∈ slots, slot.held others = slot.held fields) →
    read others = read fields

namespace ReadBy

variable {α β : Type} {fields : Fields}

theorem pure (a : α) : ReadBy [] fields fun _ => .ok a where
  succeeds := by simp
  fails _ h := by cases h
  unmoved _ _ := rfl

/-- Two readings, one after the other, are a reading by the slots of both. -/
theorem bind {before after : List Slot} {first : Fields → Except Failure α}
    {next : α → Fields → Except Failure β} (hfirst : ReadBy before fields first)
    (hnext : ∀ a, first fields = .ok a → ReadBy after fields (next a)) :
    ReadBy (before ++ after) fields fun fields => first fields >>= fun a => next a fields where
  succeeds := by
    simp only [bind_eq_ok_iff, List.forall_mem_append]
    constructor
    · rintro ⟨b, a, ha, hb⟩
      exact ⟨hfirst.succeeds.1 ⟨a, ha⟩, (hnext a ha).succeeds.1 ⟨b, hb⟩⟩
    · rintro ⟨hbefore, hafter⟩
      obtain ⟨a, ha⟩ := hfirst.succeeds.2 hbefore
      obtain ⟨b, hb⟩ := (hnext a ha).succeeds.2 hafter
      exact ⟨b, a, ha, hb⟩
  fails failure h := by
    rcases bind_eq_error_iff.1 h with h | ⟨a, ha, h⟩
    · obtain ⟨reason, ⟨start, slot, rest, rfl, hfault⟩, rfl⟩ := hfirst.fails failure h
      exact ⟨reason, ⟨start, slot, rest ++ after, by simp, hfault⟩, rfl⟩
    · obtain ⟨reason, ⟨start, slot, rest, rfl, hstart, hfault⟩, rfl⟩ :=
        (hnext a ha).fails failure h
      refine ⟨reason, ⟨before ++ start, slot, rest, by simp, ?_, hfault⟩, rfl⟩
      exact List.forall_mem_append.2 ⟨hfirst.succeeds.1 ⟨a, ha⟩, hstart⟩
  unmoved others h := by
    obtain ⟨hbefore, hafter⟩ := List.forall_mem_append.1 h
    rw [hfirst.unmoved others hbefore]
    cases hread : first fields with
    | error failure => rfl
    | ok a => exact (hnext a hread).unmoved others hafter

theorem map {slots : List Slot} {read : Fields → Except Failure α} (h : ReadBy slots fields read)
    (f : α → β) : ReadBy slots fields fun fields => read fields >>= fun a => .ok (f a) := by
  simpa using h.bind fun a _ => pure (f a)

theorem get {field : String} {kind : Kind} {convert : Json → Except Failure α}
    (hadmits : ∀ found, (∃ a, convert found = .ok a) ↔ kind.Admits found)
    (hblames : ∀ found failure, convert found = .error failure →
      ∃ reason, kind.Blames field found reason ∧ failure = .malformed reason) :
    ReadBy [.required field kind] fields fun fields => fields.get field >>= convert where
  succeeds := by
    rw [List.forall_mem_singleton, Slot.filled_required]
    cases hlookup : fields.lookup field with
    | none => simp [Fields.get, hlookup, bind_eq_ok_iff]
    | some found => simpa [Fields.get, hlookup, Bind.bind, Except.bind] using hadmits found
  fails failure h := by
    cases hlookup : fields.lookup field with
    | none =>
      simp only [Fields.get, hlookup] at h
      cases h
      refine ⟨.missing field, .head ?_ ?_, rfl⟩
      · simp [Slot.filled_required, hlookup]
      · exact Slot.blames_required.2 (.inl ⟨hlookup, rfl⟩)
    | some found =>
      simp only [Fields.get, hlookup] at h
      obtain ⟨reason, hreason, rfl⟩ := hblames found failure h
      refine ⟨reason, .head ?_ ?_, rfl⟩
      · rw [Slot.filled_required]
        rintro ⟨other, hother, hkind⟩
        cases hlookup.symm.trans hother
        obtain ⟨a, ha⟩ := (hadmits found).2 hkind
        cases ha.symm.trans h
      · exact Slot.blames_required.2 (.inr ⟨found, hlookup, hreason⟩)
  unmoved others h := by
    have hlookup := h _ List.mem_cons_self
    simp only [Slot.held_required] at hlookup
    simp only [Fields.get, hlookup]

theorem string (field : String) :
    ReadBy [.required field .string] fields fun fields => fields.string field := by
  refine get (fun found => ?_) fun found failure h => ?_
  · cases found <;> simp [Fields.mistyped, Kind.Admits, Pure.pure, Except.pure]
  · cases found with
    | string s => cases h
    | _ =>
      cases h
      exact ⟨_, .string _ (by simp), rfl⟩

theorem bool (field : String) :
    ReadBy [.required field .bool] fields fun fields => fields.bool field := by
  refine get (fun found => ?_) fun found failure h => ?_
  · cases found <;> simp [Fields.mistyped, Kind.Admits, Pure.pure, Except.pure]
  · cases found with
    | bool b => cases h
    | _ =>
      cases h
      exact ⟨_, .bool _ (by simp), rfl⟩

theorem path (field : String) :
    ReadBy [.required field .path] fields fun fields => fields.path field := by
  refine get (fun found => ?_) fun found failure h => ?_
  · cases found with
    | array items =>
      simp only [Kind.Admits, Json.array.injEq, ← Path.ofJson?_array_eq_ok_iff]
      cases hread : Path.ofJson? (.array items) <;> simp [hread, Pure.pure, Except.pure]
    | _ => simp [Fields.mistyped, Kind.Admits]
  · cases found with
    | array items =>
      cases hread : Path.ofJson? (.array items) with
      | ok path =>
        simp only [hread] at h
        cases h
      | error reason =>
        simp only [hread] at h
        cases h
        exact ⟨_, .path items reason (Path.fault_of_ofJson? hread), rfl⟩
    | _ =>
      cases h
      exact ⟨_, .array _ (by simp), rfl⟩

theorem index (field : String) :
    ReadBy [.required field .index] fields fun fields => fields.index field := by
  refine get (fun found => ?_) fun found failure h => ?_
  · simp only [Fields.indexOf, Kind.Admits]
    cases index? found <;> simp [Fields.mistyped]
  · unfold Fields.indexOf at h
    split at h
    · cases h
    · cases h
      exact ⟨_, .index _ ‹_›, rfl⟩

theorem optionalIndex (field : String) :
    ReadBy [.optional field .index] fields fun fields => fields.optionalIndex field where
  succeeds := by
    rw [List.forall_mem_singleton, Slot.filled_optional]
    cases hheld : fields.optional field with
    | none => simp [Fields.optionalIndex, hheld]
    | some found =>
      simp only [Fields.optionalIndex, hheld, Fields.indexOf, Kind.Admits]
      cases hindex : index? found <;> simp [hindex, Fields.mistyped, Except.map]
  fails failure h := by
    cases hheld : fields.optional field with
    | none =>
      rw [Fields.optionalIndex, hheld] at h
      cases h
    | some found =>
      simp only [Fields.optionalIndex, hheld, Fields.indexOf] at h
      split at h
      · cases h
      · rename_i hfound
        cases h
        refine ⟨.mistyped field "non-negative integer" found, .head ?_ ?_, rfl⟩
        · simp [Slot.filled_optional, hheld, Kind.Admits, hfound]
        · exact Slot.blames_optional.2 ⟨found, hheld, .index found hfound⟩
  unmoved others h := by
    have hheld := h _ List.mem_cons_self
    simp only [Slot.held_optional] at hheld
    simp only [Fields.optionalIndex, hheld]

theorem discard {slots : List Slot} {read : Fields → Except Failure α}
    (h : ReadBy slots fields read) : ReadBy slots fields fun fields => discard (read fields) := by
  have heq (fields : Fields) : Functor.discard (read fields) = read fields >>= fun _ => .ok () := by
    cases read fields <;> rfl
  simpa only [heq] using h.map fun _ => ()

theorem optional (field : String) (make : Option Json → α) :
    ReadBy [.optional field .value] fields fun fields => .ok (make (fields.optional field)) where
  succeeds := by simp [Slot.filled_optional, Kind.Admits]
  fails _ h := by cases h
  unmoved others h := by
    have hheld := h _ List.mem_cons_self
    simp only [Slot.held_optional] at hheld
    rw [hheld]

theorem word (known : List String) (unknown : String → Malformed) :
    ReadBy [.required "action" (.word known unknown)] fields
      fun fields => fields.get "action" >>= Fields.knownWord known unknown := by
  refine get (fun found => ?_) fun found failure h => ?_
  · cases found with
    | string w => by_cases hw : w ∈ known <;> simp [Fields.knownWord, Kind.Admits, hw]
    | _ => simp [Fields.knownWord, Fields.mistyped, Kind.Admits]
  · cases found with
    | string w =>
      by_cases hw : w ∈ known
      · simp [Fields.knownWord, hw] at h
      · simp only [Fields.knownWord, if_neg hw, Except.error.injEq] at h
        exact ⟨_, .unknown known unknown w hw, h.symm⟩
    | _ =>
      cases h
      exact ⟨_, .word known unknown _ (by simp), rfl⟩

/-- A reading that goes on by the word for what to do, and fails if that is not known. -/
theorem byWord {known : List String} {unknown : String → Malformed} {after : List Slot}
    {next : String → Fields → Except Failure α}
    (hknown : ∀ w ∈ known, fields.word? = some w → ReadBy after fields (next w))
    (hunknown : ∀ w ∉ known, ∀ fields, next w fields = .error (.malformed (unknown w))) :
    ReadBy (.required "action" (.word known unknown) :: after) fields
      fun fields => fields.string "action" >>= fun w => next w fields := by
  have heq (fields : Fields) : (fields.string "action" >>= fun w => next w fields) =
      fields.get "action" >>= Fields.knownWord known unknown >>= fun w => next w fields := by
    cases hlookup : fields.lookup "action" with
    | none => simp only [Fields.string, Fields.get, hlookup, Bind.bind, Except.bind]
    | some found =>
      simp only [Fields.string, Fields.get, hlookup, Bind.bind, Except.bind]
      cases found with
      | string w =>
        by_cases hw : w ∈ known
        · simp only [Fields.knownWord, if_pos hw, Pure.pure, Except.pure]
        · simp only [Fields.knownWord, if_neg hw, Pure.pure, Except.pure, hunknown w hw]
      | _ => rfl
  simp only [heq]
  refine (word known unknown).bind fun w hw => ?_
  obtain ⟨found, hfound, hw⟩ := bind_eq_ok_iff.1 hw
  obtain ⟨rfl, hmem⟩ := Fields.knownWord_eq_ok_iff.1 hw
  exact hknown w hmem (Fields.word?_eq_some_iff.2 (Fields.get_eq_ok_iff.1 hfound))

end ReadBy

end Protocol

end Jukebox
