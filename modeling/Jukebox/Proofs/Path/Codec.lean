import Jukebox.Proofs.Json.Text
import Jukebox.Proofs.Path
import Jukebox.Proofs.Path.Value
import Jukebox.Proofs.Service.Codec

/-!
Paths are coded exactly. A path is read back from its value and from its text, and a source is read as
the value that it writes. What else is read as a path differs from what is written for it in integers
only, so an index has one key, whichever way it is written, and is read back from it.
-/

namespace Jukebox

/-! ### Sources of keys -/

namespace Key

variable {key : Key}

theorem decoder_eq_some_iff {depth : Nat} {source : Json.Source} : decoder depth source = some key ↔
    ∃ value : Json, source = .ofJson value ∧ value.IsKey key := by
  have hoption {result : Except Path.Malformed Key} :
      result.toOption = some key ↔ result = .ok key := by
    cases result <;> simp [Except.toOption]
  have hnumber (number : Json.Number) :
      decoder depth (.number (some number)) = (ofJson? (.number number)).toOption := rfl
  constructor
  · intro h
    unfold decoder at h
    split at h
    · cases h
      exact ⟨.string key, rfl, .string key⟩
    · obtain ⟨number, rfl, h⟩ := Option.bind_eq_some_iff.1 h
      exact ⟨.number number, rfl, ofJson?_eq_ok_iff.1 (hoption.1 h)⟩
    · cases h
  · rintro ⟨value, rfl, hkey⟩
    cases hkey with
    | string => rfl
    | index n hn => exact (hnumber _).trans (hoption.2 (ofJson?_eq_ok_iff.2 (.index n hn)))

end Key

/-! ### Sources and texts of paths -/

namespace Path

variable {path : Path}

theorem mapM_decoder_eq_some_iff {depth : Nat} {sources : List Json.Source} :
    sources.mapM (Key.decoder depth) = some path ↔
      ∃ items, sources = Json.Source.ofItems items ∧ Json.ArePath items path := by
  induction sources generalizing path with
  | nil =>
    constructor
    · intro h
      cases h
      exact ⟨[], rfl, .nil⟩
    · rintro ⟨_ | ⟨item, items⟩, hsources, hkeys⟩
      · cases hkeys
        rfl
      · cases hsources
  | cons source rest ih =>
    rw [List.mapM_cons]
    constructor
    · intro h
      obtain ⟨key, hkey, h⟩ := Option.bind_eq_some_iff.1 h
      obtain ⟨keys, hkeys, h⟩ := Option.bind_eq_some_iff.1 h
      cases h
      obtain ⟨item, rfl, hitem⟩ := Key.decoder_eq_some_iff.1 hkey
      obtain ⟨items, rfl, hitems⟩ := ih.1 hkeys
      exact ⟨item :: items, rfl, .cons hitem hitems⟩
    · rintro ⟨_ | ⟨item, items⟩, hsources, hkeys⟩
      · cases hsources
      · cases hsources
        cases hkeys with
        | cons hitem hitems =>
          rw [Key.decoder_eq_some_iff.2 ⟨item, rfl, hitem⟩, ih.2 ⟨items, rfl, hitems⟩]
          rfl

/-- A source is read as a path just if it writes a value that is one. -/
theorem decoder_eq_some_iff {depth : Nat} {source : Json.Source} :
    decoder (depth + 1) source = some path ↔
      ∃ value, source = .ofJson value ∧ ofJson? value = .ok path := by
  constructor
  · intro h
    cases source with
    | array sources =>
      obtain ⟨items, rfl, hitems⟩ := mapM_decoder_eq_some_iff.1 h
      exact ⟨.array items, rfl, ofJson?_array_eq_ok_iff.2 hitems⟩
    | _ => cases h
  · rintro ⟨value, rfl, h⟩
    obtain ⟨items, rfl⟩ := exists_array_of_ofJson? h
    exact mapM_decoder_eq_some_iff.2 ⟨items, rfl, ofJson?_array_eq_ok_iff.1 h⟩

theorem exact_toJson (path : Path) : path.toJson.Exact := by
  refine .array fun item hitem => ?_
  obtain ⟨key, -, rfl⟩ := List.mem_map.1 hitem
  exact .string key

/-- **Paths and indices are coded exactly.** A path is read back from its value and from its text, in
either layout. A value is a path just if it is an array of strings and indices; what is then written is
this array with each index replaced by its decimal numeral, and a source is read as the value that it
writes. The key of an index is its numeral and no other key is. Below the bound the index is read back from
it, and the number and its numeral stand for this one key. An index is read just of digits, with or without
a plus before them, of a value below the bound. -/
theorem coding_exact :
    (∀ path : Path, ofJson? path.toJson = .ok path) ∧
    (∀ (path : Path) (indent : Option Nat), decoder.runText (path.toJson.write indent) = some path) ∧
    (∀ value, (∃ path, ofJson? value = .ok path) ↔
      ∃ items, value = .array items ∧ ∀ item ∈ items,
        (∃ s, item = .string s) ∨ ∃ index < Key.indexBound, item = .natural index) ∧
    (∀ items path, ofJson? (.array items) = .ok path →
      path.toJson = .array (items.map Json.spelled)) ∧
    (∀ depth source path, decoder (depth + 1) source = some path ↔
      ∃ value, source = .ofJson value ∧ ofJson? value = .ok path) ∧
    (∀ (key : Key) (index : Nat), Text.IsNumeral key.toList index ↔ key = Key.ofIndex index) ∧
    (∀ index < Key.indexBound, (Key.ofIndex index).index? = some index ∧
      Key.ofJson? (.natural index) = .ok (Key.ofIndex index) ∧
      ∀ numeral : String, Text.IsNumeral numeral.toList index →
        Key.ofJson? (.string numeral) = .ok (Key.ofIndex index)) ∧
    (∀ index other, Key.ofIndex index = Key.ofIndex other → index = other) ∧
    ∀ (key : Key) (index : Nat), key.index? = some index ↔ index < Key.indexBound ∧
      ∃ digits, (key.toList = digits ∨ key.toList = '+' :: digits) ∧ Text.IsDigits digits index := by
  refine ⟨ofJson?_toJson, ?_, fun value => ?_,
    fun items path h => toJson_of_arePath (ofJson?_array_eq_ok_iff.1 h),
    fun depth source path => decoder_eq_some_iff, fun key index => Key.isNumeral_iff, ?_,
    fun index other => Key.ofIndex_injective, fun key index => Key.index?_eq_some_iff⟩
  · intro path indent
    exact path.reads.runText (by decide) path.exact_toJson indent
  · simp only [exists_ofJson?_iff, Json.exists_isKey_iff]
  · intro index hindex
    refine ⟨Key.index?_ofIndex hindex, Key.ofJson?_eq_ok_iff.2 (.index index hindex),
      fun numeral hnumeral => ?_⟩
    rw [Key.isNumeral_iff.1 hnumeral]
    rfl

/-- The first track of the shelf, by its number and by its numeral, the greatest index, and an index
behind a plus and zeros. -/
theorem coding_exact_shelf :
    ofJson? (.array [.string "shelf", .natural 0]) = .ok ["shelf", "0"] ∧
    toJson ["shelf", "0"] = .array [.string "shelf", .string "0"] ∧
    (Key.ofIndex (Key.indexBound - 1)).index? = some (Key.indexBound - 1) ∧
    Key.index? "+007" = some 7 := by
  obtain ⟨-, -, -, hspelled, -, -, hindex, -, hkey⟩ := coding_exact
  have hread : ofJson? (.array [.string "shelf", .natural 0]) = .ok ["shelf", "0"] := rfl
  have hseven : Text.IsDigits ['0', '0', '7'] 7 := ⟨by decide, List.all_eq_true.1 rfl, rfl⟩
  exact ⟨hread, hspelled _ _ hread, (hindex _ (by decide)).1,
    (hkey "+007" 7).2 ⟨by decide, _, .inr rfl, hseven⟩⟩

end Path

end Jukebox
