import Jukebox.Path.Codec
import Jukebox.Proofs.Result

/-!
Values that stand for keys and for paths. A path is read of an array whose elements stand for its keys;
otherwise the first element that stands for no key is to blame. What is written for a path stands for it,
and differs from what else does in integers only, which are replaced by their decimal numerals.
-/

namespace Jukebox

open Result (mapM_eq_ok_iff mapM_eq_error_iff)

/-! ### Keys -/

/-- The value stands for the key: a string for itself, a natural number below the index bound for
the key of the index. -/
inductive Json.IsKey : Json → Key → Prop
  | string (key : Key) : IsKey (.string key) key
  | index (n : Nat) (h : n < Key.indexBound) : IsKey (.number (.integer n)) (Key.ofIndex n)

/-- What is wrong with a value that stands for no key. -/
inductive Json.KeyFault : Json → Path.Malformed → Prop
  | negative (value : Int) (h : value < 0) : KeyFault (.number (.integer value)) (.negative value)
  | notKey (value : Json) (hkey : ∀ key, ¬ value.IsKey key)
    (hsign : ∀ n : Int, n < 0 → value ≠ .number (.integer n)) : KeyFault value (.notKey value)

theorem Key.ofJson?_eq_ok_iff {value : Json} {key : Key} :
    ofJson? value = .ok key ↔ value.IsKey key := by
  constructor
  · intro h
    unfold ofJson? at h
    split at h
    · cases h
      exact .string key
    · rename_i n
      split at h
      · cases h
      · split at h
        · cases h
          lift n to Nat using by omega
          exact .index n (by omega)
        · cases h
    · cases h
  · rintro (_ | ⟨n, hn⟩)
    · rfl
    · have hsign : ¬ (n : Int) < 0 := by omega
      have hbound : (n : Int) < indexBound := by omega
      simp only [ofJson?, if_neg hsign, if_pos hbound, Int.toNat_natCast]

theorem Key.fault_of_ofJson? {value : Json} {reason : Path.Malformed}
    (h : ofJson? value = .error reason) : value.KeyFault reason := by
  have hkey (key : Key) : ¬ value.IsKey key := by
    rw [← ofJson?_eq_ok_iff, h]
    simp
  unfold ofJson? at h
  split at h
  · cases h
  · rename_i n
    split at h
    · cases h
      exact .negative n ‹_›
    · split at h
      · cases h
      · cases h
        refine .notKey _ hkey fun m hm heq => ?_
        cases heq
        omega
  · rename_i hinteger
    cases h
    exact .notKey _ hkey fun m _ heq => hinteger m heq

theorem Json.exists_isKey_iff {value : Json} : (∃ key, value.IsKey key) ↔
    (∃ s, value = .string s) ∨ ∃ index < Key.indexBound, value = .natural index := by
  constructor
  · rintro ⟨key, _ | ⟨index, hindex⟩⟩
    · exact .inl ⟨key, rfl⟩
    · exact .inr ⟨index, hindex, rfl⟩
  · rintro (⟨s, rfl⟩ | ⟨index, hindex, rfl⟩)
    · exact ⟨s, .string s⟩
    · exact ⟨_, .index index hindex⟩

/-- The value with an integer replaced by the string of its decimal numeral. -/
def Json.spelled : Json → Json
  | .number (.integer n) => .string (Key.ofIndex n.toNat)
  | other => other

theorem Json.IsKey.spelled_eq {value : Json} {key : Key} (h : value.IsKey key) :
    value.spelled = .string key := by
  cases h <;> rfl

/-! ### Paths -/

/-- The values stand for the keys of the path. -/
def Json.ArePath (items : List Json) (path : Path) : Prop := List.Forall₂ Json.IsKey items path

/-- What is wrong with an array that is no path: what is wrong with the first element that stands
for no key. -/
def Json.PathFault (items : List Json) (reason : Path.Malformed) : Prop :=
  ∃ before item after, items = before ++ item :: after ∧
    (∀ earlier ∈ before, ∃ key, earlier.IsKey key) ∧ item.KeyFault reason

theorem Path.ofJson?_array_eq_ok_iff {items : List Json} {path : Path} :
    ofJson? (.array items) = .ok path ↔ Json.ArePath items path := by
  simp only [ofJson?, mapM_eq_ok_iff, Key.ofJson?_eq_ok_iff, Json.ArePath]

theorem Path.fault_of_ofJson? {items : List Json} {reason : Malformed}
    (h : ofJson? (.array items) = .error reason) : Json.PathFault items reason := by
  obtain ⟨before, item, after, rfl, hbefore, hitem⟩ := mapM_eq_error_iff.1 h
  exact ⟨before, item, after, rfl,
    fun earlier hmem => (hbefore earlier hmem).imp fun _ => Key.ofJson?_eq_ok_iff.1,
    Key.fault_of_ofJson? hitem⟩

namespace Path

variable {path : Path} {items : List Json}

theorem exists_arePath_iff :
    (∃ path, Json.ArePath items path) ↔ ∀ item ∈ items, ∃ key, item.IsKey key := by
  induction items with
  | nil => exact ⟨fun _ => by simp, fun _ => ⟨[], .nil⟩⟩
  | cons item rest ih =>
    rw [List.forall_mem_cons, ← ih]
    constructor
    · rintro ⟨_, hkey | ⟨hkey, hkeys⟩⟩
      exact ⟨⟨_, hkey⟩, _, hkeys⟩
    · rintro ⟨⟨key, hkey⟩, path, hkeys⟩
      exact ⟨key :: path, .cons hkey hkeys⟩

theorem exists_array_of_ofJson? {value : Json} (h : ofJson? value = .ok path) :
    ∃ items, value = .array items := by
  unfold ofJson? at h
  split at h
  · exact ⟨_, rfl⟩
  · cases h

/-- A value is a path just if it is an array of keys. -/
theorem exists_ofJson?_iff {value : Json} : (∃ path, ofJson? value = .ok path) ↔
    ∃ items, value = .array items ∧ ∀ item ∈ items, ∃ key, item.IsKey key := by
  constructor
  · rintro ⟨path, h⟩
    obtain ⟨items, rfl⟩ := exists_array_of_ofJson? h
    exact ⟨items, rfl, exists_arePath_iff.1 ⟨path, ofJson?_array_eq_ok_iff.1 h⟩⟩
  · rintro ⟨items, rfl, h⟩
    exact (exists_arePath_iff.2 h).imp fun _ => ofJson?_array_eq_ok_iff.2

/-- What is written for a path is what it was read of, with integers spelled. -/
theorem toJson_of_arePath (h : Json.ArePath items path) :
    path.toJson = .array (items.map Json.spelled) := by
  suffices hspelled : items.map Json.spelled = path.map .string by
    rw [hspelled, toJson, Json.list]
  induction h with
  | nil => rfl
  | cons hkey _ ih => rw [List.map_cons, List.map_cons, hkey.spelled_eq, ih]

theorem ofJson?_toJson (path : Path) : ofJson? path.toJson = .ok path := by
  refine ofJson?_array_eq_ok_iff.2 ?_
  rw [Json.ArePath, List.forall₂_map_left_iff, List.forall₂_same]
  exact fun key _ => .string key

end Path

end Jukebox
