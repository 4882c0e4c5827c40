import Jukebox.Catalog.Walk
import Jukebox.Proofs.Map
import Jukebox.Proofs.Path
import Jukebox.Proofs.Result

/-!
Groups and their kinds, and which paths lead to a track below a root.
-/

namespace Jukebox

open Result (bind_eq_ok_iff bind_eq_error_iff pure_eq_ok_iff)

/-! ### Kinds -/

namespace Group

variable {group : Group} {path : Path}

theorem kind_eq_leaf_iff {tracks : List Track} : group.kind path = .ok (.leaf tracks) ↔
    group.keys = [] ∧ group.tracks = tracks ∧ tracks ≠ [] := by
  rcases group with ⟨name, _ | ⟨key, keys⟩, _ | ⟨track, rest⟩⟩ <;> simp [kind]
  rintro rfl
  simp

theorem kind_eq_internal_iff {keys : List Key} : group.kind path = .ok (.internal keys) ↔
    group.keys = keys ∧ keys ≠ [] ∧ group.tracks = [] := by
  rcases group with ⟨name, _ | ⟨key, rest⟩, _ | ⟨track, tracks⟩⟩ <;> simp [kind]
  rintro rfl
  simp

theorem kind_eq_error_iff {error : Error} : group.kind path = .error error ↔
    group.keys = [] ∧ group.tracks = [] ∧ error = .barrenNode path ∨
      group.keys ≠ [] ∧ group.tracks ≠ [] ∧ error = .mixedNode path := by
  rcases group with ⟨name, _ | ⟨key, keys⟩, _ | ⟨track, tracks⟩⟩ <;> simp [kind, eq_comm]

theorem exists_kind_iff : (∃ kind, group.kind path = .ok kind) ↔
    (group.keys ≠ [] ∧ group.tracks = [] ∨ group.keys = [] ∧ group.tracks ≠ []) := by
  constructor
  · rintro ⟨keys | tracks, hkind⟩
    · obtain ⟨rfl, hkeys, htracks⟩ := kind_eq_internal_iff.1 hkind
      exact .inl ⟨hkeys, htracks⟩
    · obtain ⟨hkeys, rfl, htracks⟩ := kind_eq_leaf_iff.1 hkind
      exact .inr ⟨hkeys, htracks⟩
  · rintro (⟨hkeys, htracks⟩ | ⟨hkeys, htracks⟩)
    · exact ⟨_, kind_eq_internal_iff.2 ⟨rfl, hkeys, htracks⟩⟩
    · exact ⟨_, kind_eq_leaf_iff.2 ⟨hkeys, rfl, htracks⟩⟩

theorem kind_of_kind_eq_error {error : Error} (h : group.kind path = .error error) :
    error.kind = .catalogInconsistency := by
  rcases kind_eq_error_iff.1 h with ⟨-, -, rfl⟩ | ⟨-, -, rfl⟩ <;> rfl

end Group

namespace Catalog

variable {catalog : Catalog} {root path : Path} {group : Group}

theorem lookup_eq_ok_iff : catalog.lookup path = .ok group ↔ catalog.group? path = some group := by
  unfold lookup
  split <;> simp_all

theorem listed_eq_ok_iff : catalog.listed path = .ok group ↔ catalog.group? path = some group := by
  unfold listed
  split <;> simp_all

theorem of_lookup_eq_error {error : Error} (h : catalog.lookup path = .error error) :
    catalog.group? path = none ∧ error.kind = .unknownEntity := by
  unfold lookup at h
  split at h
  · cases h
  · cases h
    exact ⟨by assumption, rfl⟩

/-- The catalog holds a group at a path, and it has either children or tracks. -/
def HasNode (catalog : Catalog) (path : Path) : Prop :=
  ∃ group, catalog.group? path = some group ∧
    (group.keys ≠ [] ∧ group.tracks = [] ∨ group.keys = [] ∧ group.tracks ≠ [])

theorem hasNode_iff : catalog.HasNode path ↔
    ∃ group kind, catalog.group? path = some group ∧ group.kind path = .ok kind := by
  simp only [HasNode, exists_and_left, Group.exists_kind_iff]

/-- No group lists a key twice. -/
def KeysDistinct (catalog : Catalog) : Prop :=
  ∀ path group, catalog.group? path = some group → group.keys.Nodup

theorem keysDistinct_iff :
    catalog.KeysDistinct ↔ ∀ entry ∈ catalog.groups.toList, entry.2.keys.Nodup := by
  simp only [Prod.forall, Std.ExtTreeMap.mem_toList_iff_getElem?_eq_some]
  rfl

instance (catalog : Catalog) : Decidable catalog.KeysDistinct :=
  decidable_of_iff _ keysDistinct_iff.symm

/-! ### Locating -/

/-- A path is located if it is the child of a leaf at or below the root, and its last key writes the
number of one of the leaf's tracks. -/
theorem locate_eq_ok_iff {track : Path} {located : Located} :
    catalog.locate root track = .ok located ↔
      ∃ (leaf : Path) (key : Key) (index : Nat) (group : Group),
        track = leaf.child key ∧ root <+: leaf ∧ key.number? = some index ∧
        catalog.group? leaf = some group ∧ group.keys = [] ∧ index < group.tracks.length ∧
        located = ⟨leaf, index, group.tracks.length⟩ := by
  unfold locate
  dsimp only
  split
  · rename_i habove
    constructor
    · rintro ⟨⟩
    · rintro ⟨leaf, key, index, group, rfl, hroot, -⟩
      simp [Path.child_isBelow_iff.2 hroot] at habove
  rename_i hbelow
  simp only [bind_eq_ok_iff, lookup_eq_ok_iff]
  constructor
  · rintro ⟨group, hgroup, kind, hkind, hmatch⟩
    split at hmatch
    · rename_i tracks index hnumber
      obtain ⟨key, hkey, hindex⟩ := Option.bind_eq_some_iff.1 hnumber
      obtain ⟨hkeys, rfl, -⟩ := Group.kind_eq_leaf_iff.1 hkind
      have htrack := Path.eq_child_of_getLast? hkey
      split at hmatch
      · rename_i hlt
        rw [htrack] at hbelow
        refine ⟨track.dropLast, key, index, group, htrack, ?_, hindex, hgroup, hkeys, hlt, ?_⟩
        · exact Path.child_isBelow_iff.1 (by simpa using hbelow)
        · exact (pure_eq_ok_iff.1 hmatch).symm
      · cases hmatch
    · cases hmatch
  · rintro ⟨leaf, key, index, group, rfl, -, hindex, hgroup, hkeys, hlt, rfl⟩
    have hkind : group.kind leaf = .ok (.leaf group.tracks) :=
      Group.kind_eq_leaf_iff.2 ⟨hkeys, rfl, List.ne_nil_of_length_pos (by omega)⟩
    refine ⟨group, by simpa using hgroup, .leaf group.tracks, by simpa using hkind, ?_⟩
    simp [hindex, hlt, pure, Except.pure]

theorem ensureTrack_eq_ok_iff {track : Path} :
    catalog.ensureTrack root track = .ok () ↔ ∃ located, catalog.locate root track = .ok located := by
  unfold ensureTrack
  cases catalog.locate root track <;> simp [discard, Functor.discard, Functor.mapConst, Except.map]

theorem ensureTrack_eq_error_iff {error : Error} :
    catalog.ensureTrack root path = .error error ↔ catalog.locate root path = .error error := by
  unfold ensureTrack
  cases catalog.locate root path <;> simp [discard, Functor.discard, Functor.mapConst, Except.map]

theorem kind_of_locate_eq_error {error : Error} (h : catalog.locate root path = .error error) :
    error.kind = .unknownEntity ∨ error.kind = .catalogInconsistency := by
  unfold locate at h
  dsimp only at h
  split at h
  · cases h
    exact .inl rfl
  rcases bind_eq_error_iff.1 h with hlookup | ⟨group, -, h⟩
  · exact .inl (of_lookup_eq_error hlookup).2
  rcases bind_eq_error_iff.1 h with hkind | ⟨kind, -, h⟩
  · exact .inr (Group.kind_of_kind_eq_error hkind)
  split at h
  · split at h
    · cases h
    · cases h
      exact .inl rfl
  · cases h
    exact .inl rfl

end Catalog

end Jukebox
