import Jukebox.Proofs.Catalog.Ending
import Jukebox.Proofs.Catalog.Landing

/-!
Walks in a catalog of which nothing is assumed. A descent follows the first keys, or the last ones, down
to the first node that is not internal, and what it finds there is its answer: a track of a leaf, or an
inconsistency. It never comes back without an answer, so no other key is ever tried.
-/

namespace Jukebox

open Result (bind_eq_ok_iff bind_eq_error_iff findSomeM?_cons)

namespace Catalog

variable {catalog : Catalog} {direction : Direction} {root last : Path}

/-! ### Chains -/

/-- The keys that a walk in a direction meets first lead from a path down to another: on the way there
are groups that hold no tracks. -/
inductive Leads (catalog : Catalog) (direction : Direction) : Path → Path → Prop
  | here (path : Path) : Leads catalog direction path path
  | down {path last : Path} {group : Group} {key : Key} (hgroup : catalog.group? path = some group)
    (htracks : group.tracks = []) (hkey : (direction.order group.keys).head? = some key)
    (hlast : Leads catalog direction (path.child key) last) : Leads catalog direction path last

/-- What a walk answers at the end of a chain: the first track that it meets in a leaf, or what is wrong
with the node. -/
inductive AnswersAt (catalog : Catalog) (direction : Direction) (last : Path) :
    Except Error (Option Path) → Prop
  | track {group : Group} (hgroup : catalog.group? last = some group) (hkeys : group.keys = [])
    (htracks : group.tracks ≠ []) : AnswersAt catalog direction last
      (.ok (some (last.child (Key.ofIndex (direction.firstIndex group.tracks.length)))))
  | missing (hgroup : catalog.group? last = none) :
    AnswersAt catalog direction last (.error (.missingNode last))
  | barren {group : Group} (hgroup : catalog.group? last = some group) (hkeys : group.keys = [])
    (htracks : group.tracks = []) : AnswersAt catalog direction last (.error (.barrenNode last))
  | mixed {group : Group} (hgroup : catalog.group? last = some group) (hkeys : group.keys ≠ [])
    (htracks : group.tracks ≠ []) : AnswersAt catalog direction last (.error (.mixedNode last))

theorem AnswersAt.ne_none {answer : Except Error (Option Path)}
    (h : catalog.AnswersAt direction last answer) : answer ≠ .ok none := by
  cases h <;> simp

theorem AnswersAt.kind_of_error {error : Error}
    (h : catalog.AnswersAt direction last (.error error)) : error.kind = .catalogInconsistency := by
  cases h <;> rfl

theorem AnswersAt.of_visit_error {error : Error} (hvisit : catalog.visit last = .error error) :
    catalog.AnswersAt direction last (.error error) := by
  rcases bind_eq_error_iff.1 hvisit with hlisted | ⟨group, hlisted, hkind⟩
  · unfold listed at hlisted
    split at hlisted
    · cases hlisted
    · rename_i hgroup
      cases hlisted
      exact .missing hgroup
  · have hgroup := listed_eq_ok_iff.1 hlisted
    rcases Group.kind_eq_error_iff.1 hkind with ⟨hkeys, htracks, rfl⟩ | ⟨hkeys, htracks, rfl⟩
    · exact .barren hgroup hkeys htracks
    · exact .mixed hgroup hkeys htracks

/-- A descent answers at the end of its chain. The induction is on the levels down to the depth of the
catalog, below which there are no groups. -/
theorem exists_leads_edge (catalog : Catalog) (direction : Direction) (path : Path) :
    ∃ last, catalog.Leads direction path last ∧
      catalog.AnswersAt direction last (catalog.edge direction path) := by
  induction hlevels : catalog.depth + 1 - path.length generalizing path with
  | zero =>
    have hgroup : catalog.group? path = none := group?_of_depth_lt (by omega)
    rw [edge_eq, visit_of_group? hgroup]
    exact ⟨path, .here path, .missing hgroup⟩
  | succ levels ih =>
    rw [edge_eq]
    rcases hvisit : catalog.visit path with error | (keys | tracks)
    · exact ⟨path, .here path, .of_visit_error hvisit⟩
    · obtain ⟨group, hlisted, hkind⟩ := bind_eq_ok_iff.1 hvisit
      obtain ⟨rfl, hkeys, htracks⟩ := Group.kind_eq_internal_iff.1 hkind
      obtain ⟨first, rest, horder⟩ := List.exists_cons_of_ne_nil (direction.order_ne_nil hkeys)
      obtain ⟨last, hleads, hanswer⟩ := ih (path.child first) (by rw [Path.length_child]; omega)
      have hfirst : (direction.order group.keys).head? = some first := by rw [horder, List.head?_cons]
      refine ⟨last, .down (listed_eq_ok_iff.1 hlisted) htracks hfirst hleads, ?_⟩
      dsimp only
      -- the first key has an answer, so the others are not tried
      rw [horder, List.map_cons, findSomeM?_cons]
      split
      · exact absurd ‹_› hanswer.ne_none
      · exact hanswer
    · obtain ⟨group, hlisted, hkind⟩ := bind_eq_ok_iff.1 hvisit
      obtain ⟨hkeys, rfl, htracks⟩ := Group.kind_eq_leaf_iff.1 hkind
      exact ⟨path, .here path, .track (listed_eq_ok_iff.1 hlisted) hkeys htracks⟩

/-! ### Soundness -/

theorem step_of_ensureTrack_error {track : Path} {error : Error}
    (h : catalog.ensureTrack root track = .error error) :
    catalog.step direction root track = .error error := by
  rw [step, ensureTrack_eq_error_iff.1 h]
  rfl

/-- **Walks are sound in any catalog.** What a walk in either direction finds is a track below its root.
From a root it follows the keys that it meets first, down to the first node that is not internal, and
answers with the track that it meets first there, or with what is wrong with the node. From a path that
leads to no track below the root it does not walk at all, but says what is wrong with the path. -/
theorem walks_sound (catalog : Catalog) (direction : Direction) (root : Path) :
    (∀ found, catalog.edge direction root = .ok (some found) →
      catalog.ensureTrack root found = .ok ()) ∧
    (∀ track found, catalog.step direction root track = .ok (some found) →
      catalog.ensureTrack root found = .ok ()) ∧
    (catalog.edge direction root ≠ .ok none ∧
      (∀ error, catalog.edge direction root = .error error → error.kind = .catalogInconsistency) ∧
      ∃ last, catalog.Leads direction root last ∧
        catalog.AnswersAt direction last (catalog.edge direction root)) ∧
    ∀ track error, catalog.ensureTrack root track = .error error →
      catalog.step direction root track = .error error ∧
        (error.kind = .unknownEntity ∨ error.kind = .catalogInconsistency) := by
  refine ⟨fun found => ensureTrack_of_edge (List.prefix_refl root),
    fun track found => ensureTrack_of_step, ?_, fun track error herror => ?_⟩
  · obtain ⟨last, hleads, hanswer⟩ := exists_leads_edge catalog direction root
    refine ⟨hanswer.ne_none, fun error herror => ?_, last, hleads, hanswer⟩
    rw [herror] at hanswer
    exact hanswer.kind_of_error
  · exact ⟨step_of_ensureTrack_error herror,
      kind_of_locate_eq_error (ensureTrack_eq_error_iff.1 herror)⟩

/-- Forward a walk along a shelf comes to the disc, backward to a box that is not there, where it ends; from
a track of the box it makes no step. -/
theorem walks_sound_shelf :
    let track : Track := ⟨"aria", "aria", "", [], [], none, none, none, 0⟩
    let groups : List (Path × Group) := [(["shelf"], ⟨"shelf", ["disc", "box"], []⟩),
      (["shelf", "disc"], ⟨"disc", [], [track]⟩)]
    let catalog := Catalog.ofGroups (.ofList groups)
    catalog.firstTrack ["shelf"] = .ok (some ["shelf", "disc", "0"]) ∧
      catalog.ensureTrack ["shelf"] ["shelf", "disc", "0"] = .ok () ∧
      catalog.lastTrack ["shelf"] = .error (.missingNode ["shelf", "box"]) ∧
      (∃ last, catalog.Leads .backward ["shelf"] last ∧
        catalog.AnswersAt .backward last (.error (.missingNode ["shelf", "box"]))) ∧
      catalog.nextTrack ["shelf"] ["shelf", "box", "0"] = .error (.unknownPath ["shelf", "box"]) := by
  intro track groups catalog
  have hfirst : catalog.firstTrack ["shelf"] = .ok (some ["shelf", "disc", "0"]) := by decide +kernel
  have hlast : catalog.lastTrack ["shelf"] = .error (.missingNode ["shelf", "box"]) := by decide +kernel
  have hbox : catalog.ensureTrack ["shelf"] ["shelf", "box", "0"] =
      .error (.unknownPath ["shelf", "box"]) := by decide +kernel
  obtain ⟨hfound, -, -, hnone⟩ := walks_sound catalog .forward ["shelf"]
  obtain ⟨-, -, ⟨-, -, last, hleads, hanswer⟩, -⟩ := walks_sound catalog .backward ["shelf"]
  rw [lastTrack] at hlast
  rw [hlast] at hanswer
  exact ⟨hfirst, hfound _ hfirst, hlast, ⟨last, hleads, hanswer⟩, (hnone _ _ hbox).1⟩

end Catalog

end Jukebox
