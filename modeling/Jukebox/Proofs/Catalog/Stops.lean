import Jukebox.Proofs.Catalog.Library
import Mathlib.Data.List.Nodup

/-!
The stops below a root: the tracks, and the groups with neither groups nor tracks, in depth-first
order of keys and indices. They are listed from the tree of the library, without a walk.
-/

namespace Jukebox

/-- What a walk comes to: a track, or a group with neither groups nor tracks. -/
inductive Stop where
  | track (path : Path)
  | barren (path : Path)
deriving DecidableEq, Repr

namespace Stop

/-- The path of a stop. -/
def path : Stop → Path
  | track path => path
  | barren path => path

/-- The answer of a walk that comes to a stop, or to no other. -/
def answer : Option Stop → Except Error (Option Path)
  | some (track path) => .ok (some path)
  | some (barren path) => .error (.barrenNode path)
  | none => .ok none

theorem kind_of_answer_eq_error {stop : Option Stop} {error : Error}
    (h : answer stop = .error error) : error.kind = .catalogInconsistency := by
  rcases stop with _ | (path | path) <;> cases h
  rfl

end Stop

namespace Library

def trackStops (path : Path) (count : Nat) : List Stop :=
  (List.range count).map fun index => .track (path.child (Key.ofIndex index))

mutual

/-- The stops at and below a node in depth-first order. -/
def Node.stops (path : Path) : Node → List Stop
  | ⟨_, _, groups, tracks⟩ =>
    if groups.isEmpty && tracks.isEmpty then [.barren path]
    else stopsOfGroups path groups ++ trackStops path tracks.length

/-- The stops at and below the children of a node, one child after the other. -/
def stopsOfGroups (path : Path) : List Node → List Stop
  | [] => []
  | node :: rest => node.stops (path.child node.key) ++ stopsOfGroups path rest

end

/-- The stops at and below a path of a library. -/
def stops (library : Library) (path : Path) : List Stop :=
  match library.node? path with
  | some node => node.stops path
  | none => []

/-! ### Nodes of each kind -/

section

variable {node : Node} {path : Path}

theorem stopsOfGroups_eq (path : Path) (groups : List Node) :
    stopsOfGroups path groups = groups.flatMap fun child => child.stops (path.child child.key) := by
  induction groups with
  | nil => rfl
  | cons child rest ih => rw [stopsOfGroups, ih, List.flatMap_cons]

theorem Node.kind_of_barren (hgroups : node.groups = []) (htracks : node.tracks = []) :
    node.group.kind path = .error (.barrenNode path) := by
  simp [group, Group.kind, hgroups, htracks]

theorem Node.kind_of_leaf (hgroups : node.groups = []) (htracks : node.tracks ≠ []) :
    node.group.kind path = .ok (.leaf node.tracks) :=
  Group.kind_eq_leaf_iff.2 ⟨by simp [group, hgroups], rfl, htracks⟩

theorem Node.kind_of_internal (hgroups : node.groups ≠ []) (htracks : node.tracks = []) :
    node.group.kind path = .ok (.internal (node.groups.map Node.key)) :=
  Group.kind_eq_internal_iff.2 ⟨rfl, by simpa using hgroups, htracks⟩

theorem Node.stops_of_barren (hgroups : node.groups = []) (htracks : node.tracks = []) :
    node.stops path = [.barren path] := by
  obtain ⟨name, ownKey, groups, tracks⟩ := node
  cases hgroups
  cases htracks
  rfl

theorem Node.stops_of_leaf (hgroups : node.groups = []) (htracks : node.tracks ≠ []) :
    node.stops path = trackStops path node.tracks.length := by
  obtain ⟨name, ownKey, groups, tracks⟩ := node
  cases hgroups
  rw [Node.stops, if_neg (by simpa using htracks)]
  rfl

theorem Node.stops_of_internal (hgroups : node.groups ≠ []) (htracks : node.tracks = []) :
    node.stops path = node.groups.flatMap fun child => child.stops (path.child child.key) := by
  obtain ⟨name, ownKey, groups, tracks⟩ := node
  cases htracks
  rw [Node.stops, if_neg (by simpa using hgroups), stopsOfGroups_eq]
  exact List.append_nil _

/-- What a node of one kind is: without anything, a leaf with its tracks, or internal. -/
theorem Node.Proper.cases (h : node.Proper) :
    node.groups = [] ∧ node.tracks = [] ∨ node.groups = [] ∧ node.tracks ≠ [] ∨
      node.groups ≠ [] ∧ node.tracks = [] := by
  rcases h.one_kind with hgroups | htracks
  · by_cases htracks : node.tracks = []
    · exact .inl ⟨hgroups, htracks⟩
    · exact .inr (.inl ⟨hgroups, htracks⟩)
  · by_cases hgroups : node.groups = []
    · exact .inl ⟨hgroups, htracks⟩
    · exact .inr (.inr ⟨hgroups, htracks⟩)

theorem Node.Proper.tracks_eq_nil (h : node.Proper) {child : Node} (hchild : child ∈ node.groups) :
    node.tracks = [] :=
  h.one_kind.resolve_left (List.ne_nil_of_mem hchild)

theorem Node.Proper.stops_of_mem_groups (h : node.Proper) {child : Node}
    (hchild : child ∈ node.groups) :
    node.stops path = node.groups.flatMap fun child => child.stops (path.child child.key) :=
  Node.stops_of_internal (List.ne_nil_of_mem hchild) (h.tracks_eq_nil hchild)

end

/-! ### Nodes of a library -/

section

variable {library : Library} {catalog : Catalog} {node : Node} {path : Path}

theorem node?_child (h : Catalog.ofLibrary library = .ok catalog)
    (hnode : library.node? path = some node) {child : Node} (hchild : child ∈ node.groups) :
    library.node? (path.child child.key) = some child := by
  have hpath : path ≠ [] := by
    rintro rfl
    cases hnode
  have hfind := find?_key (proper_of_node? h hnode).keys_nodup hchild
  rw [Path.child, node?_append library hpath, hnode, Option.bind_some, Node.descend?, hfind]
  rfl

/-- Every stop comes from a node without groups at or below: it is that node, which then holds no
track, or the index of one of its tracks. -/
theorem origin_of_mem_stops (h : Catalog.ofLibrary library = .ok catalog)
    (hnode : library.node? path = some node) {stop : Stop} (hstop : stop ∈ node.stops path) :
    ∃ (below : Path) (source : Node), path <+: below ∧ library.node? below = some source ∧ source.groups = [] ∧
      (stop = .barren below ∧ source.tracks = [] ∨
        ∃ index < source.tracks.length, stop = .track (below.child (Key.ofIndex index))) := by
  induction node using Node.ind generalizing path with
  | h node ih =>
  rcases (proper_of_node? h hnode).cases with ⟨hg, ht⟩ | ⟨hg, ht⟩ | ⟨hg, ht⟩
  · rw [Node.stops_of_barren hg ht] at hstop
    exact ⟨path, node, List.prefix_refl path, hnode, hg, .inl ⟨List.mem_singleton.1 hstop, ht⟩⟩
  · rw [Node.stops_of_leaf hg ht] at hstop
    obtain ⟨index, hindex, rfl⟩ := List.mem_map.1 hstop
    exact ⟨path, node, List.prefix_refl path, hnode, hg, .inr ⟨index, List.mem_range.1 hindex, rfl⟩⟩
  · rw [Node.stops_of_internal hg ht] at hstop
    obtain ⟨child, hchild, hstop⟩ := List.mem_flatMap.1 hstop
    obtain ⟨below, source, hunder, horigin⟩ := ih child hchild (node?_child h hnode hchild) hstop
    exact ⟨below, source, (Path.prefix_child path child.key).trans hunder, horigin⟩

theorem prefix_of_mem_stops (h : Catalog.ofLibrary library = .ok catalog)
    (hnode : library.node? path = some node) {stop : Stop} (hstop : stop ∈ node.stops path) :
    path <+: stop.path := by
  obtain ⟨below, source, hunder, -, -, ⟨rfl, -⟩ | ⟨index, -, rfl⟩⟩ :=
    origin_of_mem_stops h hnode hstop
  · exact hunder
  · exact hunder.trans (Path.prefix_child below _)

theorem nodup_trackStops (path : Path) (count : Nat) : (trackStops path count).Nodup := by
  refine List.nodup_range.map fun i j heq => ?_
  exact (Path.child_ofIndex_inj (Stop.track.inj heq)).2

/-- No stop occurs twice. The stops of different children lie below different paths. -/
theorem nodup_stops (h : Catalog.ofLibrary library = .ok catalog)
    (hnode : library.node? path = some node) : (node.stops path).Nodup := by
  induction node using Node.ind generalizing path with
  | h node ih =>
  have hproper := proper_of_node? h hnode
  rcases hproper.cases with ⟨hg, ht⟩ | ⟨hg, ht⟩ | ⟨hg, ht⟩
  · rw [Node.stops_of_barren hg ht]
    exact List.nodup_singleton _
  · rw [Node.stops_of_leaf hg ht]
    exact nodup_trackStops path _
  · rw [Node.stops_of_internal hg ht, List.nodup_flatMap]
    refine ⟨fun child hchild => ih child hchild (node?_child h hnode hchild), ?_⟩
    refine (List.pairwise_map.1 hproper.keys_nodup).imp_of_mem fun {first other} hfirst hother hne => ?_
    intro stop hstop hstopOther
    have hunder := prefix_of_mem_stops h (node?_child h hnode hfirst) hstop
    have hunderOther := prefix_of_mem_stops h (node?_child h hnode hother) hstopOther
    exact hne (Path.key_eq_of_child_prefix hunder hunderOther)

theorem ensureTrack_of_mem_stops (h : Catalog.ofLibrary library = .ok catalog)
    (hnode : library.node? path = some node) {root track : Path} (hroot : root <+: path)
    (htrack : .track track ∈ node.stops path) : catalog.ensureTrack root track = .ok () := by
  obtain ⟨below, source, hunder, hsource, hgroups, ⟨⟨⟩, -⟩ | ⟨index, hindex, ⟨⟩⟩⟩ :=
    origin_of_mem_stops h hnode htrack
  have hgroup := (Catalog.group?_ofLibrary_eq_some_iff h).2 ⟨source, hsource, rfl⟩
  refine Catalog.ensureTrack_eq_ok_iff.2 ⟨_, Catalog.locate_eq_ok_iff.2
    ⟨below, Key.ofIndex index, index, source.group, rfl, hroot.trans hunder,
      Key.number?_ofIndex index, hgroup, ?_, hindex, rfl⟩⟩
  simp [Node.group, hgroups]

end

end Library

end Jukebox
