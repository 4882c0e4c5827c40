import Jukebox.Proofs.Catalog.Ending
import Jukebox.Proofs.Playlist.Reach

/-!
Expansion with a queue. An item is made by taking paths from the front of a queue and putting the paths of
their children at its end, and no bound is set on how often that is done. In any catalog the queue becomes
empty or something is wrong with a node, and the nodes that were taken are those that are collected level by
level.
-/

namespace Jukebox

open Result (bind_eq_ok_iff bind_eq_error_iff pure_eq_ok_iff)

namespace Playlist.Item

variable {catalog : Catalog} {root path : Path} {queue level : List Path} {levels : Nat}
variable {result : Except Error (List (Path × Group.Kind))}

/-! ### The queue -/

/-- The kind of the node at a path that is taken from the queue. The caller names the root; every other
path was listed. -/
def taken (catalog : Catalog) (root path : Path) : Except Error Group.Kind := do
  let group ← if path = root then catalog.lookup path else catalog.listed path
  group.kind path

/-- **A queue is drained with a result**: the nodes that were taken from it in turn, or what is wrong with
the first one of which something is wrong. How many nodes are taken is not bounded. -/
inductive Drains (catalog : Catalog) (root : Path) :
    List Path → Except Error (List (Path × Group.Kind)) → Prop
  | drained : Drains catalog root [] (.ok [])
  | halt {path : Path} {rest : List Path} {error : Error}
    (htaken : taken catalog root path = .error error) :
    Drains catalog root (path :: rest) (.error error)
  | take {path : Path} {rest : List Path} {kind : Group.Kind}
    {result : Except Error (List (Path × Group.Kind))}
    (htaken : taken catalog root path = .ok kind)
    (hrest : Drains catalog root (rest ++ kind.childPaths path) result) :
    Drains catalog root (path :: rest) (result.map ((path, kind) :: ·))

theorem Drains.unique {other : Except Error (List (Path × Group.Kind))}
    (h : Drains catalog root queue result) (hother : Drains catalog root queue other) :
    result = other := by
  induction h generalizing other with
  | drained =>
    cases hother
    rfl
  | halt htaken =>
    cases hother with
    | halt htakenOther =>
      rw [htaken] at htakenOther
      cases htakenOther
      rfl
    | take htakenOther =>
      rw [htaken] at htakenOther
      cases htakenOther
  | take htaken _ ih =>
    cases hother with
    | halt htakenOther =>
      rw [htaken] at htakenOther
      cases htakenOther
    | take htakenOther hrestOther =>
      rw [htaken] at htakenOther
      cases htakenOther
      rw [ih hrestOther]

/-! ### A level of the queue -/

theorem taken_eq_visit (hroot : catalog.group? root ≠ none) (path : Path) :
    taken catalog root path = catalog.visit path := by
  unfold taken
  split
  · rename_i heq
    obtain ⟨group, hgroup⟩ := Option.ne_none_iff_exists'.1 hroot
    rw [Catalog.visit, heq, Catalog.lookup, Catalog.listed, hgroup]
  · rfl

theorem nodesOf_cons (catalog : Catalog) (path : Path) (rest : List Path) :
    nodesOf catalog (path :: rest) = do
      let kind ← catalog.visit path
      return (path, kind) :: (← nodesOf catalog rest) := by
  rw [nodesOf, List.mapM_cons, Catalog.visit]
  rcases catalog.listed path with error | group
  · rfl
  · dsimp only [bind, Except.bind]
    rcases group.kind path with error | kind <;> rfl

/-- Once the first paths of a queue were taken there remain the other ones, with the children of the first
ones behind them. -/
theorem drains_append (hroot : catalog.group? root ≠ none) {todo pending : List Path}
    {here : List (Path × Group.Kind)} (hhere : nodesOf catalog todo = .ok here)
    (hrest : Drains catalog root (pending ++ here.flatMap fun node => node.2.childPaths node.1) result) :
    Drains catalog root (todo ++ pending) (result.map (here ++ ·)) := by
  induction todo generalizing pending here result with
  | nil =>
    obtain rfl : [] = here := Except.ok.inj hhere
    rw [List.flatMap_nil, List.append_nil] at hrest
    cases result <;> exact hrest
  | cons path rest ih =>
    rw [nodesOf_cons] at hhere
    obtain ⟨kind, hvisit, hhere⟩ := bind_eq_ok_iff.1 hhere
    obtain ⟨others, hothers, hhere⟩ := bind_eq_ok_iff.1 hhere
    cases pure_eq_ok_iff.1 hhere
    rw [List.flatMap_cons, ← List.append_assoc] at hrest
    have hlater := ih hothers hrest
    rw [← List.append_assoc] at hlater
    have htake := Drains.take ((taken_eq_visit hroot path).trans hvisit) hlater
    cases result <;> exact htake

/-- If something is wrong with one of the first paths of a queue, nothing else matters. -/
theorem drains_append_of_error (hroot : catalog.group? root ≠ none) {todo : List Path} (pending : List Path)
    {error : Error} (hhere : nodesOf catalog todo = .error error) :
    Drains catalog root (todo ++ pending) (.error error) := by
  induction todo generalizing pending with
  | nil => cases hhere
  | cons path rest ih =>
    have htaken := taken_eq_visit hroot path
    rw [nodesOf_cons] at hhere
    rcases bind_eq_error_iff.1 hhere with hvisit | ⟨kind, hvisit, hhere⟩
    · exact .halt (htaken.trans hvisit)
    rcases bind_eq_error_iff.1 hhere with hothers | ⟨others, -, hhere⟩
    · have hlater := ih (pending ++ kind.childPaths path) hothers
      rw [← List.append_assoc] at hlater
      exact .take (htaken.trans hvisit) hlater
    · cases hhere

/-- A queue that holds a level is drained of the nodes of that level and of the levels below it. -/
theorem drains_nodesFrom (hroot : catalog.group? root ≠ none)
    (hlevels : ∀ path ∈ level, catalog.depth < path.length + levels) :
    Drains catalog root level (nodesFrom catalog levels level) := by
  induction levels generalizing level with
  | zero =>
    cases level with
    | nil => exact .drained
    | cons path rest =>
      have hgroup := Catalog.group?_of_depth_lt (hlevels path List.mem_cons_self)
      exact .halt ((taken_eq_visit hroot path).trans (Catalog.visit_of_group? hgroup))
  | succ levels ih =>
    rw [nodesFrom_succ]
    cases hhere : nodesOf catalog level with
    | error error =>
      have hlevel := drains_append_of_error hroot [] hhere
      rwa [List.append_nil] at hlevel
    | ok here =>
      have hbelow : ∀ child ∈ here.flatMap (fun node => node.2.childPaths node.1),
          catalog.depth < child.length + levels := by
        intro child hchild
        obtain ⟨⟨path, kind⟩, hmem, hchild⟩ := List.mem_flatMap.1 hchild
        obtain ⟨keys, key, -, -, rfl⟩ := Group.Kind.mem_childPaths.1 hchild
        have hpath : path ∈ level := (nodes_of_mapM hhere).1 ▸ List.mem_map_of_mem hmem
        have hlt := hlevels path hpath
        dsimp only
        rw [Path.length_child]
        omega
      have hrest := ih hbelow
      dsimp only [bind, Except.bind]
      generalize nodesFrom catalog levels _ = below at hrest ⊢
      have hlevel := drains_append hroot hhere (show Drains catalog root ([] ++ _) below from hrest)
      rw [List.append_nil] at hlevel
      cases below <;> exact hlevel

/-! ### The item -/

/-- The item of the nodes that were taken. -/
def ofNodes (id : Uuid) (root : Path) (nodes : List (Path × Group.Kind)) : Item where
  id := id
  root := root
  nodes := .ofList (nodes.map fun (path, kind) => (path, kind.keys))
  tracks := nodes.flatMap fun (path, kind) => kind.trackPaths path

/-- **Expansion comes to an end.** In any catalog the queue that holds a root is drained, with one result, and
this is what the expansion makes its item of. -/
theorem expand_drains (catalog : Catalog) (root : Path) : ∃ nodes,
    (∀ result, Drains catalog root [root] result ↔ result = nodes) ∧
    ∀ id, expand catalog id root = nodes.map (ofNodes id root) := by
  suffices hdrains : ∃ nodes, Drains catalog root [root] nodes ∧
      ∀ id, expand catalog id root = nodes.map (ofNodes id root) by
    obtain ⟨nodes, hnodes, hexpand⟩ := hdrains
    refine ⟨nodes, fun result => ⟨fun hresult => hresult.unique hnodes, ?_⟩, hexpand⟩
    rintro rfl
    exact hnodes
  cases hgroup : catalog.group? root with
  | none =>
    have hlookup : catalog.lookup root = .error (.unknownPath root) := by rw [Catalog.lookup, hgroup]
    refine ⟨.error (.unknownPath root), .halt ?_, fun id => ?_⟩
    · rw [taken, if_pos rfl, hlookup]
      rfl
    · rw [expand, hlookup]
      rfl
  | some group =>
    refine ⟨nodesFrom catalog (catalog.depth + 1 - root.length) [root], ?_, fun id => ?_⟩
    · refine drains_nodesFrom (by simp [hgroup]) fun path hpath => ?_
      have hle := Catalog.length_le_depth hgroup
      rw [List.mem_singleton.1 hpath]
      omega
    · rw [expand, Catalog.lookup_eq_ok_iff.2 hgroup]
      rcases nodesFrom catalog (catalog.depth + 1 - root.length) [root] with error | nodes <;> rfl

end Playlist.Item

end Jukebox
