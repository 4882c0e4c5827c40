import Jukebox.Proofs.Catalog.Walk

/-!
Walks come to an end. Here a walk is told without any bound on how far it goes: as the tasks that it sets
itself, each of which ends when the tasks that it leads to have ended. In any catalog every task ends, and
with the answer of the walk that counts its levels.
-/

namespace Jukebox

open Result (findSomeM?_cons findSomeM?_map findSomeM?_congr)

namespace Catalog

variable {catalog : Catalog} {direction : Direction} {root path track : Path}

/-! ### Tasks -/

/-- The kind of a node that is listed. -/
def visit (catalog : Catalog) (path : Path) : Except Error Group.Kind := do
  (← catalog.listed path).kind path

/-- What there is to do in a walk: to look for a track at or below a path, or at or below several paths
one after the other; to climb from a path up to a root; to step from a track. -/
inductive Task where
  | descend (path : Path)
  | search (paths : List Path)
  | climb (root path : Path)
  | step (root track : Path)

/-- **A task ends with an answer.** How many tasks it takes is not bounded. -/
inductive Ends (catalog : Catalog) (direction : Direction) : Task → Except Error (Option Path) → Prop
  | halt {path : Path} {error : Error} (hvisit : catalog.visit path = .error error) :
    Ends catalog direction (.descend path) (.error error)
  | leaf {path : Path} {tracks : List Track} (hvisit : catalog.visit path = .ok (.leaf tracks)) :
    Ends catalog direction (.descend path)
      (.ok (some (path.child (Key.ofIndex (direction.firstIndex tracks.length)))))
  | internal {path : Path} {keys : List Key} {answer : Except Error (Option Path)}
    (hvisit : catalog.visit path = .ok (.internal keys))
    (hsearch : Ends catalog direction (.search ((direction.order keys).map path.child)) answer) :
    Ends catalog direction (.descend path) answer
  | nowhere : Ends catalog direction (.search []) (.ok none)
  | found {path : Path} {rest : List Path} {answer : Except Error (Option Path)}
    (hpath : Ends catalog direction (.descend path) answer) (hanswer : answer ≠ .ok none) :
    Ends catalog direction (.search (path :: rest)) answer
  | onward {path : Path} {rest : List Path} {answer : Except Error (Option Path)}
    (hpath : Ends catalog direction (.descend path) (.ok none))
    (hrest : Ends catalog direction (.search rest) answer) :
    Ends catalog direction (.search (path :: rest)) answer
  | top {root path : Path} (hlength : path.length ≤ root.length) :
    Ends catalog direction (.climb root path) (.ok none)
  | stuck {root path : Path} {error : Error} (hlength : root.length < path.length)
    (hsiblings : catalog.siblingsBeyond direction path = .error error) :
    Ends catalog direction (.climb root path) (.error error)
  | across {root path : Path} {siblings : List Path} {answer : Except Error (Option Path)}
    (hlength : root.length < path.length)
    (hsiblings : catalog.siblingsBeyond direction path = .ok siblings)
    (hsearch : Ends catalog direction (.search siblings) answer) (hanswer : answer ≠ .ok none) :
    Ends catalog direction (.climb root path) answer
  | up {root path : Path} {siblings : List Path} {answer : Except Error (Option Path)}
    (hlength : root.length < path.length)
    (hsiblings : catalog.siblingsBeyond direction path = .ok siblings)
    (hsearch : Ends catalog direction (.search siblings) (.ok none))
    (hparent : Ends catalog direction (.climb root path.dropLast) answer) :
    Ends catalog direction (.climb root path) answer
  | astray {root track : Path} {error : Error} (hlocate : catalog.locate root track = .error error) :
    Ends catalog direction (.step root track) (.error error)
  | within {root track : Path} {located : Located} {index : Nat}
    (hlocate : catalog.locate root track = .ok located)
    (hnext : direction.nextIndex? located.index located.count = some index) :
    Ends catalog direction (.step root track) (.ok (some (located.leaf.child (Key.ofIndex index))))
  | leave {root track : Path} {located : Located} {answer : Except Error (Option Path)}
    (hlocate : catalog.locate root track = .ok located)
    (hnext : direction.nextIndex? located.index located.count = none)
    (hclimb : Ends catalog direction (.climb root located.leaf) answer) :
    Ends catalog direction (.step root track) answer

/-- The answer that a walk gives to a task. -/
def Task.answer (catalog : Catalog) (direction : Direction) : Task → Except Error (Option Path)
  | descend path => catalog.edge direction path
  | search paths => paths.findSomeM? (catalog.edge direction)
  | climb root path => catalog.climb direction (path.length - root.length) path
  | step root track => catalog.step direction root track

/-! ### What the answers are made of -/

theorem visit_of_group? (h : catalog.group? path = none) :
    catalog.visit path = .error (.missingNode path) := by
  rw [visit, listed, h]
  rfl

theorem edgeWithin_succ (levels : Nat) :
    catalog.edgeWithin direction (levels + 1) path = match catalog.visit path with
      | .error error => .error error
      | .ok (.leaf tracks) =>
        .ok (some (path.child (Key.ofIndex (direction.firstIndex tracks.length))))
      | .ok (.internal keys) => ((direction.order keys).map path.child).findSomeM?
        (catalog.edgeWithin direction levels) := by
  rw [edgeWithin, visit]
  cases catalog.listed path with
  | error error => rfl
  | ok group =>
    dsimp only [bind, Except.bind]
    rcases group.kind path with error | (keys | tracks)
    · rfl
    · exact (findSomeM?_map _ _ _).symm
    · rfl

theorem edgeWithin_of_depth_lt (h : catalog.depth < path.length) (levels : Nat) :
    catalog.edgeWithin direction levels path = .error (.missingNode path) := by
  cases levels with
  | zero => rfl
  | succ levels => rw [edgeWithin_succ, visit_of_group? (group?_of_depth_lt h)]

/-- Below the depth of the catalog there are no groups, so more levels change nothing. -/
theorem edgeWithin_congr {levels more : Nat} (hlevels : catalog.depth + 1 - path.length ≤ levels)
    (hmore : catalog.depth + 1 - path.length ≤ more) :
    catalog.edgeWithin direction levels path = catalog.edgeWithin direction more path := by
  induction levels generalizing more path with
  | zero =>
    have hdeep : catalog.depth < path.length := by omega
    rw [edgeWithin_of_depth_lt hdeep, edgeWithin_of_depth_lt hdeep]
  | succ levels ih =>
    cases more with
    | zero =>
      have hdeep : catalog.depth < path.length := by omega
      rw [edgeWithin_of_depth_lt hdeep, edgeWithin_of_depth_lt hdeep]
    | succ more =>
      rw [edgeWithin_succ, edgeWithin_succ]
      rcases catalog.visit path with error | (keys | tracks)
      · rfl
      · refine findSomeM?_congr fun below hbelow => ?_
        obtain ⟨key, -, rfl⟩ := List.mem_map.1 hbelow
        exact ih (by rw [Path.length_child]; omega) (by rw [Path.length_child]; omega)
      · rfl

theorem edge_eq (catalog : Catalog) (direction : Direction) (path : Path) :
    catalog.edge direction path = match catalog.visit path with
      | .error error => .error error
      | .ok (.leaf tracks) =>
        .ok (some (path.child (Key.ofIndex (direction.firstIndex tracks.length))))
      | .ok (.internal keys) =>
        ((direction.order keys).map path.child).findSomeM? (catalog.edge direction) := by
  have hmore : catalog.edge direction path =
      catalog.edgeWithin direction (catalog.depth + 1 - path.length + 1) path :=
    edgeWithin_congr (Nat.le_refl _) (Nat.le_succ _)
  rw [hmore, edgeWithin_succ]
  rcases catalog.visit path with error | (keys | tracks)
  · rfl
  · refine findSomeM?_congr fun below hbelow => ?_
    obtain ⟨key, -, rfl⟩ := List.mem_map.1 hbelow
    exact edgeWithin_congr (by rw [Path.length_child]; omega) (Nat.le_refl _)
  · rfl

theorem climb_eq (hlength : root.length < path.length) :
    catalog.climb direction (path.length - root.length) path =
      match catalog.siblingsBeyond direction path with
      | .error error => .error error
      | .ok siblings => match siblings.findSomeM? (catalog.edge direction) with
        | .ok none => catalog.climb direction (path.dropLast.length - root.length) path.dropLast
        | answer => answer := by
  obtain ⟨levels, hlevels⟩ := Nat.exists_eq_add_one.2 (Nat.sub_pos_of_lt hlength)
  have hparent : path.dropLast.length - root.length = levels := by
    rw [List.length_dropLast]
    omega
  rw [hlevels, hparent, climb]
  rcases catalog.siblingsBeyond direction path with error | siblings
  · rfl
  · dsimp only [bind, Except.bind]
    rcases siblings.findSomeM? (catalog.edge direction) with error | (_ | found) <;> rfl

/-! ### Every task ends -/

theorem Ends.eq_answer {task : Task} {answer : Except Error (Option Path)}
    (h : catalog.Ends direction task answer) : answer = task.answer catalog direction := by
  induction h with
  | halt hvisit => rw [Task.answer, edge_eq, hvisit]
  | leaf hvisit => rw [Task.answer, edge_eq, hvisit]
  | internal hvisit _ ih => rw [ih, Task.answer, Task.answer, edge_eq, hvisit]
  | nowhere => rfl
  | found _ hanswer ih =>
    rw [Task.answer] at ih
    rw [Task.answer, findSomeM?_cons, ← ih]
    split
    · exact absurd rfl hanswer
    · rfl
  | onward _ _ hpath ih =>
    rw [Task.answer] at hpath
    rw [Task.answer, findSomeM?_cons, ← hpath]
    exact ih
  | top hlength =>
    rw [Task.answer, Nat.sub_eq_zero_of_le hlength]
    rfl
  | stuck hlength hsiblings => rw [Task.answer, climb_eq hlength, hsiblings]
  | across hlength hsiblings _ hanswer ih =>
    rw [Task.answer] at ih
    rw [Task.answer, climb_eq hlength, hsiblings]
    dsimp only
    rw [← ih]
    split
    · exact absurd rfl hanswer
    · rfl
  | up hlength hsiblings _ _ hsearch ih =>
    rw [Task.answer] at hsearch
    rw [Task.answer, climb_eq hlength, hsiblings]
    dsimp only
    rw [← hsearch]
    exact ih
  | astray hlocate =>
    rw [Task.answer, Catalog.step, hlocate]
    rfl
  | within hlocate hnext =>
    rw [Task.answer, Catalog.step, hlocate]
    dsimp only [bind, Except.bind]
    rw [hnext]
    rfl
  | leave hlocate hnext _ ih =>
    rw [ih, Task.answer, Task.answer, Catalog.step, hlocate]
    dsimp only [bind, Except.bind]
    rw [hnext]

theorem ends_search_of {paths : List Path}
    (h : ∀ path ∈ paths, catalog.Ends direction (.descend path) (catalog.edge direction path)) :
    catalog.Ends direction (.search paths) (paths.findSomeM? (catalog.edge direction)) := by
  induction paths with
  | nil => exact .nowhere
  | cons path rest ih =>
    obtain ⟨hpath, hrest⟩ := List.forall_mem_cons.1 h
    rw [findSomeM?_cons]
    split
    · rename_i hnone
      rw [hnone] at hpath
      exact .onward hpath (ih hrest)
    · rename_i hanswer
      exact .found hpath hanswer

/-- A descent ends: a child lies one level closer to the depth of the catalog. -/
theorem ends_descend (catalog : Catalog) (direction : Direction) (path : Path) :
    catalog.Ends direction (.descend path) (catalog.edge direction path) := by
  induction hlevels : catalog.depth + 1 - path.length generalizing path with
  | zero =>
    have hvisit : catalog.visit path = _ := visit_of_group? (group?_of_depth_lt (by omega))
    rw [edge_eq, hvisit]
    exact .halt hvisit
  | succ levels ih =>
    rw [edge_eq]
    rcases hvisit : catalog.visit path with error | (keys | tracks)
    · exact .halt hvisit
    · refine .internal hvisit (ends_search_of fun below hbelow => ?_)
      obtain ⟨key, -, rfl⟩ := List.mem_map.1 hbelow
      exact ih _ (by rw [Path.length_child]; omega)
    · exact .leaf hvisit

theorem ends_search (catalog : Catalog) (direction : Direction) (paths : List Path) :
    catalog.Ends direction (.search paths) (paths.findSomeM? (catalog.edge direction)) :=
  ends_search_of fun path _ => ends_descend catalog direction path

/-- A climb ends: a parent is one level closer to the root. -/
theorem ends_climb (catalog : Catalog) (direction : Direction) (root path : Path) :
    catalog.Ends direction (.climb root path)
      (catalog.climb direction (path.length - root.length) path) := by
  induction hlevels : path.length - root.length generalizing path with
  | zero => exact .top (Nat.sub_eq_zero_iff_le.1 hlevels)
  | succ levels ih =>
    have hlength : root.length < path.length := by omega
    have hparent : path.dropLast.length - root.length = levels := by
      rw [List.length_dropLast]
      omega
    rw [← hlevels, climb_eq hlength]
    cases hsiblings : catalog.siblingsBeyond direction path with
    | error error => exact .stuck hlength hsiblings
    | ok siblings =>
      have hsearch := ends_search catalog direction siblings
      dsimp only
      split
      · rename_i hnone
        rw [hnone] at hsearch
        rw [hparent]
        exact .up hlength hsiblings hsearch (ih _ hparent)
      · rename_i hanswer
        exact .across hlength hsiblings hsearch hanswer

theorem ends_step (catalog : Catalog) (direction : Direction) (root track : Path) :
    catalog.Ends direction (.step root track) (catalog.step direction root track) := by
  rw [step]
  cases hlocate : catalog.locate root track with
  | error error => exact .astray hlocate
  | ok located =>
    dsimp only [bind, Except.bind]
    cases hnext : direction.nextIndex? located.index located.count with
    | none => exact .leave hlocate hnext (ends_climb catalog direction root located.leaf)
    | some index => exact .within hlocate hnext

/-- **Every task ends**, with the answer of the walk and no other. -/
theorem ends_iff (catalog : Catalog) (direction : Direction) (task : Task)
    (answer : Except Error (Option Path)) :
    catalog.Ends direction task answer ↔ answer = task.answer catalog direction := by
  refine ⟨Ends.eq_answer, ?_⟩
  rintro rfl
  cases task with
  | descend path => exact ends_descend catalog direction path
  | search paths => exact ends_search catalog direction paths
  | climb root path => exact ends_climb catalog direction root path
  | step root track => exact ends_step catalog direction root track

end Catalog

end Jukebox
