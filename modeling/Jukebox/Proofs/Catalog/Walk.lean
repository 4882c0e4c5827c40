import Jukebox.Proofs.Catalog.Stops
import Mathlib.Data.List.Induction

/-!
Walks are exact. A walk in either direction comes to the stops below its root in that direction's
order: an edge of a subtree is the first of its stops, and a climb ends at the first stop behind
the subtree that it leaves. So a step leads from a track to the stop next to it.
-/

namespace Jukebox

open Result (bind_eq_ok_iff)

/-! ### Directions -/

namespace Direction

variable {α β : Type} (direction : Direction)

theorem order_singleton (item : α) : direction.order [item] = [item] := by
  cases direction <;> rfl

theorem order_map (f : α → β) (items : List α) :
    direction.order (items.map f) = (direction.order items).map f := by
  cases direction with
  | forward => rfl
  | backward => exact List.map_reverse.symm

theorem order_flatMap (f : α → List β) (items : List α) :
    direction.order (items.flatMap f) = (direction.order items).flatMap fun a => direction.order (f a) := by
  cases direction with
  | forward => rfl
  | backward => exact List.reverse_flatMap

theorem mem_order {items : List α} {item : α} : item ∈ direction.order items ↔ item ∈ items := by
  cases direction with
  | forward => rfl
  | backward => exact List.mem_reverse

theorem order_ne_nil {items : List α} (h : items ≠ []) : direction.order items ≠ [] := by
  cases direction with
  | forward => exact h
  | backward => exact List.reverse_ne_nil_iff.2 h

theorem beyond_map (f : α → β) (position : Nat) (items : List α) :
    direction.beyond position (items.map f) = (direction.beyond position items).map f := by
  cases direction <;> simp [beyond]

/-- In its order, what a walk meets beyond a position comes right after the item there. -/
theorem exists_order_eq {items : List α} {position : Nat} {item : α}
    (h : items[position]? = some item) :
    ∃ before, direction.order items = before ++ item :: direction.beyond position items := by
  obtain ⟨hlt, rfl⟩ := List.getElem?_eq_some_iff.1 h
  have hsplit : items = items.take position ++ items[position] :: items.drop (position + 1) := by
    rw [← List.drop_eq_getElem_cons hlt, List.take_append_drop]
  cases direction with
  | forward => exact ⟨_, hsplit⟩
  | backward =>
    refine ⟨(items.drop (position + 1)).reverse, ?_⟩
    simp only [order, beyond]
    conv_lhs => rw [hsplit]
    simp

theorem head?_order_range {count : Nat} (h : 0 < count) :
    (direction.order (List.range count)).head? = some (direction.firstIndex count) := by
  cases direction with
  | forward => simp [order, firstIndex, List.head?_range, Nat.ne_of_gt h]
  | backward => simp [order, firstIndex, List.getLast?_range, Nat.ne_of_gt h]

theorem head?_beyond_range {index count : Nat} (h : index < count) :
    (direction.beyond index (List.range count)).head? = direction.nextIndex? index count := by
  cases direction with
  | forward =>
    simp only [beyond, nextIndex?, List.head?_drop]
    split
    · rename_i hlt
      simp [hlt]
    · rename_i hge
      simp [Nat.le_of_not_lt hge]
  | backward =>
    simp only [beyond, nextIndex?, List.head?_reverse, List.take_range,
      Nat.min_eq_left (Nat.le_of_lt h), List.getLast?_range]
    split <;> split <;> first | rfl | omega

end Direction

open Library (Node stops)

namespace Catalog

variable {library : Library} {catalog : Catalog} (direction : Direction) {node : Node}
  {root path : Path}

/-! ### Descending -/

theorem length_le_depth {group : Group} (h : catalog.group? path = some group) :
    path.length ≤ catalog.depth := by
  have hmem : path ∈ catalog.groups.keys := Std.ExtTreeMap.mem_keys.2 (Map.mem_of_getElem? h)
  rw [depth, List.foldl_max]
  exact Nat.le_trans (List.le_max?_getD_of_mem (List.mem_map_of_mem hmem)) (Nat.le_max_right 0 _)

theorem group?_of_depth_lt (h : catalog.depth < path.length) : catalog.group? path = none := by
  by_contra hsome
  obtain ⟨group, hgroup⟩ := Option.ne_none_iff_exists'.1 hsome
  have hle := length_le_depth hgroup
  omega

/-- A search that comes to the first stop of each item in turn comes to the first stop of all. -/
theorem findSomeM?_map_eq_answer {α β : Type} {items : List α} {g : α → β}
    {f : β → Except Error (Option Path)} {stopsOf : α → List Stop}
    (hf : ∀ item ∈ items, f (g item) = Stop.answer (stopsOf item).head?) :
    (items.map g).findSomeM? f = Stop.answer (items.flatMap stopsOf).head? := by
  induction items with
  | nil => rfl
  | cons item rest ih =>
    obtain ⟨hitem, hrest⟩ := List.forall_mem_cons.1 hf
    rw [List.map_cons, List.findSomeM?, hitem, List.flatMap_cons]
    cases stopsOf item with
    | nil => exact ih hrest
    | cons stop others => cases stop <;> rfl

theorem edgeWithin_eq_answer (h : Catalog.ofLibrary library = .ok catalog)
    (hnode : library.node? path = some node) {levels : Nat}
    (hlevels : catalog.depth + 1 - path.length ≤ levels) :
    catalog.edgeWithin direction levels path =
      Stop.answer (direction.order (node.stops path)).head? := by
  induction levels generalizing node path with
  | zero =>
    have hdepth := length_le_depth ((group?_ofLibrary_eq_some_iff h).2 ⟨node, hnode, rfl⟩)
    omega
  | succ levels ih =>
    rw [edgeWithin, listed_ofLibrary h hnode]
    rcases (Library.proper_of_node? h hnode).cases with ⟨hg, ht⟩ | ⟨hg, ht⟩ | ⟨hg, ht⟩
    · rw [Node.stops_of_barren hg ht, Direction.order_singleton]
      simp [Node.kind_of_barren hg ht, bind, Except.bind, Stop.answer]
    · rw [Node.stops_of_leaf hg ht, Library.trackStops, Direction.order_map, List.head?_map,
        Direction.head?_order_range direction (List.length_pos_iff.2 ht)]
      simp [Node.kind_of_leaf hg ht, bind, Except.bind, pure, Except.pure, Stop.answer]
    · have hsearch : ∀ child ∈ direction.order node.groups,
          catalog.edgeWithin direction levels (path.child child.key) =
            Stop.answer (direction.order (child.stops (path.child child.key))).head? := by
        intro child hchild
        refine ih (Library.node?_child h hnode (direction.mem_order.1 hchild)) ?_
        rw [Path.length_child]
        omega
      have hfound : ((direction.order node.groups).map Node.key).findSomeM?
          (fun key => catalog.edgeWithin direction levels (path.child key)) = _ :=
        findSomeM?_map_eq_answer hsearch
      rw [Node.stops_of_internal hg ht, Direction.order_flatMap, ← hfound, ← Direction.order_map]
      simp [Node.kind_of_internal hg ht, bind, Except.bind]

theorem edge_eq_answer (h : Catalog.ofLibrary library = .ok catalog)
    (hnode : library.node? path = some node) :
    catalog.edge direction path = Stop.answer (direction.order (node.stops path)).head? :=
  edgeWithin_eq_answer direction h hnode (Nat.le_refl _)

/-! ### Climbing -/

theorem idxOf?_eq_some_iff_of_nodup {α : Type} [BEq α] [LawfulBEq α] {items : List α}
    (h : items.Nodup) {item : α} {index : Nat} :
    items.idxOf? item = some index ↔ items[index]? = some item := by
  rw [List.idxOf?_eq_some_iff, List.getElem?_eq_some_iff]
  constructor
  · rintro ⟨hlt, heq, -⟩
    exact ⟨hlt, heq⟩
  · rintro ⟨hlt, heq⟩
    refine ⟨hlt, heq, fun other hother hsame => ?_⟩
    exact Nat.ne_of_lt hother (h.getElem_inj_iff.1 (hsame.trans heq.symm))

/-- The siblings that a walk meets after a child come right after it in the order of the walk. -/
theorem siblingsBeyond_eq_ok (h : Catalog.ofLibrary library = .ok catalog)
    (hnode : library.node? path = some node) {child : Node} (hchild : child ∈ node.groups) :
    ∃ before after, direction.order node.groups = before ++ child :: after ∧
      catalog.siblingsBeyond direction (path.child child.key) =
        .ok (after.map fun sibling => path.child sibling.key) := by
  obtain ⟨position, hlt, hposition⟩ := List.mem_iff_getElem.1 hchild
  have hat := List.getElem?_eq_some_iff.2 ⟨hlt, hposition⟩
  obtain ⟨before, hbefore⟩ := direction.exists_order_eq hat
  refine ⟨before, _, hbefore, ?_⟩
  have hproper := Library.proper_of_node? h hnode
  have hkind : node.group.kind path = .ok (.internal (node.groups.map Node.key)) :=
    Node.kind_of_internal (List.ne_nil_of_mem hchild) (hproper.tracks_eq_nil hchild)
  have hindex : (node.groups.map Node.key).idxOf? child.key = some position :=
    (idxOf?_eq_some_iff_of_nodup hproper.keys_nodup).2 (by simp [hat])
  unfold siblingsBeyond
  simp [listed_ofLibrary h hnode, hkind, hindex, bind, Except.bind, pure, Except.pure, Direction.beyond_map]

/-- A climb ends at the first stop behind the subtree that it leaves. The induction is on the keys
between the root and the subtree: each level adds what the siblings hold on either side. -/
theorem climb_eq_answer (h : Catalog.ofLibrary library = .ok catalog) {rootNode : Node}
    (hroot : library.node? root = some rootNode) {keys : List Key}
    (hnode : library.node? (root ++ keys) = some node) : ∃ before after,
      direction.order (rootNode.stops root) =
        before ++ direction.order (node.stops (root ++ keys)) ++ after ∧
      catalog.climb direction keys.length (root ++ keys) = Stop.answer after.head? := by
  induction keys using List.reverseRecOn generalizing node with
  | nil =>
    rw [List.append_nil, hroot] at hnode
    cases hnode
    exact ⟨[], [], by simp, rfl⟩
  | append_singleton keys key ih =>
    have hne : root ++ keys ≠ [] := by
      rintro heq
      rw [(List.append_eq_nil_iff.1 heq).1] at hroot
      cases hroot
    rw [← List.append_assoc, Library.node?_append library hne] at hnode
    obtain ⟨parent, hparent, hchild⟩ := Option.bind_eq_some_iff.1 hnode
    obtain ⟨child, hfind, heq⟩ := Option.bind_eq_some_iff.1 hchild
    cases heq
    obtain ⟨hmem, rfl⟩ := Library.of_find?_key hfind
    obtain ⟨outerBefore, outerAfter, houter, hclimb⟩ := ih hparent
    obtain ⟨before, after, horder, hsiblings⟩ :=
      siblingsBeyond_eq_ok direction h hparent hmem
    let ordered := fun sibling : Node =>
      direction.order (sibling.stops (Path.child (root ++ keys) sibling.key))
    refine ⟨outerBefore ++ before.flatMap ordered, after.flatMap ordered ++ outerAfter, ?_, ?_⟩
    · rw [houter, (Library.proper_of_node? h hparent).stops_of_mem_groups hmem,
        Direction.order_flatMap, horder]
      simp [ordered, Path.child]
    · have hsearch : (after.map fun sibling => Path.child (root ++ keys) sibling.key).findSomeM?
          (catalog.edge direction) = Stop.answer (after.flatMap ordered).head? := by
        refine findSomeM?_map_eq_answer fun sibling hsibling => ?_
        have hmem : sibling ∈ parent.groups := direction.mem_order.1 (by simp [horder, hsibling])
        exact edge_eq_answer direction h (Library.node?_child h hparent hmem)
      have hpath : root ++ (keys ++ [node.key]) = Path.child (root ++ keys) node.key := by
        simp [Path.child]
      rw [hpath, List.length_append, List.length_singleton, climb, hsiblings, Path.dropLast_child]
      dsimp only [bind, Except.bind]
      rw [hsearch]
      cases after.flatMap ordered with
      | nil => exact hclimb
      | cons stop others => cases stop <;> rfl

/-! ### Stepping -/

theorem step_eq_answer (h : Catalog.ofLibrary library = .ok catalog) {rootNode : Node}
    (hroot : library.node? root = some rootNode) {track : Path} {located : Located}
    (hlocated : catalog.locate root track = .ok located) : ∃ before after,
      direction.order (rootNode.stops root) =
        before ++ .track (located.leaf.child (Key.ofIndex located.index)) :: after ∧
      catalog.step direction root track = Stop.answer after.head? := by
  obtain ⟨leaf, key, index, group, -, ⟨keys, rfl⟩, -, hgroup, hkeys, hlt, rfl⟩ :=
    locate_eq_ok_iff.1 hlocated
  obtain ⟨node, hnode, rfl⟩ := (group?_ofLibrary_eq_some_iff h).1 hgroup
  obtain ⟨outerBefore, outerAfter, houter, hclimb⟩ := climb_eq_answer direction h hroot hnode
  have htracks : node.tracks ≠ [] := List.ne_nil_of_length_pos (by simp [Node.group] at hlt; omega)
  have hat : (List.range node.tracks.length)[index]? = some index := List.getElem?_range hlt
  obtain ⟨before, hbefore⟩ := direction.exists_order_eq hat
  let stop := fun index => Stop.track (Path.child (root ++ keys) (Key.ofIndex index))
  let beyond := direction.beyond index (List.range node.tracks.length)
  refine ⟨outerBefore ++ before.map stop, beyond.map stop ++ outerAfter, ?_, ?_⟩
  · rw [houter, Node.stops_of_leaf (by simpa [Node.group] using hkeys) htracks,
      Library.trackStops, Direction.order_map, hbefore]
    simp [beyond, stop]
  · have hnext : beyond.head? = direction.nextIndex? index node.tracks.length :=
      direction.head?_beyond_range hlt
    unfold step
    rw [hlocated]
    dsimp only [bind, Except.bind, Node.group]
    rw [← hnext]
    cases beyond with
    | nil => simpa using hclimb
    | cons next others => rfl

/-! ### Exactness -/

theorem neighbours_of_eq_append {α : Type} {items before after : List α} {item : α}
    (h : items = before ++ item :: after) : items[before.length]? = some item ∧
      items[before.length + 1]? = after.head? ∧
      (if before.length = 0 then none else items[before.length - 1]?) = before.getLast? := by
  subst h
  refine ⟨by simp, ?_, ?_⟩
  · rw [List.getElem?_append_right (by omega), List.head?_eq_getElem?]
    simp
  · cases before using List.reverseRecOn with
    | nil => rfl
    | append_singleton first last => simp

/-- A step forward and a step backward split the stops at the same place. -/
theorem steps_eq_answer (h : Catalog.ofLibrary library = .ok catalog) {rootNode : Node}
    (hroot : library.node? root = some rootNode) {track : Path} {located : Located}
    (hlocated : catalog.locate root track = .ok located) : ∃ before after,
      rootNode.stops root =
        before ++ .track (located.leaf.child (Key.ofIndex located.index)) :: after ∧
      catalog.nextTrack root track = Stop.answer after.head? ∧
      catalog.prevTrack root track = Stop.answer before.getLast? := by
  obtain ⟨before, after, hforward, hnext⟩ := step_eq_answer .forward h hroot hlocated
  obtain ⟨beyond, rest, hbackward, hprev⟩ := step_eq_answer .backward h hroot hlocated
  have hsplit := congrArg List.reverse hbackward
  rw [Direction.order, List.reverse_reverse, List.reverse_append, List.reverse_cons,
    List.append_assoc, List.singleton_append] at hsplit
  have hnodup := Library.nodup_stops h hroot
  have hlength : before.length = rest.reverse.length := by
    have hhere := (neighbours_of_eq_append hforward).1
    have hthere := (neighbours_of_eq_append hsplit).1
    obtain ⟨hlt, -⟩ := List.getElem?_eq_some_iff.1 hhere
    exact (List.getElem?_inj hlt hnodup).1 (hhere.trans hthere.symm)
  obtain ⟨rfl, -⟩ := List.append_inj (hforward.symm.trans hsplit) hlength
  exact ⟨_, after, hforward, hnext, by rw [List.getLast?_reverse]; exact hprev⟩

end Catalog

/-- The path of a track with the number in its last key written as an index is written. -/
def Path.plain? (path : Path) : Option Path := do
  let index ← (← path.getLast?).number?
  return child path.dropLast (Key.ofIndex index)

namespace Catalog

/-- **Walks are exact.** Below every root of the catalog of a library, the walks meet the stops in
their order, each one once: the ends are the first and the last stop, and from every track a step
leads to the stop next to it, or to none at the end. A stop without tracks is an inconsistency. -/
theorem walk_exact {library : Library} {catalog : Catalog}
    (h : Catalog.ofLibrary library = .ok catalog) {root : Path} {group : Group}
    (hroot : catalog.group? root = some group) :
    let stops := library.stops root
    catalog.firstTrack root = Stop.answer stops.head? ∧
    catalog.lastTrack root = Stop.answer stops.getLast? ∧
    stops.Nodup ∧
    (∀ stop ∈ stops, root <+: stop.path) ∧
    (∀ path, .track path ∈ stops → catalog.ensureTrack root path = .ok ()) ∧
    (∀ track, catalog.ensureTrack root track = .ok () → ∃ plain i,
      track.plain? = some plain ∧ catalog.track? plain = catalog.track? track ∧
      stops[i]? = some (.track plain) ∧
      catalog.nextTrack root track = Stop.answer stops[i + 1]? ∧
      catalog.prevTrack root track = Stop.answer (if i = 0 then none else stops[i - 1]?)) ∧
    ∀ stop error, Stop.answer stop = .error error → error.kind = .catalogInconsistency := by
  obtain ⟨node, hnode, rfl⟩ := (group?_ofLibrary_eq_some_iff h).1 hroot
  have hstops : library.stops root = node.stops root := by rw [stops, hnode]
  rw [hstops]
  refine ⟨edge_eq_answer .forward h hnode, ?_, Library.nodup_stops h hnode,
    fun stop => Library.prefix_of_mem_stops h hnode,
    fun path => Library.ensureTrack_of_mem_stops h hnode (List.prefix_refl root), ?_,
    fun stop error => Stop.kind_of_answer_eq_error⟩
  · rw [← List.head?_reverse]
    exact edge_eq_answer .backward h hnode
  · intro track htrack
    obtain ⟨located, hlocated⟩ := ensureTrack_eq_ok_iff.1 htrack
    obtain ⟨before, after, hsplit, hnext, hprev⟩ := steps_eq_answer h hnode hlocated
    obtain ⟨hhere, hafter, hbefore⟩ := neighbours_of_eq_append hsplit
    obtain ⟨leaf, key, index, group, rfl, -, hnumber, -, -, -, rfl⟩ := locate_eq_ok_iff.1 hlocated
    refine ⟨_, before.length, ?_, ?_, hhere, by rw [hafter]; exact hnext, by rw [hbefore]; exact hprev⟩
    · simp [Path.plain?, hnumber]
    · simp [track?, hnumber, Key.number?_ofIndex]

/-- A walk through the attic comes to the empty crate first, then to the tracks of the chest. -/
theorem walk_exact_attic : ∃ catalog group, Catalog.ofLibrary .house = .ok catalog ∧
    catalog.group? ["attic"] = some group ∧
    catalog.firstTrack ["attic"] = .error (.barrenNode ["attic", "crate"]) ∧
    catalog.lastTrack ["attic"] = .ok (some ["attic", "chest", "1"]) ∧
    ∃ plain i, Path.plain? ["attic", "chest", "+00"] = some plain ∧
      (Library.house.stops ["attic"])[i]? = some (.track plain) ∧
      catalog.nextTrack ["attic"] ["attic", "chest", "+00"] =
        Stop.answer (Library.house.stops ["attic"])[i + 1]? := by
  refine ⟨_, _, rfl, rfl, ?_⟩
  obtain ⟨hfirst, hlast, -, -, -, hstep, -⟩ := @walk_exact .house _ rfl ["attic"] _ rfl
  obtain ⟨plain, i, hplain, -, hhere, hnext, -⟩ := hstep ["attic", "chest", "+00"] rfl
  exact ⟨hfirst, hlast, plain, i, hplain, hhere, hnext⟩

end Catalog

end Jukebox
