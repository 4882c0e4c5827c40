import Jukebox.Catalog.Search
import Jukebox.Proofs.Catalog.Basic

/-!
The catalog of a library. The nodes of a library are listed in depth-first order with the keys that
lead to them. A library becomes a catalog just if no node has both groups and tracks and no two
siblings have the same key, and then the group at a path is the node that the keys of the path lead
to, from a collection down.
-/

namespace Jukebox

open Result (bind_eq_ok_iff pure_eq_ok_iff)

namespace Library

/-- A library of two collections: a shelf with a disc of two tracks and a box with a tape of one, and
an attic with an empty crate and a chest of two tracks. -/
def house : Library where
  collections := [
    ⟨"shelf", none, [⟨"disc", none, [], [track "prelude", track "fugue"]⟩,
      ⟨"box", none, [⟨"tape", none, [], [track "aria"]⟩], []⟩], []⟩,
    ⟨"attic", none, [⟨"crate", none, [], []⟩, ⟨"chest", none, [], [track "reel", track "jig"]⟩], []⟩]
  filters := ∅
  recent := []
where
  track (name : String) : Track := ⟨name, name, "", [], [], none, none, none, 0⟩

/-! ### Nodes -/

/-- Induction on nodes: what holds of a node if it holds of its groups holds of every node. -/
theorem Node.ind {motive : Node → Prop}
    (h : ∀ node : Node, (∀ child ∈ node.groups, motive child) → motive node) (node : Node) :
    motive node :=
  @Node.rec motive (fun nodes => ∀ node ∈ nodes, motive node)
    (fun _ _ _ _ hgroups => h _ hgroups) (by simp)
    (fun _ _ hnode hrest => List.forall_mem_cons.2 ⟨hnode, hrest⟩) node

/-- The node that keys lead to, from a node down. -/
def Node.descend? (node : Node) : List Key → Option Node
  | [] => some node
  | key :: rest => (node.groups.find? (·.key = key)).bind (·.descend? rest)

/-- A node with groups or tracks but not both, and with groups of different keys. -/
structure Node.Proper (node : Node) : Prop where
  one_kind : node.groups = [] ∨ node.tracks = []
  keys_nodup : (node.groups.map Node.key).Nodup

/-- The node at a path of a library. -/
def node? (library : Library) : Path → Option Node
  | [] => none
  | key :: rest => (library.collections.find? (·.key = key)).bind (·.descend? rest)

theorem find?_key {nodes : List Node} (h : (nodes.map Node.key).Nodup) {node : Node}
    (hnode : node ∈ nodes) : nodes.find? (·.key = node.key) = some node := by
  induction nodes with
  | nil => cases hnode
  | cons first rest ih =>
    obtain ⟨hfirst, hrest⟩ := List.nodup_cons.1 h
    rw [List.find?_cons]
    rcases List.mem_cons.1 hnode with rfl | hnode
    · simp
    · have hne : first.key ≠ node.key := fun heq => hfirst (heq ▸ List.mem_map_of_mem hnode)
      simp only [hne, decide_false]
      exact ih hrest hnode

theorem of_find?_key {nodes : List Node} {key : Key} {node : Node}
    (h : nodes.find? (·.key = key) = some node) : node ∈ nodes ∧ node.key = key :=
  ⟨List.mem_of_find?_eq_some h, by simpa using List.find?_some h⟩

theorem Node.descend?_append (node : Node) (keys rest : List Key) :
    node.descend? (keys ++ rest) = (node.descend? keys).bind (·.descend? rest) := by
  induction keys generalizing node with
  | nil => rfl
  | cons key keys ih =>
    simp only [List.cons_append, descend?]
    cases node.groups.find? (·.key = key) with
    | none => rfl
    | some child => exact ih child

theorem node?_append (library : Library) {path : Path} (hpath : path ≠ []) (rest : List Key) :
    library.node? (path ++ rest) = (library.node? path).bind (·.descend? rest) := by
  cases path with
  | nil => exact absurd rfl hpath
  | cons key keys =>
    simp only [List.cons_append, node?]
    cases library.collections.find? (·.key = key) with
    | none => rfl
    | some collection => exact collection.descend?_append keys rest

/-! ### The nodes in order -/

/-- A path and the node that is found there. -/
abbrev Place := Path × Node

/-- The path and the group of a place. -/
def entryOf (place : Place) : Entry := (place.1, place.2.group)

mutual

/-- The nodes at and below a node in depth-first order, with the paths that lead to them. -/
def Node.places (path : Path) : Node → List Place
  | ⟨name, ownKey, groups, tracks⟩ => (path, ⟨name, ownKey, groups, tracks⟩) :: placesOfGroups path groups

/-- The nodes at and below the children of a node, one child after the other. -/
def placesOfGroups (path : Path) : List Node → List Place
  | [] => []
  | node :: rest => node.places (path.child node.key) ++ placesOfGroups path rest

end

/-- Every node of a library in depth-first order, with the keys that lead to it. -/
def places (library : Library) : List Place :=
  library.collections.flatMap fun node => node.places (Path.ofCollection node.key)

section

variable {node : Node} {path : Path} {place : Place}

theorem placesOfGroups_eq (path : Path) (groups : List Node) :
    placesOfGroups path groups = groups.flatMap fun child => child.places (path.child child.key) := by
  induction groups with
  | nil => rfl
  | cons child rest ih => rw [placesOfGroups, ih, List.flatMap_cons]

theorem Node.places_eq (node : Node) (path : Path) : node.places path =
    (path, node) :: node.groups.flatMap fun child => child.places (path.child child.key) := by
  obtain ⟨name, ownKey, groups, tracks⟩ := node
  rw [Node.places, placesOfGroups_eq]

theorem Node.mem_places : place ∈ node.places path ↔ place = (path, node) ∨
    ∃ child ∈ node.groups, place ∈ child.places (path.child child.key) := by
  rw [Node.places_eq, List.mem_cons, List.mem_flatMap]

theorem Node.forall_mem_places {property : Place → Prop} :
    (∀ place ∈ node.places path, property place) ↔ property (path, node) ∧
      ∀ child ∈ node.groups, ∀ place ∈ child.places (path.child child.key), property place := by
  rw [Node.places_eq, List.forall_mem_cons, List.forall_mem_flatMap]

theorem Node.self_mem_places (node : Node) (path : Path) : (path, node) ∈ node.places path :=
  Node.mem_places.2 (.inl rfl)

theorem mem_places {library : Library} : place ∈ library.places ↔
    ∃ node ∈ library.collections, place ∈ node.places (Path.ofCollection node.key) :=
  List.mem_flatMap

theorem Node.prefix_of_mem_places (h : place ∈ node.places path) : path <+: place.1 := by
  induction node using Node.ind generalizing path with
  | h node ih =>
  rcases Node.mem_places.1 h with rfl | ⟨child, hchild, hplace⟩
  · exact List.prefix_refl path
  · exact (Path.prefix_child path child.key).trans (ih child hchild hplace)

/-- The nodes that are listed are those that keys lead to, if each has groups of different keys. -/
theorem Node.mem_places_iff (h : ∀ place ∈ node.places path, place.2.Proper) {below : Node}
    {found : Path} : (found, below) ∈ node.places path ↔
      ∃ keys, node.descend? keys = some below ∧ found = path ++ keys := by
  induction node using Node.ind generalizing path with
  | h node ih =>
  obtain ⟨hproper, hbelow⟩ := Node.forall_mem_places.1 h
  rw [Node.mem_places]
  constructor
  · rintro (heq | ⟨child, hchild, hplace⟩)
    · cases heq
      exact ⟨[], rfl, by simp⟩
    · obtain ⟨keys, hkeys, rfl⟩ := (ih child hchild (hbelow child hchild)).1 hplace
      refine ⟨child.key :: keys, ?_, by simp [Path.child]⟩
      rw [descend?, find?_key hproper.keys_nodup hchild]
      exact hkeys
  · rintro ⟨keys, hkeys, rfl⟩
    cases keys with
    | nil =>
      cases hkeys
      exact .inl (by simp)
    | cons key keys =>
      obtain ⟨child, hfind, hrest⟩ := Option.bind_eq_some_iff.1 hkeys
      obtain ⟨hchild, rfl⟩ := of_find?_key hfind
      exact .inr ⟨child, hchild,
        (ih child hchild (hbelow child hchild)).2 ⟨keys, hrest, by simp [Path.child]⟩⟩

end

/-! ### Entries -/

section

variable {node : Node} {nodes : List Node} {path : Path} {entries : List Entry}

theorem firstRepeated?_eq_none_iff {seen keys : List Key} :
    firstRepeated? seen keys = none ↔ keys.Nodup ∧ ∀ key ∈ keys, key ∉ seen := by
  induction keys generalizing seen with
  | nil => simp [firstRepeated?]
  | cons key rest ih =>
    rw [firstRepeated?, List.nodup_cons, List.forall_mem_cons]
    split
    · rename_i hseen
      simp [hseen]
    · rename_i hnew
      rw [ih]
      constructor
      · rintro ⟨hnodup, hrest⟩
        refine ⟨⟨fun hkey => hrest key hkey List.mem_cons_self, hnodup⟩, hnew, fun other hother => ?_⟩
        exact fun hseen => hrest other hother (List.mem_cons_of_mem key hseen)
      · rintro ⟨⟨hkey, hnodup⟩, -, hrest⟩
        refine ⟨hnodup, fun other hother hmem => ?_⟩
        rcases List.mem_cons.1 hmem with rfl | hmem
        · exact hkey hother
        · exact hrest other hother hmem

theorem Node.entries_eq_ok_iff : node.entries path = .ok entries ↔ node.Proper ∧
    ∃ below, entriesOfGroups path node.groups = .ok below ∧
      entries = (path, node.group) :: below := by
  obtain ⟨name, ownKey, groups, tracks⟩ := node
  rw [Node.entries]
  constructor
  · intro h
    split at h
    · cases h
    rename_i hkind
    split at h
    · cases h
    rename_i hrepeated
    obtain ⟨below, hbelow, hpure⟩ := bind_eq_ok_iff.1 h
    have hkeys : firstRepeated? [] (groups.map Node.key) = none :=
      Option.eq_none_iff_forall_ne_some.2 hrepeated
    refine ⟨⟨?_, (firstRepeated?_eq_none_iff.1 hkeys).1⟩, below, hbelow,
      (pure_eq_ok_iff.1 hpure).symm⟩
    simpa [Classical.or_iff_not_imp_left] using hkind
  · rintro ⟨⟨hkind, hkeys⟩, below, hbelow, rfl⟩
    have hrepeated : firstRepeated? [] (groups.map Node.key) = none :=
      firstRepeated?_eq_none_iff.2 ⟨hkeys, by simp⟩
    have hboth : (!groups.isEmpty && !tracks.isEmpty) = false := by
      rcases hkind with h | h <;> simp_all
    simp only [hboth, hrepeated, hbelow]
    rfl

theorem entriesOfGroups_cons_eq_ok_iff : entriesOfGroups path (node :: nodes) = .ok entries ↔
    ∃ here, node.entries (path.child node.key) = .ok here ∧
      ∃ others, entriesOfGroups path nodes = .ok others ∧ entries = here ++ others := by
  rw [entriesOfGroups]
  simp only [bind_eq_ok_iff, pure_eq_ok_iff, @eq_comm _ entries]

/-- The entries of groups are the places at and below them, if that is so for each group. -/
theorem entriesOfGroups_eq_ok_iff_places (h : ∀ node ∈ nodes, ∀ path entries,
      node.entries path = .ok entries ↔
        (∀ place ∈ node.places path, place.2.Proper) ∧ entries = (node.places path).map entryOf) :
    entriesOfGroups path nodes = .ok entries ↔
      (∀ node ∈ nodes, ∀ place ∈ node.places (path.child node.key), place.2.Proper) ∧
      entries = (placesOfGroups path nodes).map entryOf := by
  induction nodes generalizing entries with
  | nil => simp [entriesOfGroups, placesOfGroups, pure_eq_ok_iff, @eq_comm _ []]
  | cons node rest ih =>
    obtain ⟨hnode, hrest⟩ := List.forall_mem_cons.1 h
    simp only [entriesOfGroups_cons_eq_ok_iff, hnode, ih hrest, List.forall_mem_cons,
      placesOfGroups, List.map_append]
    constructor
    · rintro ⟨_, ⟨hhere, rfl⟩, _, ⟨hothers, rfl⟩, rfl⟩
      exact ⟨⟨hhere, hothers⟩, rfl⟩
    · rintro ⟨⟨hhere, hothers⟩, rfl⟩
      exact ⟨_, ⟨hhere, rfl⟩, _, ⟨hothers, rfl⟩, rfl⟩

/-- The entries of a node are the places at and below it, if every node there is of one kind and has
groups of different keys. -/
theorem Node.entries_eq_ok_iff_places : node.entries path = .ok entries ↔
    (∀ place ∈ node.places path, place.2.Proper) ∧ entries = (node.places path).map entryOf := by
  induction node using Node.ind generalizing path entries with
  | h node ih =>
  have hgroups := fun below => @entriesOfGroups_eq_ok_iff_places node.groups path below
    fun child hchild path entries => ih child hchild
  rw [Node.entries_eq_ok_iff, Node.forall_mem_places, Node.places_eq node path, List.map_cons]
  simp only [hgroups, placesOfGroups_eq]
  constructor
  · rintro ⟨hproper, _, ⟨hbelow, rfl⟩, rfl⟩
    exact ⟨⟨hproper, hbelow⟩, rfl⟩
  · rintro ⟨⟨hproper, hbelow⟩, rfl⟩
    exact ⟨hproper, _, ⟨hbelow, rfl⟩, rfl⟩

theorem entriesOfCollections_cons_eq_ok_iff {seen : List Key} :
    entriesOfCollections seen (node :: nodes) = .ok entries ↔ node.key ∉ seen ∧
      ∃ here, node.entries (Path.ofCollection node.key) = .ok here ∧
      ∃ others, entriesOfCollections (node.key :: seen) nodes = .ok others ∧
        entries = here ++ others := by
  rw [entriesOfCollections]
  split
  · rename_i hseen
    exact iff_of_false (by rintro ⟨⟩) fun h => h.1 hseen
  · rename_i hnew
    simp only [hnew, not_false_eq_true, true_and, bind_eq_ok_iff, pure_eq_ok_iff, @eq_comm _ entries]

theorem entriesOfCollections_eq_ok_iff {seen : List Key} :
    entriesOfCollections seen nodes = .ok entries ↔
      ((nodes.map Node.key).Nodup ∧ ∀ node ∈ nodes, node.key ∉ seen) ∧
      (∀ node ∈ nodes, ∀ place ∈ node.places (Path.ofCollection node.key), place.2.Proper) ∧
      entries = (nodes.flatMap fun node => node.places (Path.ofCollection node.key)).map entryOf := by
  induction nodes generalizing seen entries with
  | nil => simp [entriesOfCollections, pure_eq_ok_iff, @eq_comm _ []]
  | cons node rest ih =>
    rw [entriesOfCollections_cons_eq_ok_iff]
    simp only [Node.entries_eq_ok_iff_places, ih, List.map_cons, List.nodup_cons,
      List.forall_mem_cons, List.flatMap_cons, List.map_append]
    constructor
    · rintro ⟨hnew, _, ⟨hhere, rfl⟩, _, ⟨⟨hnodup, hothers⟩, hrest, rfl⟩, rfl⟩
      refine ⟨⟨⟨fun hkey => ?_, hnodup⟩, hnew, fun other hother hseen => ?_⟩, ⟨hhere, hrest⟩, rfl⟩
      · obtain ⟨other, hother, heq⟩ := List.mem_map.1 hkey
        exact hothers other hother (heq ▸ List.mem_cons_self)
      · exact hothers other hother (List.mem_cons_of_mem _ hseen)
    · rintro ⟨⟨⟨hkey, hnodup⟩, hnew, hothers⟩, ⟨hhere, hrest⟩, rfl⟩
      refine ⟨hnew, _, ⟨hhere, rfl⟩, _, ⟨⟨hnodup, fun other hother hmem => ?_⟩, hrest, rfl⟩, rfl⟩
      rcases List.mem_cons.1 hmem with heq | hseen
      · exact hkey (heq ▸ List.mem_map_of_mem hother)
      · exact hothers other hother hseen

end

/-- A library is a forest if its collections have different keys and every node is of one kind and
has groups of different keys. -/
structure Forest (library : Library) : Prop where
  collections_nodup : (library.collections.map Node.key).Nodup
  proper : ∀ place ∈ library.places, place.2.Proper

theorem entries_eq_ok_iff {library : Library} {entries : List Entry} :
    library.entries = .ok entries ↔ library.Forest ∧ entries = library.places.map entryOf := by
  rw [Library.entries, entriesOfCollections_eq_ok_iff]
  have hproper : (∀ node ∈ library.collections, ∀ place ∈ node.places (Path.ofCollection node.key),
      place.2.Proper) ↔ ∀ place ∈ library.places, place.2.Proper :=
    List.forall_mem_flatMap.symm
  rw [hproper]
  constructor
  · rintro ⟨⟨hnodup, -⟩, hall, rfl⟩
    exact ⟨⟨hnodup, hall⟩, rfl⟩
  · rintro ⟨⟨hnodup, hall⟩, rfl⟩
    exact ⟨⟨hnodup, by simp⟩, hall, rfl⟩

/-- The nodes of a forest that are listed are those that keys lead to from a collection. -/
theorem Forest.mem_places_iff {library : Library} (h : library.Forest) {path : Path} {node : Node} :
    (path, node) ∈ library.places ↔ library.node? path = some node := by
  have hproper : ∀ collection ∈ library.collections,
      ∀ place ∈ collection.places (Path.ofCollection collection.key), place.2.Proper :=
    fun collection hcollection place hplace =>
      h.proper place (mem_places.2 ⟨collection, hcollection, hplace⟩)
  rw [mem_places]
  constructor
  · rintro ⟨collection, hcollection, hplace⟩
    obtain ⟨keys, hkeys, rfl⟩ := (Node.mem_places_iff (hproper collection hcollection)).1 hplace
    simp [Path.ofCollection, node?, find?_key h.collections_nodup hcollection, hkeys]
  · intro hnode
    cases path with
    | nil => cases hnode
    | cons key keys =>
      obtain ⟨collection, hfind, hkeys⟩ := Option.bind_eq_some_iff.1 hnode
      obtain ⟨hcollection, rfl⟩ := of_find?_key hfind
      exact ⟨collection, hcollection,
        (Node.mem_places_iff (hproper collection hcollection)).2 ⟨keys, hkeys, rfl⟩⟩

theorem mem_entries {library : Library} {entries : List Entry}
    (h : library.entries = .ok entries) {path : Path} {group : Group} :
    (path, group) ∈ entries ↔ (library.node? path).map Node.group = some group := by
  obtain ⟨hforest, rfl⟩ := entries_eq_ok_iff.1 h
  rw [Option.map_eq_some_iff]
  simp [entryOf, hforest.mem_places_iff]

end Library

/-! ### The catalog -/

section

variable {library : Library} {catalog : Catalog} {path : Path}

theorem Catalog.ofLibrary_eq_ok_iff : Catalog.ofLibrary library = .ok catalog ↔
    library.Forest ∧ catalog =
      { groups := Std.ExtTreeMap.ofList (library.places.map Library.entryOf)
        search := Search.run (library.places.map Library.entryOf)
        filters := library.filters
        recent := library.recent } := by
  rw [Catalog.ofLibrary, bind_eq_ok_iff]
  simp only [Library.entries_eq_ok_iff, pure_eq_ok_iff, @eq_comm _ catalog]
  constructor
  · rintro ⟨_, ⟨hforest, rfl⟩, rfl⟩
    exact ⟨hforest, rfl⟩
  · rintro ⟨hforest, rfl⟩
    exact ⟨_, ⟨hforest, rfl⟩, rfl⟩

theorem Catalog.group?_ofLibrary (h : Catalog.ofLibrary library = .ok catalog) (path : Path) :
    catalog.group? path = (library.node? path).map Library.Node.group := by
  obtain ⟨entries, hentries, hcatalog⟩ := bind_eq_ok_iff.1 h
  cases hcatalog
  have hmem : ∀ path group, (path, group) ∈ entries ↔
      (library.node? path).map Library.Node.group = some group :=
    fun path group => Library.mem_entries hentries
  refine Option.ext fun group => ?_
  rw [← hmem]
  refine Map.getElem?_ofList_eq_some_iff fun path group other hgroup hother => ?_
  exact Option.some.inj (((hmem path group).1 hgroup).symm.trans ((hmem path other).1 hother))

theorem Catalog.group?_ofLibrary_eq_some_iff (h : Catalog.ofLibrary library = .ok catalog)
    {group : Group} : catalog.group? path = some group ↔
      ∃ node, library.node? path = some node ∧ node.group = group := by
  rw [Catalog.group?_ofLibrary h, Option.map_eq_some_iff]

theorem Catalog.listed_ofLibrary (h : Catalog.ofLibrary library = .ok catalog)
    {node : Library.Node} (hnode : library.node? path = some node) :
    catalog.listed path = .ok node.group :=
  Catalog.listed_eq_ok_iff.2 ((Catalog.group?_ofLibrary_eq_some_iff h).2 ⟨node, hnode, rfl⟩)

/-- The nodes of a library that becomes a catalog are of one kind and have distinct keys. -/
theorem Library.proper_of_node? (h : Catalog.ofLibrary library = .ok catalog)
    {node : Library.Node} (hnode : library.node? path = some node) : node.Proper := by
  obtain ⟨hforest, -⟩ := Catalog.ofLibrary_eq_ok_iff.1 h
  exact hforest.proper _ (hforest.mem_places_iff.2 hnode)

theorem Catalog.keysDistinct_ofLibrary (h : Catalog.ofLibrary library = .ok catalog) :
    catalog.KeysDistinct := by
  intro path group hgroup
  obtain ⟨node, hnode, rfl⟩ := (Catalog.group?_ofLibrary_eq_some_iff h).1 hgroup
  exact (Library.proper_of_node? h hnode).keys_nodup

end

end Jukebox
