import Jukebox.Proofs.Catalog.Forest

/-!
What a search finds. The groups of a library come one top-level group after the other, each with all
that lies below it, so that one pass which leaves out what was found already finds every top-level
group with a match once, in the order of the library.
-/

namespace Jukebox

/-! ### Texts that hold a query -/

/-- The texts of a track in which a search looks: its name, its album, each artist and each
composer. -/
def Track.texts (track : Track) : List String :=
  track.name :: track.album :: (track.artist ++ track.composer)

/-- The texts of a group in which a search looks: its name and the texts of its tracks. -/
def Group.texts (group : Group) : List String := group.name :: group.tracks.flatMap Track.texts

namespace Search

/-- A text holds a query if every word of the query occurs in it, whatever the case. -/
def Holds (query text : String) : Prop :=
  ∀ word ∈ Text.words query.toList, Text.lowercase (String.ofList word) <:+: Text.lowercase text

theorem occursIn_iff {part whole : List Char} : occursIn part whole = true ↔ part <:+: whole := by
  induction whole with
  | nil => simp [occursIn]
  | cons c rest ih => rw [occursIn, Bool.or_eq_true, List.isPrefixOf_iff_prefix, ih, List.infix_cons_iff]

theorem textMatches_iff {query text : String} :
    textMatches (queryWords query) text = true ↔ Holds query text := by
  simp [textMatches, queryWords, Holds, occursIn_iff]

theorem trackMatches_iff {query : String} {track : Track} :
    trackMatches (queryWords query) track = true ↔ ∃ text ∈ track.texts, Holds query text := by
  simp [trackMatches, Track.texts, textMatches_iff, or_and_right, exists_or, or_assoc]

theorem groupMatches_iff {query : String} {group : Group} :
    groupMatches (queryWords query) group = true ↔ ∃ text ∈ group.texts, Holds query text := by
  have htracks : group.tracks.any (trackMatches (queryWords query)) = true ↔
      ∃ text ∈ group.tracks.flatMap Track.texts, Holds query text := by
    simp only [List.any_eq_true, trackMatches_iff, List.mem_flatMap]
    constructor
    · rintro ⟨track, htrack, text, htext, hholds⟩
      exact ⟨text, ⟨track, htrack, htext⟩, hholds⟩
    · rintro ⟨text, ⟨track, htrack, htext⟩, hholds⟩
      exact ⟨track, htrack, text, htext, hholds⟩
  rw [groupMatches, Bool.or_eq_true, textMatches_iff, htracks, Group.texts, List.exists_mem_cons_iff]

theorem Holds.mono {query other text : String}
    (hwords : ∀ word ∈ Text.words query.toList, word ∈ Text.words other.toList)
    (h : Holds other text) : Holds query text := by
  intro word hword
  exact h word (hwords word hword)

/-! ### Collecting -/

section

variable {words : List (List Char)} {found : List Path} {entries : List Library.Entry} {top : Path}

/-- An entry adds the path of its top-level group, if it has one that is new and the entry matches. -/
theorem collect_eq (words : List (List Char)) (found : List Path) (entry : Library.Entry) :
    collect words found entry =
      if 2 ≤ entry.1.length ∧ entry.1.truncated 2 ∉ found ∧ groupMatches words entry.2 = true then
        found ++ [entry.1.truncated 2]
      else found := by
  unfold collect
  dsimp only
  by_cases hlength : entry.1.length < 2
  · have hshort : ¬ 2 ≤ entry.1.length := by omega
    simp [hlength, hshort]
  · have hlong : 2 ≤ entry.1.length := by omega
    by_cases hfound : entry.1.truncated 2 ∈ found <;> simp [hlength, hlong, hfound]

/-- Entries of one top-level group add its path, if it is new and one of them matches. -/
theorem foldl_collect_of_top
    (htop : ∀ entry ∈ entries, 2 ≤ entry.1.length ∧ entry.1.truncated 2 = top) :
    entries.foldl (collect words) found =
      if top ∉ found ∧ ∃ entry ∈ entries, groupMatches words entry.2 = true then found ++ [top]
      else found := by
  induction entries generalizing found with
  | nil => simp
  | cons entry rest ih =>
    obtain ⟨⟨hlength, hentry⟩, hrest⟩ := List.forall_mem_cons.1 htop
    have hstep := collect_eq words found entry
    rw [hentry] at hstep
    by_cases hadd : top ∉ found ∧ groupMatches words entry.2 = true
    · -- the entry adds the path, and the rest finds it there
      have hlater : ¬ (top ∉ found ++ [top] ∧ ∃ entry ∈ rest, groupMatches words entry.2 = true) := by
        simp
      rw [List.foldl_cons, hstep, if_pos ⟨hlength, hadd⟩, ih hrest, if_neg hlater,
        if_pos ⟨hadd.1, entry, List.mem_cons_self, hadd.2⟩]
    · have hiff : (top ∉ found ∧ ∃ other ∈ rest, groupMatches words other.2 = true) ↔
          top ∉ found ∧ ∃ other ∈ entry :: rest, groupMatches words other.2 = true := by
        rw [List.exists_mem_cons_iff]
        tauto
      rw [List.foldl_cons, hstep, if_neg fun h => hadd h.2, ih hrest]
      exact if_congr hiff rfl rfl

end

end Search

namespace Library

/-! ### Top-level groups -/

/-- The groups of the collections, with the two keys that lead to each. -/
def topPlaces (library : Library) : List Place :=
  library.collections.flatMap fun collection =>
    collection.groups.map fun group => ([collection.key, group.key], group)

variable {library : Library} {place top : Place}

theorem mem_topPlaces : top ∈ library.topPlaces ↔ ∃ collection ∈ library.collections,
    ∃ group ∈ collection.groups, top = ([collection.key, group.key], group) := by
  simp only [topPlaces, List.mem_flatMap, List.mem_map, @eq_comm _ top]

theorem length_of_mem_topPlaces (h : top ∈ library.topPlaces) : top.1.length = 2 := by
  obtain ⟨collection, -, group, -, rfl⟩ := mem_topPlaces.1 h
  rfl

/-- The nodes below the collections are those at and below the top-level groups, one such group after
the other. -/
theorem filter_places (library : Library) :
    (library.places.filter fun place => 2 ≤ place.1.length) =
      library.topPlaces.flatMap fun top => top.2.places top.1 := by
  rw [places, List.filter_flatMap, topPlaces, List.flatMap_assoc]
  refine List.flatMap_congr fun collection _ => ?_
  have hbelow : ∀ place ∈ collection.groups.flatMap (fun group =>
      group.places (Path.child (Path.ofCollection collection.key) group.key)),
      decide (2 ≤ place.1.length) = true := by
    intro place hplace
    obtain ⟨group, -, hplace⟩ := List.mem_flatMap.1 hplace
    have hlength := (Node.prefix_of_mem_places hplace).length_le
    rw [Path.length_child] at hlength
    exact decide_eq_true hlength
  rw [Node.places_eq, List.filter_cons_of_neg (by simp [Path.ofCollection]),
    List.filter_eq_self.2 hbelow, List.flatMap_map]
  rfl

theorem Forest.nodup_topPlaces (h : library.Forest) : (library.topPlaces.map Prod.fst).Nodup := by
  rw [topPlaces, List.map_flatMap, List.nodup_flatMap]
  constructor
  · intro collection hcollection
    have hproper : collection.Proper :=
      h.proper _ (mem_places.2 ⟨collection, hcollection, collection.self_mem_places _⟩)
    rw [List.map_map]
    refine List.pairwise_map.2 ((List.pairwise_map.1 hproper.keys_nodup).imp ?_)
    intro group other hne heq
    exact hne (by simpa using heq)
  · refine (List.pairwise_map.1 h.collections_nodup).imp ?_
    intro collection other hne path hpath hpathOther
    obtain ⟨_, hgroup, rfl⟩ := List.mem_map.1 hpath
    obtain ⟨group, -, rfl⟩ := List.mem_map.1 hgroup
    obtain ⟨_, hotherGroup, heq⟩ := List.mem_map.1 hpathOther
    obtain ⟨otherGroup, -, rfl⟩ := List.mem_map.1 hotherGroup
    have hkeys : other.key = collection.key := (List.cons.inj heq).1
    exact hne hkeys.symm

/-- Two keys on the way to a node lead to a top-level group, and the node lies at or below it. -/
theorem exists_top_of_prefix (hplace : place ∈ library.places) {path : Path}
    (hlength : path.length = 2) (hunder : path <+: place.1) :
    ∃ top ∈ library.topPlaces, top.1 = path ∧ place ∈ top.2.places top.1 := by
  have hlong : 2 ≤ place.1.length := hlength ▸ hunder.length_le
  have hfilter : place ∈ library.places.filter fun place => 2 ≤ place.1.length :=
    List.mem_filter.2 ⟨hplace, decide_eq_true hlong⟩
  rw [filter_places] at hfilter
  obtain ⟨top, htop, hmem⟩ := List.mem_flatMap.1 hfilter
  have htopUnder : top.1 <+: place.1 := Node.prefix_of_mem_places hmem
  have hsame : top.1.length = path.length := by rw [length_of_mem_topPlaces htop, hlength]
  have hprefix : top.1 <+: path := List.prefix_of_prefix_length_le htopUnder hunder (by omega)
  exact ⟨top, htop, hprefix.eq_of_length hsame, hmem⟩

theorem Forest.mem_places_of_top (h : library.Forest) (htop : top ∈ library.topPlaces)
    (hplace : place ∈ library.places) (hunder : top.1 <+: place.1) : place ∈ top.2.places top.1 := by
  obtain ⟨other, hother, hpath, hmem⟩ :=
    exists_top_of_prefix hplace (length_of_mem_topPlaces htop) hunder
  have heq : other = top := List.inj_on_of_nodup_map h.nodup_topPlaces hother htop hpath
  exact heq ▸ hmem

end Library

open Library (Place entryOf)

namespace Search

/-- A group at or below a place matches. -/
def finds (words : List (List Char)) (top : Place) : Bool :=
  (top.2.places top.1).any fun place => groupMatches words place.2.group

/-- A pass through the groups of one top-level group after the other finds those with a match. -/
theorem foldl_collect_places {words : List (List Char)} {found : List Path} {tops : List Place}
    (hlength : ∀ top ∈ tops, top.1.length = 2) (hnodup : (tops.map Prod.fst).Nodup)
    (hnew : ∀ top ∈ tops, top.1 ∉ found) :
    ((tops.flatMap fun top => top.2.places top.1).map entryOf).foldl (collect words) found =
      found ++ (tops.filter (finds words)).map Prod.fst := by
  induction tops generalizing found with
  | nil => simp
  | cons top rest ih =>
    obtain ⟨htop, hrest⟩ := List.forall_mem_cons.1 hlength
    obtain ⟨hfound, hnewRest⟩ := List.forall_mem_cons.1 hnew
    obtain ⟨hfresh, hnodupRest⟩ := List.nodup_cons.1 hnodup
    have hblock : ∀ entry ∈ (top.2.places top.1).map entryOf,
        2 ≤ entry.1.length ∧ entry.1.truncated 2 = top.1 := by
      intro entry hentry
      obtain ⟨place, hplace, rfl⟩ := List.mem_map.1 hentry
      have hunder : top.1 <+: place.1 := Library.Node.prefix_of_mem_places hplace
      have htake := List.prefix_iff_eq_take.1 hunder
      rw [htop] at htake
      exact ⟨htop ▸ hunder.length_le, htake.symm⟩
    have hfinds : (∃ entry ∈ (top.2.places top.1).map entryOf, groupMatches words entry.2 = true) ↔
        finds words top = true := by
      simp [finds, entryOf]
    rw [List.flatMap_cons, List.map_append, List.foldl_append, foldl_collect_of_top hblock]
    simp only [hfinds, hfound, not_false_eq_true, true_and]
    by_cases hmatch : finds words top = true
    · have hnewNext : ∀ other ∈ rest, other.1 ∉ found ++ [top.1] := by
        intro other hother hmem
        rcases List.mem_append.1 hmem with hmem | hmem
        · exact hnewRest other hother hmem
        · exact hfresh (List.mem_singleton.1 hmem ▸ List.mem_map_of_mem hother)
      rw [if_pos hmatch, ih hrest hnodupRest hnewNext, List.filter_cons_of_pos hmatch]
      simp
    · rw [if_neg hmatch, ih hrest hnodupRest hnewRest, List.filter_cons_of_neg hmatch]

theorem foldl_collect_eq_filter {words : List (List Char)} {found : List Path}
    (entries : List Library.Entry) : entries.foldl (collect words) found =
      (entries.filter fun entry => 2 ≤ entry.1.length).foldl (collect words) found := by
  rw [List.foldl_filter]
  congr 1
  funext found entry
  by_cases hlength : 2 ≤ entry.1.length <;> simp [collect_eq, hlength]

theorem finds_mono {query other : String} {top : Place}
    (hwords : ∀ word ∈ Text.words query.toList, word ∈ Text.words other.toList)
    (h : finds (queryWords other) top = true) : finds (queryWords query) top = true := by
  obtain ⟨place, hplace, hmatch⟩ := List.any_eq_true.1 h
  obtain ⟨text, htext, hholds⟩ := groupMatches_iff.1 hmatch
  exact List.any_eq_true.2 ⟨place, hplace, groupMatches_iff.2 ⟨text, htext, hholds.mono hwords⟩⟩

end Search

namespace Catalog

variable {library : Library} {catalog : Catalog}

theorem search_eq (h : Catalog.ofLibrary library = .ok catalog) (query : String) :
    catalog.search query = if Text.words query.toList = [] then [] else
      (library.topPlaces.filter (Search.finds (Search.queryWords query))).map Prod.fst := by
  obtain ⟨hforest, rfl⟩ := ofLibrary_eq_ok_iff.1 h
  have hempty : (Search.queryWords query).isEmpty = true ↔ Text.words query.toList = [] := by
    simp [Search.queryWords]
  have hlength : ∀ top ∈ library.topPlaces, top.1.length = 2 :=
    fun top => Library.length_of_mem_topPlaces
  have hpass := @Search.foldl_collect_places (Search.queryWords query) [] _ hlength
    hforest.nodup_topPlaces (by simp)
  have hlong : (library.places.map entryOf).filter (fun entry => 2 ≤ entry.1.length) =
      (library.topPlaces.flatMap fun top => top.2.places top.1).map entryOf := by
    rw [List.filter_map, ← Library.filter_places]
    rfl
  dsimp only [Search.run]
  rw [Search.foldl_collect_eq_filter, hlong, hpass, List.nil_append]
  exact if_congr hempty rfl rfl

theorem finds_iff (h : Catalog.ofLibrary library = .ok catalog) {query : String} {top : Place}
    (htop : top ∈ library.topPlaces) : Search.finds (Search.queryWords query) top = true ↔
      ∃ path group, top.1 <+: path ∧ catalog.group? path = some group ∧
        ∃ text ∈ group.texts, Search.Holds query text := by
  obtain ⟨hforest, -⟩ := ofLibrary_eq_ok_iff.1 h
  simp only [Search.finds, List.any_eq_true, Search.groupMatches_iff]
  constructor
  · rintro ⟨⟨path, node⟩, hplace, hmatch⟩
    have hlisted : (path, node) ∈ library.places := by
      have hmem : (path, node) ∈ library.topPlaces.flatMap fun top => top.2.places top.1 :=
        List.mem_flatMap.2 ⟨top, htop, hplace⟩
      rw [← Library.filter_places] at hmem
      exact List.mem_of_mem_filter hmem
    have hgroup : catalog.group? path = some node.group :=
      (group?_ofLibrary_eq_some_iff h).2 ⟨node, hforest.mem_places_iff.1 hlisted, rfl⟩
    exact ⟨path, node.group, Library.Node.prefix_of_mem_places hplace, hgroup, hmatch⟩
  · rintro ⟨path, group, hunder, hgroup, hmatch⟩
    obtain ⟨node, hnode, rfl⟩ := (group?_ofLibrary_eq_some_iff h).1 hgroup
    have hlisted : (path, node) ∈ library.places := hforest.mem_places_iff.2 hnode
    exact ⟨(path, node), hforest.mem_places_of_top htop hlisted hunder, hmatch⟩

theorem search_sublist (h : Catalog.ofLibrary library = .ok catalog) {query other : String}
    (hquery : Text.words query.toList ≠ [])
    (hwords : ∀ word ∈ Text.words query.toList, word ∈ Text.words other.toList) :
    (catalog.search other).Sublist (catalog.search query) := by
  have hother : Text.words other.toList ≠ [] := by
    obtain ⟨word, hword⟩ := List.exists_mem_of_ne_nil _ hquery
    exact List.ne_nil_of_mem (hwords word hword)
  rw [search_eq h, search_eq h, if_neg hquery, if_neg hother]
  refine List.Sublist.map _ (List.monotone_filter_right _ ?_)
  intro top hfinds
  exact Search.finds_mono hwords hfinds

/-- **A search is exact.** Without words it finds nothing. Otherwise it finds the paths of two keys
at or below which a group has a text that holds the query: its name, or the name, the album, an
artist or a composer of one of its tracks, with every word of the query in it, both in lower case.
They come in the order of the library, none twice. Which words there are counts, not their order or
how often they stand there, and more words find no more. -/
theorem search_exact (h : Catalog.ofLibrary library = .ok catalog) (query : String) :
    (Text.words query.toList = [] → catalog.search query = []) ∧
    (Text.words query.toList ≠ [] → ∀ top, top ∈ catalog.search query ↔
      ∃ collection key, top = [collection, key] ∧ ∃ path group, top <+: path ∧
        catalog.group? path = some group ∧ ∃ text ∈ group.texts, Search.Holds query text) ∧
    (catalog.search query).Sublist (library.topPlaces.map Prod.fst) ∧
    (catalog.search query).Nodup ∧
    (∀ other : String, (∀ word, word ∈ Text.words other.toList ↔ word ∈ Text.words query.toList) →
      catalog.search other = catalog.search query) ∧
    ∀ other : String, Text.words query.toList ≠ [] →
      (∀ word ∈ Text.words query.toList, word ∈ Text.words other.toList) →
      (catalog.search other).Sublist (catalog.search query) := by
  obtain ⟨hforest, -⟩ := ofLibrary_eq_ok_iff.1 h
  have hsublist : (catalog.search query).Sublist (library.topPlaces.map Prod.fst) := by
    rw [search_eq h]
    split
    · exact List.nil_sublist _
    · exact List.filter_sublist.map Prod.fst
  refine ⟨fun hnone => ?_, fun hsome top => ?_, hsublist, hsublist.nodup hforest.nodup_topPlaces,
    fun other hsame => ?_, fun other hsome hwords => search_sublist h hsome hwords⟩
  · rw [search_eq h, if_pos hnone]
  · rw [search_eq h, if_neg hsome, List.mem_map]
    constructor
    · rintro ⟨place, hplace, rfl⟩
      obtain ⟨htop, hfinds⟩ := List.mem_filter.1 hplace
      obtain ⟨collection, -, group, -, rfl⟩ := Library.mem_topPlaces.1 htop
      exact ⟨collection.key, group.key, rfl, (finds_iff h htop).1 hfinds⟩
    · rintro ⟨collection, key, rfl, path, group, hunder, hgroup, hmatch⟩
      obtain ⟨node, hnode, rfl⟩ := (group?_ofLibrary_eq_some_iff h).1 hgroup
      have hlisted : (path, node) ∈ library.places := hforest.mem_places_iff.2 hnode
      obtain ⟨place, htop, hpath, -⟩ := Library.exists_top_of_prefix hlisted rfl hunder
      have hfinds : Search.finds (Search.queryWords query) place = true :=
        (finds_iff h htop).2 ⟨path, node.group, hpath ▸ hunder, hgroup, hmatch⟩
      exact ⟨place, List.mem_filter.2 ⟨htop, hfinds⟩, hpath⟩
  · by_cases hnone : Text.words query.toList = []
    · have hnoneOther : Text.words other.toList = [] :=
        List.eq_nil_iff_forall_not_mem.2 fun word hword => by simpa [hnone] using (hsame word).1 hword
      rw [search_eq h, search_eq h, if_pos hnone, if_pos hnoneOther]
    · have hother : Text.words other.toList ≠ [] := by
        obtain ⟨word, hword⟩ := List.exists_mem_of_ne_nil _ hnone
        exact List.ne_nil_of_mem ((hsame word).2 hword)
      have hfewer := search_sublist h hnone fun word => (hsame word).2
      have hmore := search_sublist h hother fun word => (hsame word).1
      exact hfewer.antisymm hmore

/-- Two letters are found in the aria of a tape, which shows its box, and in the name of a crate. -/
theorem search_exact_house : ∃ catalog, Catalog.ofLibrary .house = .ok catalog ∧
    catalog.search " R\ta" = [["shelf", "box"], ["attic", "crate"]] ∧
    (∃ path group, ["shelf", "box"] <+: path ∧ catalog.group? path = some group ∧
      ∃ text ∈ group.texts, Search.Holds " R\ta" text) ∧
    catalog.search "a R a" = catalog.search " R\ta" := by
  obtain ⟨catalog, hcatalog, hfound⟩ : ∃ catalog, Catalog.ofLibrary .house = .ok catalog ∧
      catalog.search " R\ta" = [["shelf", "box"], ["attic", "crate"]] := ⟨_, rfl, by decide +kernel⟩
  have hwords : Text.words " R\ta".toList = [['R'], ['a']] := by decide
  have hother : Text.words "a R a".toList = [['a'], ['R'], ['a']] := by decide
  obtain ⟨-, hexact, -, -, hsame, -⟩ := search_exact hcatalog " R\ta"
  refine ⟨catalog, hcatalog, hfound, ?_, hsame "a R a" fun word => ?_⟩
  · have hbox : ["shelf", "box"] ∈ catalog.search " R\ta" := by simp [hfound]
    obtain ⟨collection, key, heq, hmatch⟩ := (hexact (by rw [hwords]; simp) _).1 hbox
    exact heq ▸ hmatch
  · rw [hwords, hother]
    simp
    tauto

end Catalog

end Jukebox
