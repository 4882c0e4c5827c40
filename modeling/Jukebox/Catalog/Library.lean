import Jukebox.Catalog.Basic

/-!
Libraries: trees of named nodes, one tree for each collection. A library becomes a catalog if no
node has both groups and tracks and no two nodes of one parent have the same key.
-/

namespace Jukebox

/-- A node of a library. Its key is its name unless it has one of its own. -/
structure Library.Node where
  name : String
  ownKey : Option Key
  groups : List Library.Node
  tracks : List Track

/-- A library: its collections, named filters, and the paths that were added lately. -/
structure Library where
  collections : List Library.Node
  filters : Std.ExtTreeMap String (List FilterItem)
  recent : List Path

namespace Library

/-- The key under which a node is found. -/
def Node.key (node : Node) : Key := node.ownKey.getD node.name

/-- The node as a group of the catalog. -/
def Node.group (node : Node) : Group := ⟨node.name, node.groups.map Node.key, node.tracks⟩

/-- The first key that occurs a second time. -/
def firstRepeated? : (seen : List Key) → List Key → Option Key
  | _, [] => none
  | seen, key :: rest => if key ∈ seen then some key else firstRepeated? (key :: seen) rest

/-- A path of a library and the group there. -/
abbrev Entry := Path × Group

mutual

/-- The groups at and below a node in depth-first order, with the paths that lead to them. -/
def Node.entries (path : Path) : Node → Except Error (List Entry)
  | ⟨name, ownKey, groups, tracks⟩ => do
    if !groups.isEmpty && !tracks.isEmpty then throw (.groupsAndTracks path)
    if let some key := firstRepeated? [] (groups.map Node.key) then throw (.duplicateKey key path)
    let below ← entriesOfGroups path groups
    return (path, Node.group ⟨name, ownKey, groups, tracks⟩) :: below

/-- The groups at and below the children of a node, one child after the other. -/
def entriesOfGroups (path : Path) : List Node → Except Error (List Entry)
  | [] => return []
  | node :: rest => do
    let here ← node.entries (path.child node.key)
    return here ++ (← entriesOfGroups path rest)

end

/-- The groups of the collections in depth-first order; `seen` holds the keys of the collections
before them. -/
def entriesOfCollections (seen : List Key) : List Node → Except Error (List Entry)
  | [] => return []
  | node :: rest => do
    if node.key ∈ seen then throw (.duplicateCollection node.key)
    let here ← node.entries (Path.ofCollection node.key)
    return here ++ (← entriesOfCollections (node.key :: seen) rest)

/-- Every group of a library in depth-first order. -/
def entries (library : Library) : Except Error (List Entry) :=
  entriesOfCollections [] library.collections

end Library

end Jukebox
