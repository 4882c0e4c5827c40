import Jukebox.Catalog.Walk
import Jukebox.Uuid

/-!
Playlist items. An item is a subtree of the catalog, written out when it was added: its nodes with
their keys, and its tracks. Parts of it can be removed afterwards, whatever the catalog holds then.
-/

namespace Jukebox

/-- The keys of the children of a node, or the keys of its tracks. -/
def Group.Kind.keys : Group.Kind → List Key
  | internal keys => keys
  | leaf tracks => (List.range tracks.length).map Key.ofIndex

def Group.Kind.childPaths (path : Path) : Group.Kind → List Path
  | internal keys => keys.map path.child
  | leaf _ => []

def Group.Kind.trackPaths (path : Path) : Group.Kind → List Path
  | internal _ => []
  | leaf tracks => (List.range tracks.length).map fun index => path.child (Key.ofIndex index)

/-- A subtree of the catalog with the parts that were not removed. -/
structure Playlist.Item where
  id : Uuid
  root : Path
  nodes : Std.ExtTreeMap Path (List Key)
  tracks : List Path

namespace Playlist.Item

/-! ### Expansion -/

/-- The nodes of a level and below, level by level, where `levels` bounds the levels. No group lies
deeper than the catalog is deep, so a listed node there is missing. -/
def nodesFrom (catalog : Catalog) :
    (levels : Nat) → List Path → Except Error (List (Path × Group.Kind))
  | _, [] => .ok []
  | 0, path :: _ => .error (.missingNode path)
  | levels + 1, level => do
    let nodes ← level.mapM fun path => do
      let group ← catalog.listed path
      return (path, ← group.kind path)
    let below ← nodesFrom catalog levels (nodes.flatMap fun (path, kind) => kind.childPaths path)
    return nodes ++ below

/-- The item of the subtree at a path. -/
def expand (catalog : Catalog) (id : Uuid) (root : Path) : Except Error Item := do
  discard (catalog.lookup root)
  let nodes ← nodesFrom catalog (catalog.depth + 1 - root.length) [root]
  return {
    id, root
    nodes := .ofList (nodes.map fun (path, kind) => (path, kind.keys))
    tracks := nodes.flatMap fun (path, kind) => kind.trackPaths path }

/-! ### Reading -/

def isEmpty (item : Item) : Bool := item.tracks.isEmpty

/-- The keys that are left at a node. -/
def keysAt? (item : Item) (path : Path) : Option (List Key) := item.nodes[path]?

/-- Whether some node or track lies at or below a path. -/
def holds (item : Item) (path : Path) : Bool :=
  item.tracks.any (·.isUnder path) || item.nodes.keys.any (·.isUnder path)

/-! ### Removal -/

/-- Strikes the key of a removed node from its parent. A parent other than the root that has no
keys left is removed in the same way. The path of the removed node is given from its end. -/
def detach (root : Path) (nodes : Std.ExtTreeMap Path (List Key)) :
    (reversed : List Key) → Std.ExtTreeMap Path (List Key)
  | [] => nodes
  | key :: above =>
    let parent := above.reverse
    match nodes[parent]? with
    | none => nodes
    | some keys =>
      let rest := keys.filter (· ≠ key)
      if rest.isEmpty ∧ parent ≠ root then detach root (nodes.erase parent) above
      else nodes.insert parent rest

/-- Removes everything at or below a path that lies below the root. -/
def remove (item : Item) (path : Path) : Except Error Item := do
  if !path.isBelow item.root then throw (.notBelowItem path item.root)
  if !item.holds path then throw (.notInItem path item.root)
  let nodes := item.nodes.filter fun node _ => !node.isUnder path
  return { item with
    nodes := detach item.root nodes path.reverse
    tracks := item.tracks.filter fun track => !track.isUnder path }

end Playlist.Item

end Jukebox
