import Jukebox.Catalog.Basic

/-!
Groups as they are shown: with the names of their children, and with marks for the groups on the
list of favourites and on the checklist, which are filled in by whoever keeps these lists.
-/

namespace Jukebox

/-- A child of a group as it is shown. -/
structure ChildView where
  key : Key
  name : String
  favourite : Bool
  checklist : Bool
deriving DecidableEq, Repr

/-- A group as it is shown. -/
structure GroupView where
  path : Path
  name : String
  groups : List ChildView
  tracks : List Track
  favourite : Bool
  checklist : Bool
deriving DecidableEq, Repr

def GroupView.childPaths (view : GroupView) : List Path :=
  view.groups.map fun child => view.path.child child.key

/-- The view with marks put on the group and its children. -/
def GroupView.mark (view : GroupView) (favourite checklist : Path → Bool) : GroupView :=
  { view with
    favourite := favourite view.path
    checklist := checklist view.path
    groups := view.groups.map fun child => { child with
      favourite := favourite (view.path.child child.key)
      checklist := checklist (view.path.child child.key) } }

namespace Catalog

/-- A child under the name of its group, or under its key if the catalog does not hold it. -/
def childView (catalog : Catalog) (path : Path) (key : Key) : ChildView :=
  { key
    name := match catalog.group? (path.child key) with
      | some group => group.name
      | none => key
    favourite := false
    checklist := false }

/-- The unmarked view of the group at a path. -/
def groupView (catalog : Catalog) (path : Path) : Except Error GroupView := do
  let group ← catalog.lookup path
  match ← group.kind path with
  | .internal keys =>
    return ⟨path, group.name, keys.map (catalog.childView path), [], false, false⟩
  | .leaf tracks => return ⟨path, group.name, [], tracks, false, false⟩

/-- The views of those paths that lead to a group of some kind. -/
def expandPaths (catalog : Catalog) (paths : List Path) : List GroupView :=
  paths.filterMap fun path => (catalog.groupView path).toOption

end Catalog

end Jukebox
