import Jukebox.Catalog.Basic

/-!
Searchers remember the last result of a search and hold a result back that shows nothing else.
-/

namespace Jukebox

/-- A searcher with its last result. -/
structure Searcher where
  previous : List Path := []
deriving DecidableEq, Repr

namespace Searcher

/-- Whether two results show the same: they have the same length, and the second keys of their
paths agree. -/
def sameResults (first second : List Path) : Bool :=
  first.map (·[1]?) == second.map (·[1]?)

/-- Remembers a result, and holds it back if it shows the same as the last one. -/
def diff (searcher : Searcher) (paths : List Path) : Option (List Path) × Searcher :=
  (if sameResults searcher.previous paths then none else some paths, ⟨paths⟩)

def search (searcher : Searcher) (catalog : Catalog) (input : String) :
    Option (List Path) × Searcher :=
  searcher.diff (catalog.search input)

end Searcher

end Jukebox
