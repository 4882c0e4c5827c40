import Jukebox.Catalog.Library
import Jukebox.Text.Blank
import Jukebox.Text.Lowercase

/-!
Free-text search. A text matches if it holds every word of the query, whatever the case; the
answer lists the top-level groups that hold a match at or below them.
-/

namespace Jukebox.Search

/-- Whether a run of characters occurs in another. -/
def occursIn (part : List Char) : (whole : List Char) → Bool
  | [] => part.isEmpty
  | c :: rest => part.isPrefixOf (c :: rest) || occursIn part rest

/-- The words of a query in lower case. -/
def queryWords (query : String) : List (List Char) :=
  (Text.words query.toList).map fun word => Text.lowercase (String.ofList word)

/-- Whether a text holds every word. -/
def textMatches (words : List (List Char)) (text : String) : Bool :=
  let lowered := Text.lowercase text
  words.all (occursIn · lowered)

/-- Whether one of the texts of a track holds every word. -/
def trackMatches (words : List (List Char)) (track : Track) : Bool :=
  textMatches words track.name || textMatches words track.album ||
    track.artist.any (textMatches words) || track.composer.any (textMatches words)

/-- Whether the name of a group or one of its tracks holds every word. -/
def groupMatches (words : List (List Char)) (group : Group) : Bool :=
  textMatches words group.name || group.tracks.any (trackMatches words)

/-- Adds the top-level group of an entry to the paths found, unless it is there already. -/
def collect (words : List (List Char)) (found : List Path) (entry : Library.Entry) : List Path :=
  let top := entry.1.truncated 2
  if entry.1.length < 2 || found.contains top then found
  else if groupMatches words entry.2 then found ++ [top]
  else found

/-- The top-level groups with a match, in the order of the entries. -/
def run (entries : List Library.Entry) (query : String) : List Path :=
  let words := queryWords query
  if words.isEmpty then [] else entries.foldl (collect words) []

end Jukebox.Search

namespace Jukebox

/-- The catalog of a library. -/
def Catalog.ofLibrary (library : Library) : Except Error Catalog := do
  let entries ← library.entries
  return {
    groups := Std.ExtTreeMap.ofList entries
    search := Search.run entries
    filters := library.filters
    recent := library.recent }

end Jukebox
