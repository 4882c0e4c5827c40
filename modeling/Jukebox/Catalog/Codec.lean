import Jukebox.Catalog.Library
import Jukebox.Catalog.View
import Jukebox.Path.Codec

/-!
Libraries as JSON, and tracks and views of groups as they are sent.
-/

namespace Jukebox

open Json (Decoder)
open Json.Decoder (Field)

namespace Track

/-- The fields of a track; only its name has to be given. -/
def fields : List Field :=
  [⟨["Id"], .default⟩, ⟨["Name"], .error⟩, ⟨["Album"], .default⟩, ⟨["Artist"], .default⟩,
    ⟨["Composer"], .default⟩, ⟨["Year"], .default⟩, ⟨["DiscNumber"], .default⟩,
    ⟨["TrackNumber"], .default⟩, ⟨["DurationMs"], .default⟩]

def decoder : Decoder Track := fun depth source => do
  let (depth, [id, some name, album, artist, composer, year, disc, track, duration]) ←
    Decoder.record fields depth source | none
  return {
    id := ← Decoder.orDefault .string "" depth id
    name := ← Decoder.string depth name
    album := ← Decoder.orDefault .string "" depth album
    artist := ← Decoder.orDefault (.list .string) [] depth artist
    composer := ← Decoder.orDefault (.list .string) [] depth composer
    year := ← Decoder.orDefault (.optional (.below UInt32.size)) none depth year
    discNumber := ← Decoder.orDefault (.optional (.below UInt32.size)) none depth disc
    trackNumber := ← Decoder.orDefault (.optional (.below UInt32.size)) none depth track
    durationMs := ← Decoder.orDefault (.below UInt64.size) 0 depth duration }

def toJson (track : Track) : Json := .object [
  ("Id", .string track.id), ("Name", .string track.name), ("Album", .string track.album),
  ("Artist", .list .string track.artist), ("Composer", .list .string track.composer),
  ("Year", .optional .natural track.year), ("DiscNumber", .optional .natural track.discNumber),
  ("TrackNumber", .optional .natural track.trackNumber),
  ("DurationMs", .natural track.durationMs)]

end Track

namespace FilterItem

def decoder : Decoder FilterItem := fun depth source => do
  let (depth, [some name, paths]) ←
    Decoder.record [⟨["Name"], .error⟩, ⟨["Paths"], .default⟩] depth source | none
  return ⟨← Decoder.string depth name, ← Decoder.orDefault (.list Path.decoder) [] depth paths⟩

def toJson (item : FilterItem) : Json :=
  .object [("Name", .string item.name), ("Paths", .list Path.toJson item.paths)]

end FilterItem

namespace Library

/-- The fields of a node; only its name has to be given. -/
def Node.fields : List Field :=
  [⟨["Name"], .error⟩, ⟨["Key"], .default⟩, ⟨["Groups"], .default⟩, ⟨["Tracks"], .default⟩]

/-- Reads a node with at most that many levels of nodes. -/
def Node.decoderWithin : (levels : Nat) → Decoder Node
  | 0, _, _ => none
  | levels + 1, depth, source => do
    let (depth, [some name, key, groups, tracks]) ← Decoder.record Node.fields depth source | none
    return {
      name := ← Decoder.string depth name
      ownKey := ← Decoder.orDefault (.optional Key.decoder) none depth key
      groups := ← Decoder.orDefault (.list (decoderWithin levels)) [] depth groups
      tracks := ← Decoder.orDefault (.list Track.decoder) [] depth tracks }

/-- Reads a node. Each level of nodes opens an object or array, so there are no more levels than
may be open. -/
def Node.decoder : Decoder Node := fun depth => Node.decoderWithin depth depth

def decoder : Decoder Library := fun depth source => do
  let (depth, [some collections, filters, recent]) ← Decoder.record
    [⟨["Collections"], .error⟩, ⟨["Filters"], .default⟩, ⟨["Recent"], .default⟩] depth source
    | none
  let filters ← Decoder.orDefault (.members (.list FilterItem.decoder)) [] depth filters
  return {
    collections := ← Decoder.list Node.decoder depth collections
    filters := .ofList filters
    recent := ← Decoder.orDefault (.list Path.decoder) [] depth recent }

end Library

def ChildView.toJson (child : ChildView) : Json := .object [
  ("Key", .string child.key), ("Name", .string child.name),
  ("Favourite", .bool child.favourite), ("Checklist", .bool child.checklist)]

def GroupView.toJson (view : GroupView) : Json := .object [
  ("Path", view.path.toJson), ("Name", .string view.name),
  ("Groups", .list ChildView.toJson view.groups), ("Tracks", .list Track.toJson view.tracks),
  ("Favourite", .bool view.favourite), ("Checklist", .bool view.checklist)]

end Jukebox
