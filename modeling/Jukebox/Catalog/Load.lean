import Jukebox.Catalog.Codec
import Jukebox.Catalog.Search

/-!
Loading a catalog from the JSON of a library.
-/

namespace Jukebox.Catalog

/-- The catalog of a library that a source holds. -/
def ofSource (source : Json.Source) : Except Error Catalog :=
  match Json.Decoder.run Library.decoder source with
  | some library => ofLibrary library
  | none => .error .undecodable

/-- The catalog of a library file, given its text if the file can be read. -/
def ofFile (text : Option String) : Except Error Catalog :=
  match text with
  | none => .error .unreadable
  | some text =>
    match Json.Source.ofText? text with
    | some source => ofSource source
    | none => .error .undecodable

end Jukebox.Catalog
