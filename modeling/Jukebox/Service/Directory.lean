import Std.Data.ExtTreeMap
import Std.Data.ExtTreeSet
import Jukebox.Error
import Jukebox.Json.Printer
import Jukebox.Json.Source

/-!
Directories: a tree of folders with the texts of files. A file is named by the folders that lead
to it and its own name, with slashes between them. A new text is written beside the file and then
takes its place.
-/

namespace Jukebox

/-- A directory: the folders in it and the texts of the files, each by the names that lead there. -/
structure Directory where
  folders : Std.ExtTreeSet (List String) := ∅
  files : Std.ExtTreeMap (List String) String := ∅

namespace Directory

/-! ### Names -/

def longestName : Nat := 255

def longestPath : Nat := 4095

/-- Whether nothing can be asked for by a path. -/
def isUnusable (path : String) : Bool :=
  longestPath < path.utf8ByteSize || path.toList.contains '\x00'

def isTooLong (name : String) : Bool := longestName < name.utf8ByteSize

/-- Whether a name stands for the folder that it is in. -/
def isHere (name : String) : Bool := name == "" || name == "."

/-- The names in a path. -/
def segments (path : String) : List String := path.splitOn "/"

/-- The names that lead on. -/
def names (segments : List String) : List String := segments.filter (!isHere ·)

/-- What stands before the last name of a path that leads on, and that name. -/
def splitName? (path : String) : Option (List String × String) :=
  match (segments path).reverse.dropWhile isHere with
  | [] => none
  | name :: before => some (before.reverse, name)

/-- The path of the folder that segments lead to. -/
def folderPath (segments : List String) : String :=
  "/".intercalate (segments.reverse.dropWhile isHere).reverse

/-- The name of a file without its extension. A dot at the start of a name starts no extension. -/
def stem (name : String) : String :=
  match name.toList.reverse.dropWhile (· ≠ '.') with
  | _ :: rest => if rest.isEmpty then name else String.ofList rest.reverse
  | [] => name

/-- The name under which a new text is written before it takes the place of the old one. -/
def temporaryName (name : String) : String := stem name ++ ".json.tmp"

/-- The name under which a new text is written for a path with that last name. A path without its
extension must not end in `..`, for then it names a folder. -/
def temporaryName? (path name : String) : Option String :=
  if name = ".." || (stem name = "." && (segments path).getLast? = some name) then none
  else some (temporaryName name)

/-! ### Places -/

/-- Whether there is a folder at a place. -/
def isFolder (directory : Directory) (place : List String) : Bool :=
  place.isEmpty || directory.folders.contains place

/-- Follows names from a place. None if one of them leads to nothing; an error if one of them is
too long, or comes after a file. -/
def follow (directory : Directory) (place : List String) :
    List String → Except Error (Option (List String))
  | [] => .ok (some place)
  | name :: rest =>
    if !directory.isFolder place || isTooLong name then .error .unreadable
    else if isHere name then directory.follow place rest
    else if name = ".." then directory.follow place.dropLast rest
    else
      let next := place ++ [name]
      if directory.isFolder next || directory.files.contains next then directory.follow next rest
      else .ok none

/-- The place that a path leads to, if there is something. -/
def find (directory : Directory) (path : String) : Except Error (Option (List String)) :=
  if isUnusable path then .error .unreadable else directory.follow [] (segments path)

/-- Follows names from a place and makes the folders that are missing: the directory, and where
the names lead. -/
def makeFolders (directory : Directory) (place : List String) :
    List String → Directory × Except Error (List String)
  | [] => (directory, .ok place)
  | name :: rest =>
    if name = ".." then directory.makeFolders place.dropLast rest
    else
      let next := place ++ [name]
      if isTooLong name || directory.files.contains next then (directory, .error .unreadable)
      else { directory with folders := directory.folders.insert next }.makeFolders next rest

def put (directory : Directory) (path text : String) : Directory :=
  let place := names (segments path)
  let (directory, _) := directory.makeFolders [] place.dropLast
  { directory with files := directory.files.insert place text }

/-- The paths of the files in a folder, from there and in order. -/
def list (directory : Directory) (folder : List String) : List String :=
  let places := directory.files.keys.filter (folder.isPrefixOf ·)
  (places.map fun place => "/".intercalate (place.drop folder.length)).mergeSort

/-! ### Reading and writing -/

/-- The text of a file, if there is one. -/
def text? (directory : Directory) (path : String) : Except Error (Option String) := do
  match ← directory.find path with
  | none => return none
  | some place =>
    match directory.files[place]? with
    | some text => return some text
    | none => throw .unreadable

/-- What a file holds, if there is one. -/
def read (directory : Directory) (path : String) : Except Error (Option Json.Source) := do
  match ← directory.text? path with
  | none => return none
  | some text =>
    match Json.Source.ofText? text with
    | some source => return some source
    | none => throw .undecodable

/-- Puts a text under a temporary name in a folder and then in the place of a file there. The path
has to end with the name of the file, and that must not be a folder; else the text stays under the
temporary name. -/
def replace (directory : Directory) (folder : List String) (path temporary name text : String) :
    Directory × Except Error Unit :=
  if isTooLong temporary || directory.isFolder (folder ++ [temporary]) then
    (directory, .error .unreadable)
  else
    let files := directory.files.insert (folder ++ [temporary]) text
    if isUnusable path || isTooLong name || (segments path).getLast? ≠ some name ||
        directory.isFolder (folder ++ [name]) then
      ({ directory with files }, .error .unreadable)
    else
      let files := (files.erase (folder ++ [temporary])).insert (folder ++ [name]) text
      ({ directory with files }, .ok ())

/-- Writes a value into a file, with the folders that lead to it. -/
def write (directory : Directory) (path : String) (value : Json) :
    Directory × Except Error Unit :=
  match splitName? path with
  | none => (directory, .error .unreadable)
  | some (before, name) =>
    if isUnusable (folderPath before) then (directory, .error .unreadable)
    else match directory.makeFolders [] (names before) with
      | (directory, .error e) => (directory, .error e)
      | (directory, .ok folder) =>
        match temporaryName? path name with
        | none => (directory, .error .unreadable)
        | some temporary =>
          if isUnusable ("/".intercalate (before ++ [temporary])) then
            (directory, .error .unreadable)
          else directory.replace folder path temporary name value.pretty

end Directory

end Jukebox
