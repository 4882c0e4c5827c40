import Jukebox.Settings.Address
import Jukebox.Settings.Arguments
import Jukebox.Settings.File

/-!
The settings of the server. Arguments go before the settings file, and the file goes before the
defaults.
-/

namespace Jukebox

structure Settings where
  bind : Settings.Address
  port : Nat
  libraryPath : String
  dataDir : Option String
  anchorRoot : String
  logLevel : String
deriving DecidableEq, Repr

namespace Settings

/-- Why there are no settings. -/
inductive Fault where
  /-- The settings file is there, but cannot be read. -/
  | unreadableFile
  /-- The settings file is not what it should be. -/
  | malformedFile
  /-- The address to listen on is none. -/
  | badAddress (text : String)
  /-- No library is given. -/
  | noLibrary
  /-- The collection of the cursors has an empty key. -/
  | emptyAnchor
deriving DecidableEq, Repr

/-- The report of a fault. -/
def Fault.message : Fault → String
  | unreadableFile => "Failed to read config file"
  | malformedFile => "Failed to parse TOML"
  | badAddress text => "Invalid bind address '" ++ text ++ "': invalid IP address syntax"
  | noLibrary => "No library file configured (use --library or library_path)"
  | emptyAnchor => "anchor_root must not be empty"

/-! ### The settings file -/

/-- A path with a name below it. -/
def join (directory name : String) : String :=
  if directory.endsWith "/" then directory ++ name else directory ++ "/" ++ name

/-- The directory of settings: the one that the environment names, if it is absolute, or the one
below the home directory. -/
def directory? (environment : String → Option String) : Option String :=
  match (environment "XDG_CONFIG_HOME").filter (·.startsWith "/") with
  | some directory => some directory
  | none => ((environment "HOME").filter (!·.isEmpty)).map (join · ".config")

/-- The path of the settings file: the one that the arguments name, or the one in the directory of
settings. -/
def filePath? (arguments : Arguments) (environment : String → Option String) : Option String :=
  arguments.config <|> (directory? environment).map fun d => join (join d "muse") "config.toml"

/-- What there is at a path. -/
inductive Stored where
  | missing
  | unreadable
  | text (text : String)

/-- The settings that a file gives. A file that is missing gives none. -/
def File.load : Stored → Except Fault File
  | .missing => .ok {}
  | .unreadable => .error .unreadableFile
  | .text text =>
    match File.ofText? text with
    | some file => .ok file
    | none => .error .malformedFile

/-! ### Resolution -/

/-- The settings that arguments and a file give together. -/
def resolve (arguments : Arguments) (file : File) : Except Fault Settings := do
  let address := (arguments.bind <|> file.bind).getD "127.0.0.1"
  let some bind := Address.ofText? address | throw (.badAddress address)
  let some libraryPath := arguments.library <|> file.libraryPath | throw .noLibrary
  let anchorRoot := file.anchorRoot.getD "Root"
  if anchorRoot.isEmpty then throw .emptyAnchor
  return {
    bind, libraryPath, anchorRoot
    port := (arguments.port <|> file.port).getD 5729
    dataDir := arguments.dataDir <|> file.dataDir
    logLevel := file.logLevel }

/-- The address and port to listen on. -/
def socketAddress (settings : Settings) : String := settings.bind.withPort settings.port

/-- The filter of the log: the level for each part of the server. -/
def logFilter (settings : Settings) : String :=
  ",".intercalate (["muse_ctl", "muse_common", "tower_http"].map (· ++ "=" ++ settings.logLevel))

end Settings

end Jukebox
