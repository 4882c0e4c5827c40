import Jukebox.Text.Numeral

/-!
The command line. Every option takes one value, which is attached to it or comes next; an option
that is not given there can be given in the environment.

The value of an option is looked at when the next option or flag comes, or at the end; but an
argument that is not known is reported before a value that is not yet looked at.
-/

namespace Jukebox.Settings

/-- The options. -/
inductive Parameter where
  | port
  | bind
  | library
  | dataDir
  | config
deriving DecidableEq, Repr

namespace Parameter

/-- All options, in the order in which the environment is looked at. -/
def all : List Parameter := [port, bind, library, dataDir, config]

def name : Parameter → String
  | port => "port"
  | bind => "bind"
  | library => "library"
  | dataDir => "data-dir"
  | config => "config"

/-- The short name of an option. -/
def letter : Parameter → Char
  | port => 'p'
  | bind => 'b'
  | library => 'l'
  | dataDir => 'd'
  | config => 'c'

/-- The environment variable of an option. -/
def environmentName : Parameter → String
  | port => "MUSE_PORT"
  | bind => "MUSE_BIND"
  | library => "MUSE_LIBRARY"
  | dataDir => "MUSE_DATA_DIR"
  | config => "MUSE_CONFIG"

end Parameter

/-- Why a command line leads to no settings. The last two are not faults: help or the version was
asked for. -/
inductive Usage where
  | unknownArgument
  /-- An option without a value, or with an empty one where it has to name a file. -/
  | noValue
  /-- A port that is no number in its range. -/
  | badValue
  /-- An option given twice. -/
  | repeated
  /-- A flag with a value. -/
  | needlessValue
  | help
  | version
deriving DecidableEq, Repr

/-- What the command line and the environment give. -/
structure Arguments where
  port : Option Nat := none
  bind : Option String := none
  library : Option String := none
  dataDir : Option String := none
  config : Option String := none
deriving DecidableEq, Repr

/-- The number of a port: decimal digits, perhaps after a sign. -/
def port? (text : String) : Option Nat :=
  let value := match text.toList with
    | '-' :: digits => (Text.decimal? digits).filter (· = 0)
    | '+' :: digits => Text.decimal? digits
    | digits => Text.decimal? digits
  value.filter (· < 65536)

namespace Arguments

/-- Whether an option is given. -/
def has (arguments : Arguments) : Parameter → Bool
  | .port => arguments.port.isSome
  | .bind => arguments.bind.isSome
  | .library => arguments.library.isSome
  | .dataDir => arguments.dataDir.isSome
  | .config => arguments.config.isSome

/-- The name of a file, which is not empty. -/
def fileName (text : String) : Except Usage String :=
  if text.isEmpty then .error .noValue else .ok text

/-- Gives an option a value. -/
def set (arguments : Arguments) (parameter : Parameter) (text : String) :
    Except Usage Arguments := do
  match parameter with
  | .port =>
    match port? text with
    | some port => return { arguments with port }
    | none => throw .badValue
  | .bind => return { arguments with bind := text }
  | .library => return { arguments with library := ← fileName text }
  | .dataDir => return { arguments with dataDir := ← fileName text }
  | .config => return { arguments with config := ← fileName text }

/-- Gives an option a value on the command line, where it is given only once. -/
def give (arguments : Arguments) (parameter : Parameter) : Option String → Except Usage Arguments
  | none => .error .noValue
  | some text => if arguments.has parameter then .error .repeated else arguments.set parameter text

/-! ### The command line -/

/-- An option whose value is not yet looked at. -/
structure Pending where
  parameter : Parameter
  value : Option String

/-- The command line so far: what was given, the option that is pending, and whether two hyphens
came by, after which there are no options any more. -/
structure Progress where
  arguments : Arguments := {}
  pending : Option Pending := none
  trailing : Bool := false

/-- Looks at the value of the pending option. -/
def Progress.resolve (progress : Progress) : Except Usage Arguments :=
  match progress.pending with
  | some ⟨parameter, value⟩ => progress.arguments.give parameter value
  | none => .ok progress.arguments

/-- What a name means: an option, or the flag that asks for help or for the version. -/
inductive Meaning where
  | option (parameter : Parameter)
  | flag (outcome : Usage)

/-- What a long name means. -/
def meaningOfName? (name : String) : Option Meaning :=
  if name = "help" then some (.flag .help)
  else if name = "version" then some (.flag .version)
  else (Parameter.all.find? (·.name = name)).map .option

/-- What a short name means. -/
def meaningOfLetter? (letter : Char) : Option Meaning :=
  if letter = 'h' then some (.flag .help)
  else if letter = 'V' then some (.flag .version)
  else (Parameter.all.find? (·.letter = letter)).map .option

/-- Starts an option, with the value that is attached to it. -/
def Progress.start (progress : Progress) (parameter : Parameter) (attached : Option String) :
    Except Usage Progress := do
  let arguments ← progress.resolve
  match attached with
  | some value => return { arguments := ← arguments.give parameter value }
  | none => return { arguments, pending := some ⟨parameter, none⟩ }

/-- Ends the command line with what a flag asks for. -/
def Progress.finish (progress : Progress) (outcome : Usage) : Except Usage Progress := do
  discard progress.resolve
  throw outcome

/-- Takes an argument with a long name, given without its hyphens. -/
def Progress.takeLong (progress : Progress) (text : List Char) : Except Usage Progress :=
  let name := String.ofList (text.takeWhile (· ≠ '='))
  let attached := match text.dropWhile (· ≠ '=') with
    | _ :: value => some (String.ofList value)
    | [] => none
  match meaningOfName? name with
  | some (.option parameter) => progress.start parameter attached
  | some (.flag outcome) =>
    if attached.isSome then .error .needlessValue else progress.finish outcome
  | none => .error .unknownArgument

/-- Takes an argument with a short name; what follows the name is the value of an option. -/
def Progress.takeShort (progress : Progress) (letter : Char) (rest : List Char) :
    Except Usage Progress :=
  match meaningOfLetter? letter with
  | some (.option parameter) =>
    progress.start parameter (match rest with
      | '=' :: value => some (String.ofList value)
      | [] => none
      | value => some (String.ofList value))
  | some (.flag outcome) => progress.finish outcome
  | none => .error .unknownArgument

/-- Takes an argument without a name: the value of the pending option, if it has none yet. -/
def Progress.takePlain (progress : Progress) (text : String) : Except Usage Progress :=
  match progress.pending with
  | some ⟨parameter, none⟩ => .ok { progress with pending := some ⟨parameter, some text⟩ }
  | _ => .error .unknownArgument

/-- Takes one argument. -/
def Progress.take (progress : Progress) (text : String) : Except Usage Progress :=
  if progress.trailing then .error .unknownArgument else
  match text.toList with
  | ['-', '-'] => .ok { progress with trailing := true }
  | '-' :: '-' :: long => progress.takeLong long
  | '-' :: letter :: rest => progress.takeShort letter rest
  | _ => progress.takePlain text

/-- Adds what the environment gives to what the command line gives. -/
def withEnvironment (environment : String → Option String) (arguments : Arguments) :
    Except Usage Arguments :=
  Parameter.all.foldlM (fun arguments parameter =>
    match environment parameter.environmentName with
    | some text => if arguments.has parameter then .ok arguments else arguments.set parameter text
    | none => .ok arguments) arguments

/-- Reads the command line and the environment. -/
def read (words : List String) (environment : String → Option String) :
    Except Usage Arguments := do
  let progress ← words.foldlM Progress.take {}
  withEnvironment environment (← progress.resolve)

end Arguments

end Jukebox.Settings
