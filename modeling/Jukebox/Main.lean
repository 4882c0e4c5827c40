import Std.Time.DateTime
import Jukebox.Catalog.Load
import Jukebox.Service.Directory
import Jukebox.Settings.Basic
import Jukebox.System

/-!
The command line: it resolves the settings, loads the library, restores what was saved, and serves
one client, whose text frames are the lines of the standard input. Every response is a line of the
standard output.
-/

namespace Jukebox.Main

/-! ### The world -/

/-- What there is at a path. -/
def look (path : String) : IO Settings.Stored := do
  match ← (IO.FS.readFile path).toBaseIO with
  | .ok text => return .text text
  | .error (.noFileOrDirectory ..) => return .missing
  | .error _ => return .unreadable

/-- The variables of the environment that the settings ask for. -/
def environment : IO (String → Option String) := do
  let names := ["XDG_CONFIG_HOME", "HOME"] ++ Settings.Parameter.all.map (·.environmentName)
  let values ← names.mapM fun name => return (name, ← IO.getEnv name)
  return fun name => (values.lookup name).join

/-- The time of the clock. -/
def now : IO Time.Instant := do
  let wall := (← Std.Time.Timestamp.now).toWallTime Std.Time.TimeZone.Offset.zero
  let clock := Std.Time.PlainDateTime.ofWallTime wall
  let date : Time.Date := ⟨clock.date.year.toInt, clock.date.month.toNat, clock.date.day.toNat⟩
  let minuteOfDay := 60 * clock.time.hour.toNat + clock.time.minute.toNat
  match Time.Instant.ofParts? date minuteOfDay clock.time.second.toNat
      clock.time.nanosecond.toNat with
  | some time => return time
  | none => throw (.userError "the clock shows no date")

/-- A random identifier of the fourth version. -/
def freshId : IO Uuid := do
  let bytes ← IO.getRandomBytes 16
  let bytes := bytes.set! 6 (bytes[6]! &&& 0x0f ||| 0x40)
  let bytes := bytes.set! 8 (bytes[8]! &&& 0x3f ||| 0x80)
  return ⟨BitVec.ofNat 128 (bytes.toList.foldl (fun value byte => 256 * value + byte.toNat) 0)⟩

/-! ### Start -/

/-- Ends the program with a report. -/
def fail (report : String) : IO α := throw (.userError report)

/-- Resolves the settings. -/
def settings (words : List String) : IO (Except Settings.Usage Settings) := do
  let environment ← environment
  match Settings.Arguments.read words environment with
  | .error usage => return .error usage
  | .ok arguments =>
    let stored ← match Settings.filePath? arguments environment with
      | some path => look path
      | none => pure .missing
    match Settings.File.load stored >>= Settings.resolve arguments with
    | .ok settings => return .ok settings
    | .error fault => fail fault.message

/-- Loads the library. -/
def loadCatalog (path : String) : IO Catalog := do
  let text ← match ← look path with
    | .text text => pure (some text)
    | _ => pure none
  match Catalog.ofFile text with
  | .ok catalog => return catalog
  | .error e => fail (e.message?.getD ("Failed to load library " ++ path))

/-- The files of a directory that hold stores. -/
def directory (path : String) : IO Directory :=
  StoreFile.all.foldlM (fun directory file => do
    match ← look (path ++ "/" ++ file.name) with
    | .text text => return directory.put file.name text
    | _ => return directory) {}

/-- The service over a catalog, with what was saved. -/
def start (settings : Settings) : IO Service := do
  let service := Service.start (← loadCatalog settings.libraryPath) settings.anchorRoot
  match settings.dataDir with
  | none => return service
  | some path =>
    let directory ← directory path
    match service.restore fun file => directory.read file.name with
    | (service, .ok ()) => return service
    | (_, .error _) => fail ("Failed to restore store snapshots from " ++ path)

/-! ### Service -/

/-- Writes what the archive has saved into a directory. -/
def persist (path : String) (archive : Archive) : IO Unit := do
  IO.FS.createDirAll path
  for file in StoreFile.all do
    if let some document := archive.saved file then
      let temporary := path ++ "/" ++ Directory.temporaryName file.name
      IO.FS.writeFile temporary document.pretty
      IO.FS.rename temporary (path ++ "/" ++ file.name)

/-- Deals with one line. -/
def receive (dataDir : Option String) (system : System) (inbound : Session.Inbound) :
    IO System := do
  let system := system.step (.receive 0 (← freshId) (← now) inbound)
  for (_, response) in system.sent do IO.println response.text
  let archive := system.archive.drain system.service
  if let some path := dataDir then persist path archive
  return { system with sent := [], archive := {} }

/-- Deals with all lines until the input or the session ends. -/
partial def serve (dataDir : Option String) (system : System) : IO Unit := do
  let line ← (← IO.getStdin).getLine
  if line.isEmpty then discard (receive dataDir system .finish)
  else
    let system ← receive dataDir system (.text line.trimAscii.toString)
    match system.ended with
    | (_, failure) :: _ =>
      if let some report := failure.bind (·.message?) then IO.eprintln report
    | [] => serve dataDir system

/-- The text that help shows. -/
def usage : String :=
  "Usage: muse-ctl [-p PORT] [-b BIND] [-l LIBRARY] [-d DATA_DIR] [-c CONFIG]"

end Jukebox.Main

open Jukebox in
/-- Serves one client over the standard input and output. -/
def main (words : List String) : IO UInt32 := do
  match ← Main.settings words with
  | .error .help => IO.println Main.usage; return 0
  | .error .version => IO.println "muse-ctl 0.1.0"; return 0
  | .error _ => IO.eprintln Main.usage; return 2
  | .ok settings =>
    let service ← Main.start settings
    Main.serve settings.dataDir (({ service } : System).step .connect)
    return 0
