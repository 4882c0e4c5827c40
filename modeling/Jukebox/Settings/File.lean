import Jukebox.Toml.Document

/-!
The settings file: a TOML table in which every key may be left out, and no other key may stand.
-/

namespace Jukebox.Settings

/-- What a settings file gives. -/
structure File where
  bind : Option String := none
  port : Option Nat := none
  libraryPath : Option String := none
  dataDir : Option String := none
  anchorRoot : Option String := none
  logLevel : String := "info"
deriving DecidableEq, Repr

namespace File

def keys : List String := ["bind", "port", "library_path", "data_dir", "anchor_root", "logging"]

/-- A string. -/
def string? : Toml.Value → Option String
  | .string s => some s
  | _ => none

/-- The number of a port. -/
def port? : Toml.Value → Option Nat
  | .integer n => if 0 ≤ n ∧ n < 65536 then some n.toNat else none
  | _ => none

/-- The level of the log: the key of that name in a table, or the first item of an array. A time is
like an empty table. -/
def logLevel? : Toml.Value → Option String
  | .table entries => ((entries.lookup "level").map string?).getD (some "info")
  | .array items => (items.head?.map string?).getD (some "info")
  | .time => some "info"
  | _ => none

/-- The value of a key, none if it is left out. The outer option is none if it is of another
type. -/
def optional (read : Toml.Value → Option α) (value : Option Toml.Value) : Option (Option α) :=
  match value with
  | some v => (read v).map some
  | none => some none

/-- The settings that a table gives. -/
def ofValue? (table : Toml.Value) : Option File := do
  let .table entries := table | none
  if !entries.all fun (key, _) => keys.contains key then none
  return {
    bind := ← optional string? (entries.lookup "bind")
    port := ← optional port? (entries.lookup "port")
    libraryPath := ← optional string? (entries.lookup "library_path")
    dataDir := ← optional string? (entries.lookup "data_dir")
    anchorRoot := ← optional string? (entries.lookup "anchor_root")
    logLevel := (← optional logLevel? (entries.lookup "logging")).getD "info" }

/-- Reads a settings file. -/
def ofText? (text : String) : Option File := do ofValue? (← Toml.ofText? text)

end File

end Jukebox.Settings
