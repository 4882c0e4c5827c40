import Jukebox.Protocol.Command
import Jukebox.Searcher
import Jukebox.Service.Basic

/-!
Sessions: one for each connection. A session carries out one command after the other. Each is
answered by at most one response, and the first failure ends the session. A session that ends
takes the key of its player off.
-/

namespace Jukebox

open Protocol (Command Failure Response)

/-- The state of a connection: its number, which is also its inbox, its searcher, and the key of
the player that it was last registered as, or the empty key. -/
structure Session where
  id : Nat
  searcher : Searcher := {}
  playerKey : String := ""

/-- What a command meets: an identifier that is not in use, the time, and the inboxes that still
take messages. -/
structure Circumstances where
  fresh : Uuid
  now : Time.Instant
  isOpen : (inbox : Nat) → Bool

/-- What a command brings about. -/
structure Effect where
  service : Service
  session : Session
  answer : Except Failure (Option Response)
  pushed : List (Nat × Response) := []
  events : List Event := []

namespace Session

/-! ### Commands -/

/-- The answer that shows a value. -/
def respond (tag : Protocol.Tag) (data : Json) : Except Failure (Option Response) :=
  .ok (some (.of tag.name data))

/-- The answer that shows a value, if there is one. -/
def respondWith (tag : Protocol.Tag) : Except Error Json → Except Failure (Option Response)
  | .ok data => respond tag data
  | .error e => .error e

/-- The data of a group that is shown. -/
def fetchData (service : Service) (path : Path) : Except Error Json := do
  let some collection := path.head? | throw .emptyPath
  if (service.catalog.group? (Path.ofCollection collection)).isNone then
    throw (.unknownCollection collection)
  let view ← service.catalog.groupView path
  return .object [("Path", path.toJson), ("Item", (service.mark view).toJson)]

/-- The views of those paths that lead to a group. -/
def viewsJson (service : Service) (paths : List Path) : Json :=
  .list GroupView.toJson (service.catalog.expandPaths paths)

/-- The entries of a filter. -/
def filterItems (service : Service) (name : String) : Except Error (List FilterItem) :=
  match service.catalog.filter? name with
  | some items => .ok items
  | none => .error (.unknownFilter name)

/-- The names of the entries of a filter. -/
def filterListData (service : Service) (name : String) : Except Error Json := do
  let items ← filterItems service name
  return .object [("Name", .string name), ("Items", .list (.string ·.name) items)]

/-- The groups of the entry of a filter that a path of one key names. -/
def filterPathsData (service : Service) (name : String) (path : Path) : Except Error Json := do
  let items ← filterItems service name
  let [itemName] := path | throw (.unknownPath path)
  match items.find? (·.name = itemName) with
  | some item =>
    return .object [("Path", Path.toJson [name, itemName]), ("Paths", viewsJson service item.paths)]
  | none => throw (.unknownFilterItem itemName)

/-- The paths of a list. A list that does not exist has none. -/
def pathsOfList (service : Service) (name : String) : List Path :=
  if name = "recent" then service.catalog.recent
  else match FlagList.ofName? name with
    | some list => service.flaggedRoots list
    | none => []

/-- Carries out a command. -/
def handle (session : Session) (service : Service) (circumstances : Circumstances)
    (command : Command) : Effect :=
  match command with
  | .key key =>
    let next := if key.isEmpty then none else some (key, session.id)
    { service := { service with
        players := service.players.bind session.id session.playerKey next }
      session := { session with playerKey := key }
      answer := .ok none }
  | .players => { service, session, answer := respond .player (.list .string service.players.list) }
  | .forward key action =>
    match service.players.forward circumstances.isOpen key action with
    | .ok push => { service, session, answer := .ok none, pushed := [push] }
    | .error e => { service, session, answer := .error e }
  | .recordPlay path =>
    let (service, events) := service.recordPlay ⟨path, circumstances.now⟩
    { service, session, answer := .ok none, events }
  | .setFlag list path value =>
    let (service, events) := service.setFlag list path value
    { service, session, answer := .ok none, events }
  | .playlist name action =>
    let outcome := service.applyPlaylist circumstances.fresh name action
    { service := outcome.store, session, events := outcome.events
      answer := respondWith .playlist (outcome.answer.map Playlist.Snapshot.toJson) }
  | .cursor name action =>
    let outcome := service.applyCursor name action
    { service := outcome.store, session, events := outcome.events
      answer := respondWith .cursor (outcome.answer.map Cursor.Snapshot.toJson) }
  | .fetch path => { service, session, answer := respondWith .fetch (fetchData service path) }
  | .search input =>
    let (found, searcher) := session.searcher.search service.catalog input
    { service, session := { session with searcher }
      answer := match found with
        | some paths => respond .search (viewsJson service paths)
        | none => .ok none }
  | .filterList name =>
    { service, session, answer := respondWith .filterList (filterListData service name) }
  | .filterPaths name path =>
    { service, session, answer := respondWith .filterPaths (filterPathsData service name path) }
  | .fetchPathList name =>
    { service, session
      answer := respond .fetchPathList (.object [
        ("Name", .string name), ("Data", viewsJson service (pathsOfList service name))]) }

/-! ### The life of a session -/

/-- What reaches a session. -/
inductive Inbound where
  /-- A text frame. -/
  | text (frame : String)
  /-- The stream of frames fails. -/
  | failure (reason : Failure)
  /-- The client is done. -/
  | finish

/-- How a session stands: it waits for what comes next, or it has ended, perhaps by a failure. -/
inductive Status where
  | running (session : Session)
  | ended (failure : Option Failure)

/-- What a session leaves: the service, its own status, what was sent to which connection, and
what changed. -/
structure Turn where
  service : Service
  status : Status
  sent : List (Nat × Response) := []
  events : List Event := []

/-- Takes the key of the session's player off, unless another connection has taken it over. -/
def close (session : Session) (service : Service) : Service :=
  if session.playerKey.isEmpty then service
  else { service with players := service.players.removeOwned session.id session.playerKey }

/-- Ends a session. -/
def finish (session : Session) (service : Service) (failure : Option Failure) : Turn :=
  { service := session.close service, status := .ended failure }

/-- Sends the answer to a command, or ends the session with its failure. -/
def settle (effect : Effect) (isOpen : Nat → Bool) : Turn :=
  let session := effect.session
  match effect.answer with
  | .ok none =>
    { service := effect.service, status := .running session, sent := effect.pushed
      events := effect.events }
  | .ok (some response) =>
    if isOpen session.id then
      { service := effect.service, status := .running session
        sent := effect.pushed ++ [(session.id, response)], events := effect.events }
    else
      { session.finish effect.service (some (.transport .writerGone)) with
        sent := effect.pushed, events := effect.events }
  | .error failure =>
    { session.finish effect.service (some failure) with
      sent := effect.pushed, events := effect.events }

/-- Takes what comes next. -/
def step (session : Session) (service : Service) (circumstances : Circumstances) :
    Inbound → Turn
  | .text frame =>
    match Command.ofText frame with
    | .ok command => settle (session.handle service circumstances command) circumstances.isOpen
    | .error failure => session.finish service (some failure)
  | .failure reason => session.finish service (some reason)
  | .finish => session.finish service none

/-- Takes one thing after the other until the session ends. -/
def run (session : Session) (service : Service) : List (Circumstances × Inbound) → Turn
  | [] => { service, status := .running session }
  | (circumstances, inbound) :: rest =>
    let turn := session.step service circumstances inbound
    match turn.status with
    | .ended _ => turn
    | .running session =>
      let later := session.run turn.service rest
      { later with sent := turn.sent ++ later.sent, events := turn.events ++ later.events }

end Session

end Jukebox
