import Jukebox.Service.Archive
import Jukebox.Session

/-!
A service with all its connections. Each frame is dealt with as a whole, whichever connection it
comes from; what the connections were sent, what changed and how they ended is kept in order.
-/

namespace Jukebox

open Protocol (Failure Response)

/-- A service, its running sessions, and the record of what happened. Connections are numbered in
the order in which they were made. -/
structure System where
  service : Service
  sessions : Std.ExtTreeMap Nat Session := ∅
  connections : Nat := 0
  /-- The connections that take no more messages. -/
  muted : Std.ExtTreeSet Nat := ∅
  sent : List (Nat × Response) := []
  events : List Event := []
  ended : List (Nat × Option Failure) := []
  archive : Archive := {}

namespace System

/-- What can happen. -/
inductive Step where
  | connect
  | receive (connection : Nat) (fresh : Uuid) (now : Time.Instant) (inbound : Session.Inbound)
  | mute (connection : Nat)
  | save

/-- Records what changed. -/
def report (system : System) (events : List Event) : System :=
  { system with
    events := system.events ++ events
    archive := system.archive.notice events }

/-- Adds what a session leaves to the system. -/
def settle (system : System) (connection : Nat) (turn : Session.Turn) : System :=
  let system := { system with service := turn.service, sent := system.sent ++ turn.sent }.report
    turn.events
  match turn.status with
  | .running session => { system with sessions := system.sessions.insert connection session }
  | .ended failure => { system with
      sessions := system.sessions.erase connection
      ended := system.ended ++ [(connection, failure)] }

/-- The system after a step. A connection that has ended takes nothing any more. -/
def step (system : System) : Step → System
  | .connect => { system with
      sessions := system.sessions.insert system.connections { id := system.connections }
      connections := system.connections + 1 }
  | .receive connection fresh now inbound =>
    match system.sessions[connection]? with
    | none => system
    | some session =>
      let circumstances := ⟨fresh, now, fun inbox => !system.muted.contains inbox⟩
      system.settle connection (session.step system.service circumstances inbound)
  | .mute connection => { system with muted := system.muted.insert connection }
  | .save => { system with archive := system.archive.step system.service }

def run (system : System) (steps : List Step) : System := steps.foldl step system

end System

end Jukebox
