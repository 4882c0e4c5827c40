import Jukebox.Service.Files

/-!
The archive follows the events of a service and saves, for each, what the store it is about holds
by then.
-/

namespace Jukebox

/-- The events that are not yet dealt with, oldest first, and the documents that are saved. -/
structure Archive where
  queue : List Event := []
  saved : StoreFile → Option Json := fun _ => none

namespace Archive

def notice (archive : Archive) (events : List Event) : Archive :=
  { archive with queue := archive.queue ++ events }

/-- Saves the store of a file as it is now. -/
def save (archive : Archive) (service : Service) (file : StoreFile) : Archive :=
  { archive with
    saved := fun f => if f = file then some (service.document file) else archive.saved f }

/-- Deals with the oldest event. -/
def step (archive : Archive) (service : Service) : Archive :=
  match archive.queue with
  | [] => archive
  | event :: rest => { archive with queue := rest }.save service (.ofEvent event)

/-- Deals with that many events. -/
def steps (archive : Archive) (service : Service) : Nat → Archive
  | 0 => archive
  | count + 1 => (archive.step service).steps service count

def drain (archive : Archive) (service : Service) : Archive :=
  archive.steps service archive.queue.length

end Archive

end Jukebox
