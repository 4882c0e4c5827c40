import Jukebox.Protocol.Message

/-!
The writer of a socket: it takes the queued responses in order and writes the text of each. When it is
told to stop, or nobody is left who could send, it first writes what is queued and then closes the socket.
A socket that takes no more texts ends it at once.
-/

namespace Jukebox.Socket

open Protocol (Response)

/-- The state of a writer. -/
structure Writer where
  queue : List Response := []
  /-- Whether all who could send are gone. -/
  abandoned : Bool := false
  stopped : Bool := false
  /-- The text that was taken from the queue and is about to be written. -/
  writing : Option String := none
  written : List String := []
  closed : Bool := false

namespace Writer

/-- What can happen to a writer: a response is sent, by the session or to its player, all who could send
are gone, the session is over, or it is the writer's turn, with a socket that takes texts or does not. -/
inductive Step where
  | enqueue (response : Response)
  | abandon
  | stop
  | poll (accepts : Bool)

/-- The turn of a writer. It writes the text that it holds; else it takes the oldest response. Only if
there is none it looks whether it has to stop. -/
def poll (writer : Writer) (accepts : Bool) : Writer :=
  if writer.closed then writer else
  match writer.writing, writer.queue with
  | some text, _ =>
    if accepts then { writer with writing := none, written := writer.written ++ [text] }
    else { writer with writing := none, closed := true }
  | none, response :: rest => { writer with queue := rest, writing := some response.text }
  | none, [] => if writer.stopped || writer.abandoned then { writer with closed := true } else writer

/-- The writer after a step. Nothing is sent when all who could send are gone. What is sent after the socket
is closed stays in the queue. -/
def step (writer : Writer) : Step → Writer
  | .enqueue response =>
    if writer.abandoned then writer else { writer with queue := writer.queue ++ [response] }
  | .abandon => { writer with abandoned := true }
  | .stop => { writer with stopped := true }
  | .poll accepts => writer.poll accepts

def run (writer : Writer) (steps : List Step) : Writer := steps.foldl step writer

end Writer

end Jukebox.Socket
