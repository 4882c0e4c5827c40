import Jukebox.Session

/-!
The frames of a socket, and what of them reaches the session.
-/

namespace Jukebox.Socket

/-- A frame, or the failure of the socket. -/
inductive Frame where
  | text (text : String)
  | binary
  | ping
  | pong
  | close
  | broken (message : String)

namespace Frame

/-- The most bytes that the payload of a ping or a pong may have. -/
def longestPayload : Nat := 125

/-- A ping or a pong with a payload. A longer payload breaks the socket. -/
def control (frame : Frame) (payload : String) : Frame :=
  if payload.utf8ByteSize ≤ longestPayload then frame
  else .broken
    "WebSocket protocol error: Control frame too big (payload must be 125 bytes or less)"

/-- What a frame means to the session. Pings and pongs mean nothing. -/
def inbound? : Frame → Option Session.Inbound
  | text t => some (.text t)
  | binary => some (.failure (.malformed .binary))
  | ping | pong => none
  | close => some .finish
  | broken message => some (.failure (.transport (.broken message)))

/-- What of the frames reaches the session, each with the circumstances it meets. The end of the
stream is like a close. -/
def inbounds (frames : List (Circumstances × Frame)) : List (Circumstances × Session.Inbound) :=
  frames.filterMap fun (circumstances, frame) => frame.inbound?.map (circumstances, ·)

end Frame

end Jukebox.Socket
