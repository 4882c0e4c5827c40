/-!
Lists of subscribers. A channel can be attached to several lists and several times to one; what is
announced on a list goes once to each of its attachments. An attachment whose channel nobody reads
any more is dropped from a list when something is announced on that list.
-/

namespace Jukebox

/-- Lists of attached channels, the channels that are still read, and what these received. -/
structure Exchange (ε : Type) where
  attached : (list : Nat) → List Nat := fun _ => []
  isDropped : (channel : Nat) → Bool := fun _ => false
  received : (channel : Nat) → List ε := fun _ => []

namespace Exchange

def attach (exchange : Exchange ε) (list channel : Nat) : Exchange ε :=
  { exchange with
    attached := fun other =>
      if other = list then exchange.attached other ++ [channel] else exchange.attached other }

/-- Subscribes to a list with a channel that is new. -/
def subscribe (exchange : Exchange ε) (list channel : Nat) : Exchange ε :=
  exchange.attach list channel

/-- Stops reading a channel. -/
def drop (exchange : Exchange ε) (channel : Nat) : Exchange ε :=
  { exchange with isDropped := fun c => c = channel || exchange.isDropped c }

def announce (exchange : Exchange ε) (list : Nat) (event : ε) : Exchange ε :=
  let live := (exchange.attached list).filter fun c => !exchange.isDropped c
  { exchange with
    attached := fun l => if l = list then live else exchange.attached l
    received := fun c => exchange.received c ++ List.replicate (live.count c) event }

def count (exchange : Exchange ε) (list : Nat) : Nat := (exchange.attached list).length

end Exchange

end Jukebox
