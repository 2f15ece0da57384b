import SpdySessions.Address

/-!
Channels. A channel stands for one connect from its start to its end; it is open until someone
closes it, and closing it again does nothing. Whoever waits for the end of a channel is told once it
is closed.
-/

namespace SpdySessions

/-- Channels are numbered from one in the order of their making. -/
abbrev ChannelId := Nat

/-- A channel to a peer. -/
structure Channel where
  id : ChannelId
  peer : Address
  isOpen : Bool := true
  deriving DecidableEq

namespace Channel

/-- Closes the channel; true for the call that does it. -/
def close (c : Channel) : Bool × Channel :=
  (c.isOpen, { c with isOpen := false })

def describe (c : Channel) : String :=
  s!"Channel \x7b id: ChannelId({c.id}), peer: {c.peer.text}, open: {c.isOpen} \x7d"

end Channel

/-- Some channels, and who waits for the end of which, in the order of asking. -/
structure Channels where
  channels : List Channel := []
  waiting : List (String × ChannelId) := []

namespace Channels

def get? (cs : Channels) (id : ChannelId) : Option Channel :=
  cs.channels.find? (·.id = id)

def add (cs : Channels) (peer : Address) : ChannelId × Channels :=
  let id := cs.channels.length + 1
  (id, { cs with channels := cs.channels ++ [{ id, peer }] })

def isOpen (cs : Channels) (id : ChannelId) : Bool :=
  (cs.get? id).any (·.isOpen)

def close (cs : Channels) (id : ChannelId) : Bool × Channels :=
  (cs.isOpen id,
    { cs with channels := cs.channels.map fun c => if c.id = id then c.close.2 else c })

def await (cs : Channels) (tag : String) (id : ChannelId) : Channels :=
  { cs with waiting := cs.waiting ++ [(tag, id)] }

/-- Those whose wait is over, and the channels without them. -/
def wake (cs : Channels) : List String × Channels :=
  ((cs.waiting.filter fun w => !cs.isOpen w.2).map (·.1),
    { cs with waiting := cs.waiting.filter fun w => cs.isOpen w.2 })

end Channels

end SpdySessions
