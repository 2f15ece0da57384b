import SpdySessions.Channel
import SpdySessions.Fault

/-!
Connectors. A connector keeps track of the channels of one run of a factory: of all that are not
over, of those whose promise waits for a session, and of those that carry a connection.
-/

namespace SpdySessions

/-- The books of a connector. -/
structure Connector where
  running : Bool := true
  /-- Somebody takes in what is registered. -/
  attended : Bool := true
  channels : List ChannelId := []
  pending : List ChannelId := []
  opened : List ChannelId := []
  deriving DecidableEq

namespace Connector

/-- Puts a number into a list, unless it is there. -/
def enter (id : ChannelId) (ids : List ChannelId) : List ChannelId :=
  if id ∈ ids then ids else ids ++ [id]

def strike (id : ChannelId) (ids : List ChannelId) : List ChannelId :=
  ids.filter (· ≠ id)

/-- The channel is over. -/
def forget (c : Connector) (id : ChannelId) : Connector :=
  { c with
    channels := strike id c.channels
    pending := strike id c.pending
    opened := strike id c.opened }

/-- Accepts a channel. A connector that has been stopped or that nobody attends to refuses. -/
def register (c : Connector) (id : ChannelId) : Except Fault Unit × Connector :=
  if c.running then
    let entered := { c with channels := enter id c.channels, pending := enter id c.pending }
    if c.attended then (.ok (), entered) else (.error .notRunning, entered.forget id)
  else (.error .notRunning, c)

/-- The channel carries a connection from now on. -/
def markOpened (c : Connector) (id : ChannelId) : Connector :=
  { c with pending := strike id c.pending, opened := enter id c.opened }

/-- Closes the books. -/
def stop (c : Connector) : Connector :=
  { c with running := false, channels := [], pending := [], opened := [] }

/-- Nobody takes in what is registered any more. -/
def abandon (c : Connector) : Connector :=
  { c with attended := false }

def describe (c : Connector) : String :=
  s!"SelectorManager \x7b channels: {c.channels.length}, pending: {c.pending.length}, " ++
    s!"opened: {c.opened.length}, running: {c.running} \x7d"

end Connector

end SpdySessions
