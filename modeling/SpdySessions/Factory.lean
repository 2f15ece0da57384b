import SpdySessions.Attempt
import SpdySessions.Client
import SpdySessions.Config
import SpdySessions.Connector
import SpdySessions.Lifecycle
import SpdySessions.Negotiation
import SpdySessions.Scheduler
import SpdySessions.ServerName

/-!
Factories. A factory owns what its clients share: the buffer pool, the components of its current
run, the pending negotiations and the set of its open sessions. Every connect is an attempt with a
number of its own, counted from zero; every run has a connector and a scheduler, of which attempts
of that run are the only users.
-/

namespace SpdySessions

/-- A factory and everything that hangs on it. -/
structure Factory (codec : HeaderCodec) where
  config : Config := {}
  security : Security := .plain
  /-- The executor was supplied; it is neither made nor taken down here. -/
  suppliedExecutor : Bool := false
  pool : BufferPool := config.pool
  lifecycle : Lifecycle := {}
  clients : List Client := []
  connectors : List Connector := []
  schedulers : List (Scheduler ChannelId) := []
  attempts : List (Attempt codec) := []
  negotiations : Negotiations := {}
  sessions : List SessionId := []
  sessionsMade : Nat := 0

namespace Factory

variable {codec : HeaderCodec}

def isRunning (f : Factory codec) : Bool :=
  f.lifecycle.isRunning

def latestRun (f : Factory codec) : Nat :=
  f.lifecycle.runs - 1

/-- How long a connection may be idle, unless its client says otherwise. -/
def idleTimeout (f : Factory codec) : Span :=
  f.config.idleTimeout

def sessionCount (f : Factory codec) : Nat :=
  f.sessions.length

def describe (f : Factory codec) : String :=
  "ClientFactory \x7b state: " ++ f.lifecycle.phase.label ++ ", security: " ++
    f.security.describe ++ ", sessions: " ++ toString f.sessionCount ++ ", config: " ++
    f.config.describe ++ " \x7d"

/-! ### Clients -/

/-- Makes a client for a protocol version, given by its number, and gives the client's place. -/
def newClient (f : Factory codec) (number : UInt16) : Except Fault Nat × Factory codec :=
  match Version.ofNumber number with
  | .error fault => (.error fault, f)
  | .ok version => (.ok f.clients.length, { f with clients := f.clients ++ [{ version }] })

def configure (f : Factory codec) (client : Nat) (change : Client → Client) : Factory codec :=
  { f with clients := f.clients.modify client change }

/-- The client that asked for an attempt, with its settings of now. -/
def clientOf (f : Factory codec) (a : Attempt codec) : Client :=
  (f.clients[a.client]?).getD { version := .v3 }

/-! ### Changes in one place -/

def modify (f : Factory codec) (id : ChannelId) (change : Attempt codec → Attempt codec) :
    Factory codec :=
  { f with attempts := f.attempts.modify id change }

def modifyConnector (f : Factory codec) (run : Nat) (change : Connector → Connector) :
    Factory codec :=
  { f with connectors := f.connectors.modify run change }

/-- Closes a channel; true for the call that does it. -/
def close (f : Factory codec) (id : ChannelId) : Bool × Factory codec :=
  ((f.attempts[id]?).any (·.channel.isOpen), f.modify id Attempt.close)

/-- Counts a session among the open ones, unless the factory is not running. -/
def sessionOpened (f : Factory codec) (session : SessionId) : Bool × Factory codec :=
  if f.isRunning then (true, { f with sessions := Connector.enter session f.sessions })
  else (false, f)

/-- Counts a session no longer, unless the factory is not running. -/
def sessionClosed (f : Factory codec) (session : SessionId) : Bool × Factory codec :=
  if f.isRunning then
    (f.sessions.contains session, { f with sessions := f.sessions.filter (· ≠ session) })
  else (false, f)

/-- The end of the connection that an attempt has a session for. -/
def endpoint? (f : Factory codec) (id : ChannelId) : Option (Endpoint codec) :=
  match f.attempts[id]? with
  | none => none
  | some a =>
      a.link.map fun link => { link with pool := f.pool, channelOpen := a.channel.isOpen }

/-- Puts back what `endpoint?` gave. -/
def setEndpoint (f : Factory codec) (id : ChannelId) (e : Endpoint codec) : Factory codec :=
  modify { f with pool := e.pool } id fun a =>
    { a with link := some e.toLink, channel := { a.channel with isOpen := e.channelOpen } }

/-- Does what is asked of the session of an attempt, if there is one. -/
def call (f : Factory codec) (id : ChannelId) (c : Session.Call) :
    Option Session.Reply × Factory codec :=
  match f.endpoint? id with
  | none => (none, f)
  | some e =>
      let (reply, e) := e.call c
      (some reply, f.setEndpoint id e)

end Factory

end SpdySessions
