import SpdySessions.Channel
import SpdySessions.Connection
import SpdySessions.Promise
import SpdySessions.Watchdog

/-!
Attempts. An attempt is one connect from its registration to its end: its channel, the promise that
whoever asked for it holds, and, once there is one, the session with its connection.
-/

namespace SpdySessions

/-- What a callback does when it is handed a session. -/
inductive Deed where
  | call (call : Session.Call)
  | cancel
  | count
  | stop

/-- What a callback does when it is told that there is no session. -/
inductive Retreat where
  | cancel
  | count
  deriving DecidableEq

/-- What is to be done with a session. -/
structure Program where
  deeds : List Deed := []

/-- A callback on a promise, for a session and for the news that there is none. -/
structure Callback extends Program where
  retreats : List Retreat := []

namespace Callback

/-- What a deed gives back. -/
inductive Reply where
  | called (reply : Session.Reply)
  | flag (value : Bool)
  | count (sessions : Nat)
  | nothing

/-- What callbacks leave behind: whether one was handed a session and how many sessions the factory
had then, and what each of its deeds gave back. -/
inductive Entry where
  | ran (delivered : Bool) (sessions : Nat)
  | did (deed : Deed) (reply : Reply)

/-- What a callback leaves behind that is told that there is no session. -/
def retreat (callback : Callback) (sessions : Nat) : List Entry :=
  .ran false sessions :: callback.retreats.map fun
    | .cancel => .did .cancel (.flag true)
    | .count => .did .count (.count sessions)

/-- The callback cancels when it is told that there is no session. -/
def givesUp (callback : Callback) : Bool :=
  callback.retreats.contains .cancel

end Callback

/-- How far an attempt has come. -/
inductive Stage where
  | dialing
  | connected
  | securing
  /-- There is a session, and its connection is at work. -/
  | carrying (progress : Progress)
  | ended

namespace Stage

def isDialing : Stage → Bool
  | dialing => true
  | _ => false

/-- There is no session yet, but there may be one. -/
def isWaiting : Stage → Bool
  | dialing => true
  | connected => true
  | securing => true
  | carrying _ => false
  | ended => false

end Stage

/-- One connect. -/
structure Attempt (codec : HeaderCodec) where
  channel : Channel
  /-- Which of the factory's clients asked for it. -/
  client : Nat
  /-- In which run of the factory it was registered. -/
  run : Nat
  listener : Session.Listener := .silent
  promise : Promise SessionId Callback := {}
  stage : Stage := .dialing
  /-- Whom the socket is connected to, and how long it may be idle. -/
  remote : Address := channel.peer
  idleTimeout : Span := .zero
  lastActivity : Nat := 0
  link : Option (Link codec) := none
  written : Bytes := []
  told : List Session.Entry := []
  callbacks : List Callback.Entry := []

namespace Attempt

variable {codec : HeaderCodec}

def close (a : Attempt codec) : Attempt codec :=
  { a with channel := a.channel.close.2 }

/-- Tells callbacks that there is no session. A cancel comes too late for the outcome, but it closes the
channel. -/
def disappoint (a : Attempt codec) (callbacks : List Callback) (sessions : Nat) : Attempt codec :=
  { a with
    callbacks := a.callbacks ++ callbacks.flatMap (·.retreat sessions)
    channel := if callbacks.any Callback.givesUp then a.channel.close.2 else a.channel }

def watchdog (a : Attempt codec) : Watchdog :=
  ⟨a.idleTimeout.toNanos, a.lastActivity⟩

end Attempt

end SpdySessions
