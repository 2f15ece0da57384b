import SpdySessions.Factory

/-!
How attempts and runs come to an end. A stop goes through four moments: nothing new is taken; every
open session says farewell and is forgotten; the components are taken down, the connector first; the
factory is stopped. A connector that is taken down fails the promises that wait and closes every
channel that is not over.
-/

namespace SpdySessions.Factory

variable {codec : HeaderCodec}

/-! ### Outcomes -/

/-- Gives the promise of an attempt an outcome that is no session; the callbacks that were waiting
are told. True for the call that does it. -/
def refuse (f : Factory codec) (id : ChannelId) (outcome : Outcome SessionId) :
    Bool × Factory codec :=
  match f.attempts[id]? with
  | none => (false, f)
  | some a =>
      match a.promise.settle? outcome with
      | none => (false, f)
      | some (callbacks, promise) =>
          (true, f.modify id fun a => { a with promise := promise }.disappoint callbacks f.sessionCount)

def fail (f : Factory codec) (id : ChannelId) (cause : Fault) : Factory codec :=
  (f.refuse id (.failed cause)).2

def isCompleted (f : Factory codec) (id : ChannelId) : Bool :=
  (f.attempts[id]?).any (·.promise.isCompleted)

/-- Cancels an attempt. In any case the channel is closed then, unless there is a session. -/
def cancel (f : Factory codec) (id : ChannelId) : Bool × Factory codec :=
  let f := (f.refuse id .cancelled).2
  (true, if f.isCompleted id then f else (f.close id).2)

/-! ### Starting and stopping -/

/-- Starts the factory, given whether an executor can be made. A run begins with empty books and
nothing scheduled. -/
def start (f : Factory codec) (executor : Except Fault Unit) :
    Except Fault (List Component) × Factory codec :=
  match f.lifecycle.start f.suppliedExecutor executor with
  | (.error fault, lifecycle) => (.error fault, { f with lifecycle := lifecycle })
  | (.ok [], lifecycle) => (.ok [], { f with lifecycle := lifecycle })
  | (.ok made, lifecycle) =>
      (.ok made, { f with
        lifecycle := lifecycle
        connectors := f.connectors ++ [{}]
        schedulers := f.schedulers ++ [{}] })

/-- Takes nothing new. -/
def markStopping (f : Factory codec) : Factory codec :=
  { f with lifecycle := f.lifecycle.markStopping }

def holder? (f : Factory codec) (session : SessionId) : Option ChannelId :=
  f.attempts.findIdx? fun a => a.link.any (·.session.id = session)

def farewell (f : Factory codec) (session : SessionId) : Factory codec :=
  match f.holder? session with
  | none => f
  | some id => (f.call id .goAway).2

/-- Lets every open session say farewell and forgets them all. -/
def retire (f : Factory codec) : Factory codec :=
  { f.sessions.foldl farewell f with sessions := [] }

/-- Takes a connector down: the promises that wait fail and every channel that is not over is
closed. There is nothing to do the second time. -/
def stopConnector (f : Factory codec) (run : Nat) : Factory codec :=
  match f.connectors[run]? with
  | none => f
  | some connector =>
      if connector.running then
        let f := f.modifyConnector run Connector.stop
        let f := connector.pending.foldl (fun f id => f.fail id .notRunning) f
        connector.channels.foldl (fun f id => (f.close id).2) f
      else f

/-- Takes a component down. Nobody attends to a connector whose executor is gone. An attempt that is
still under way on that executor is dropped where it waits, and its handler stays: to the factory that is
an attempt that takes no further step, as any attempt may for as long as it likes. -/
def takeDown (f : Factory codec) (component : Component) : Factory codec :=
  match component.part with
  | .executor => f.modifyConnector component.run Connector.abandon
  | .scheduler => { f with schedulers := f.schedulers.modify component.run Scheduler.stop }
  | .connector => f.stopConnector component.run

/-- Takes every component down, the last one made first, and names them in that order. -/
def takeAllDown (f : Factory codec) : List Component × Factory codec :=
  let (components, lifecycle) := f.lifecycle.takeDown
  (components, components.foldl takeDown { f with lifecycle := lifecycle })

/-- The components are down. -/
def markStopped (f : Factory codec) : Factory codec :=
  { f with lifecycle := f.lifecycle.markStopped }

/-- Stops the factory and names the components taken down. There is nothing to do unless it is
running. -/
def stop (f : Factory codec) : List Component × Factory codec :=
  if f.isRunning then
    let (down, f) := f.markStopping.retire.takeAllDown
    (down, f.markStopped)
  else ([], f)

/-- Nobody needs the factory any more: its components are taken down all the same. -/
def drop (f : Factory codec) : List Component × Factory codec :=
  f.takeAllDown

end SpdySessions.Factory
