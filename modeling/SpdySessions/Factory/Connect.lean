import SpdySessions.Factory.Stop
import SpdySessions.Utf8

/-!
The course of an attempt. Each step is what happens between two moments at which an attempt waits
for something outside: the socket to connect, the handshake, the next thing on the connection, or
its channel to be closed. A step of an attempt that is not waiting for it does nothing.
-/

namespace SpdySessions.Factory

variable {codec : HeaderCodec}

/-! ### Registration -/

/-- Makes an attempt and registers it with the connector of a run. Where that refuses, the attempt
is over before it began. -/
def register (f : Factory codec) (run client : Nat) (peer : Address)
    (listener : Session.Listener) : Except Fault Unit × Factory codec :=
  let id := f.attempts.length
  let a : Attempt codec := { channel := { id, peer }, client, run, listener }
  match f.connectors[run]? with
  | none => (.error .notRunning, { f with attempts := f.attempts ++ [{ a with stage := .ended }] })
  | some connector =>
      match connector.register id with
      | (.error fault, connector) =>
          (.error fault, { f with
            attempts := f.attempts ++ [{ a with stage := .ended }]
            connectors := f.connectors.set run connector })
      | (.ok (), connector) =>
          (.ok (), { f with
            attempts := f.attempts ++ [a]
            connectors := f.connectors.set run connector })

/-- Starts a connect, given whether a socket can be made and bound. Gives the attempt's number. -/
def connect (f : Factory codec) (client : Nat) (peer : Address) (listener : Session.Listener)
    (socket : Except Fault Unit) : Except Fault ChannelId × Factory codec :=
  if f.isRunning then
    match socket with
    | .error fault => (.error fault, f)
    | .ok () =>
        let id := f.attempts.length
        match f.register f.latestRun client peer listener with
        | (.error fault, f) => (.error fault, (f.close id).2)
        | (.ok (), f) => (.ok id, f)
  else (.error .notRunning, f)

/-! ### Callbacks -/

/-- Does what a callback does when it is handed the session of an attempt. -/
def perform (f : Factory codec) (id : ChannelId) : Deed → Callback.Reply × Factory codec
  | .call c =>
      match f.call id c with
      | (none, f) => (.nothing, f)
      | (some reply, f) => (.called reply, f)
  | .cancel =>
      let (flag, f) := f.cancel id
      (.flag flag, f)
  | .count => (.count f.sessionCount, f)
  | .stop => (.nothing, f.stop.2)

def note (f : Factory codec) (id : ChannelId) (entry : Callback.Entry) : Factory codec :=
  f.modify id fun a => { a with callbacks := a.callbacks ++ [entry] }

/-- Runs a callback that is handed the session of an attempt. -/
def runCallback (id : ChannelId) (f : Factory codec) (callback : Callback) : Factory codec :=
  callback.deeds.foldl (fun f deed =>
    let (reply, f) := f.perform id deed
    f.note id (.did deed reply)) (f.note id (.ran true f.sessionCount))

/-- Registers a callback. It runs at once if there is an outcome. -/
def onComplete (f : Factory codec) (id : ChannelId) (program : Program)
    (retreats : List Retreat := []) : Factory codec :=
  match f.attempts[id]? with
  | none => f
  | some a =>
      let callback : Callback := { program with retreats }
      match a.promise.register callback with
      | (none, promise) => f.modify id fun a => { a with promise := promise }
      | (some (.completed _), _) => runCallback id f callback
      | (some _, _) => f.modify id (·.disappoint [callback] f.sessionCount)

/-! ### Ends -/

/-- The attempt is over: its channel is closed and nobody keeps track of it any more. -/
def finish (f : Factory codec) (id : ChannelId) : Factory codec :=
  let f := (f.close id).2
  let f := { f with negotiations := f.negotiations.erase id }
  let f :=
    match f.attempts[id]? with
    | none => f
    | some a => f.modifyConnector a.run (·.forget id)
  f.modify id fun a => { a with stage := .ended }

/-- The attempt has failed. An outcome that there is already stays. -/
def abort (f : Factory codec) (id : ChannelId) (cause : Fault) : Factory codec :=
  (f.fail id cause).finish id

/-! ### Steps -/

/-- Notices that the channel was closed while there was no session. -/
def noticeClosed (f : Factory codec) (id : ChannelId) : Factory codec :=
  match f.attempts[id]? with
  | none => f
  | some a =>
      if a.stage.isWaiting ∧ !a.channel.isOpen then f.abort id .connectionClosed else f

/-- Something happens on the connection of an attempt. -/
def touch (f : Factory codec) (id : ChannelId) : Factory codec :=
  match f.attempts[id]? with
  | none => f
  | some a =>
      f.modify id fun a' => { a' with
        lastActivity := ((f.schedulers[a.run]?).map (·.now)).getD a'.lastActivity }

/-- Sets the watchdog of an attempt on its channel. -/
def arm (f : Factory codec) (id : ChannelId) : Factory codec :=
  match f.attempts[id]? with
  | none => f
  | some a =>
      match a.watchdog.firstCheck with
      | none => f
      | some delay =>
          { f with schedulers := f.schedulers.modify a.run fun s => (s.schedule delay id).2 }

/-- The socket is connected to the given address, or could not be. -/
def dialed (f : Factory codec) (id : ChannelId) (answer : Except Fault Address) : Factory codec :=
  match f.attempts[id]? with
  | none => f
  | some a =>
      if a.stage.isDialing then
        match answer with
        | .error fault => f.abort id fault
        | .ok remote =>
            let idleTimeout := (f.clientOf a).idleTimeoutOr f.idleTimeout
            ((f.modify id fun a => { a with
              stage := .connected, remote := remote, idleTimeout := idleTimeout }).touch id).arm id
      else f

/-- The session for an attempt, made with the client's settings of now. -/
def newSession (f : Factory codec) (a : Attempt codec) : Session codec :=
  let client := f.clientOf a
  { id := f.sessionsMade + 1
    version := client.version
    window := client.window
    idleTimeout := a.idleTimeout
    remote := a.remote
    secure := f.security.isTls
    writer := .fresh codec }

/-- Makes the session of an attempt. It is counted among the open ones before anybody is handed it.
A factory that is not running refuses it, and so does a promise that has an outcome. -/
def openSession (f : Factory codec) (id : ChannelId) (a : Attempt codec) :
    Except Fault SessionId × Factory codec :=
  let session := f.newSession a
  match sessionOpened { f with sessionsMade := session.id } session.id with
  | (false, f) => (.error .notRunning, f)
  | (true, f) =>
      match a.promise.settle? (.completed session.id) with
      | none => (.error .cancelled, (f.sessionClosed session.id).2)
      | some (callbacks, promise) =>
          let f := f.modify id fun a => { a with
            promise := promise, link := some ⟨session, .fresh codec⟩ }
          (.ok session.id, callbacks.foldl (runCallback id) f)

/-- Makes the session of an attempt and sets its connection to work. -/
def construct (f : Factory codec) (id : ChannelId) : Factory codec :=
  match f.attempts[id]? with
  | none => f
  | some a =>
      match f.openSession id a with
      | (.error fault, f) => f.abort id fault
      | (.ok _, f) =>
          let f := f.modifyConnector a.run (·.markOpened id)
          f.modify id fun a => { a with stage := .carrying .running }

/-- Goes on with a connected socket. A plain one carries the session at once; otherwise a handshake
begins, given whether one can be prepared. -/
def establish (f : Factory codec) (id : ChannelId) (engine : Except Fault Unit) : Factory codec :=
  match f.attempts[id]? with
  | none => f
  | some a =>
      match a.stage, f.security, engine with
      | .connected, .plain, _ => f.construct id
      | .connected, .tls _, .error fault => f.abort id fault
      | .connected, .tls _, .ok () =>
          modify { f with negotiations := f.negotiations.put id (f.clientOf a).negotiator } id
            fun a => { a with stage := .securing }
      | _, _, _ => f

/-- The handshake has ended: with the name of the protocol that the server chose, without one, or
with a fault. -/
def secured (f : Factory codec) (id : ChannelId) (handshake : Except Fault (Option Bytes)) :
    Factory codec :=
  match f.attempts[id]? with
  | none => f
  | some a =>
      match a.stage, handshake with
      | .securing, .error fault => f.abort id fault
      | .securing, .ok chosen =>
          let f := f.touch id
          let (handler, negotiations) := f.negotiations.take id
          let f := { f with negotiations := negotiations }
          let offered := (chosen.map Utf8.decode).toList
          match handler with
          | none => f.abort id (.negotiation "Negotiation handler missing")
          | some handler =>
              match handler.select offered with
              | none => f.abort id (Negotiator.noCommon offered)
              | some _ => f.construct id
      | _, _ => f

/-- The connection of an attempt has ended: its listener is told, its session no longer open. -/
def windUp (f : Factory codec) (id : ChannelId) (listener : Session.Listener)
    (e : Endpoint codec) (result : Except Fault Unit) : Factory codec :=
  let (entries, e) := e.connectionClosed listener
  let f := (f.setEndpoint id e).modify id fun a => { a with told := a.told ++ entries }
  let f := (f.sessionClosed e.session.id).2
  match result with
  | .error fault => f.abort id fault
  | .ok () => f.finish id

/-- The connection of an attempt does the next thing. -/
def turn (f : Factory codec) (id : ChannelId) (socket : Socket) : Factory codec :=
  match f.attempts[id]?, f.endpoint? id with
  | some a, some e =>
      match a.stage with
      | .carrying progress =>
          let c : Connection codec := { endpoint := e, progress := progress, written := a.written }
          let f := if c.moves socket then f.touch id else f
          let (entries, c) := c.turn a.listener socket
          let f := (f.setEndpoint id c.endpoint).modify id fun a => { a with
            stage := .carrying c.progress, written := c.written, told := a.told ++ entries }
          match c.progress with
          | .ended result => f.windUp id a.listener c.endpoint result
          | _ => f
      | _ => f
  | _, _ => f

/-! ### Time -/

/-- Lets time pass, in nanoseconds. Nothing fires by itself. -/
def pass (f : Factory codec) (span : Nat) : Factory codec :=
  { f with schedulers := f.schedulers.map fun s => { s with now := s.now + span } }

def look (f : Factory codec) (id : ChannelId) (now : Nat) : Factory codec :=
  match f.attempts[id]? with
  | none => f
  | some a =>
      match a.watchdog.check a.channel.isOpen now with
      | .ended => f
      | .close => (f.close id).2
      | .again delay =>
          { f with schedulers := f.schedulers.modify a.run fun s => (s.schedule delay id).2 }

/-- Fires what is due next in a run, if anything is. -/
def fire (f : Factory codec) (run : Nat) : Factory codec :=
  match f.schedulers[run]? with
  | none => f
  | some s =>
      match s.next? s.now with
      | none => f
      | some (timer, s') =>
          look { f with schedulers := f.schedulers.set run s' } timer.body s'.now

/-! ### Everyone at once -/

/-- Lets an attempt that is connecting go on: it notices that its channel was closed, or else takes
the answer of its socket if there is one. -/
def proceed (f : Factory codec) (id : ChannelId)
    (dial : ChannelId → Option (Except Fault Address)) : Factory codec :=
  let f := f.noticeClosed id
  match dial id with
  | none => f
  | some answer => f.dialed id answer

/-- Lets every attempt that is connecting go on, in the order of their making. -/
def settle (f : Factory codec) (dial : ChannelId → Option (Except Fault Address)) :
    Factory codec :=
  (List.range f.attempts.length).foldl (fun f id => f.proceed id dial) f

end SpdySessions.Factory
