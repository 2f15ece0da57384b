import SpdySessions.Factory.Connect

/-!
Call chains and their locks. A thread calls into a factory; what it calls takes locks, and may run
callbacks before it comes back, which call into the factory again. No lock can be taken twice: a thread
that asks for one that it holds waits for ever. What a function of the factory does at once is done here
piece by piece, each piece under the locks that are held then. Callbacks are kept apart from the promises
of the factory, because here they may ask for anything.
-/

namespace SpdySessions

namespace Chain

/-- What can be locked: of the factory, of the connector of a run, of an attempt. -/
inductive Lock where
  | lifecycle
  | running
  | sessions
  | registration (run : Nat)
  | channels (run : Nat)
  | pending (run : Nat)
  | opened (run : Nat)
  | slot (id : ChannelId)
  | generator (id : ChannelId)
  | pool
  deriving DecidableEq

/-- What a callback may ask for. One that it registers has a program for a session and another one for
the news that there is none. -/
inductive Request where
  | start (executor : Except Fault Unit)
  | stop
  | sessions
  | isRunning
  | connect (client : Nat) (peer : Address) (listener : Session.Listener) (socket : Except Fault Unit)
  | cancel (id : ChannelId)
  | onComplete (id : ChannelId) (delivered refused : List Request)
  | tryResult (id : ChannelId)
  | call (id : ChannelId) (call : Session.Call)

/-- A callback that waits for the outcome of a promise. -/
structure Waiter where
  id : ChannelId
  delivered : List Request
  refused : List Request

def Waiter.program (w : Waiter) (completed : Bool) : List Request :=
  if completed then w.delivered else w.refused

/-- What is left to do. A task that comes after a lock was taken gives it back itself, if what is to be
done after that depends on what it found. -/
inductive Task (codec : HeaderCodec) where
  | acquire (l : Lock)
  | release (l : Lock)
  | act (change : Factory codec → Factory codec)
  | request (r : Request)
  /-- A start that has the lock of the lifecycle. -/
  | begin (executor : Except Fault Unit)
  /-- A stop that has it. -/
  | halt
  /-- The sessions say farewell and are forgotten. -/
  | retire
  | farewell (session : SessionId)
  /-- Takes the components, and then each of them down. -/
  | dismantle
  | takeDown (component : Component)
  | closeBooks (run : Nat)
  | enroll (run client : Nat) (peer : Address) (listener : Session.Listener)
  /-- Gives a promise an outcome that is no session. -/
  | settle (id : ChannelId) (outcome : Outcome SessionId)
  | decide (id : ChannelId) (outcome : Outcome SessionId)
  | enlist (waiter : Waiter)
  | call (id : ChannelId) (call : Session.Call)
  /-- Makes the session of an attempt, enters it and hands it over. -/
  | deliver (id : ChannelId)
  | enter (id : ChannelId) (session : Session codec)
  | hand (id : ChannelId) (session : Session codec)
  | abort (id : ChannelId) (cause : Fault)
  | finish (id : ChannelId)

/-- Does something under a lock. -/
def within {codec : HeaderCodec} (l : Lock) (tasks : List (Task codec)) : List (Task codec) :=
  .acquire l :: tasks ++ [.release l]

end Chain

/-- A call chain: the callbacks that wait, the locks it holds, the last one first, and what is left to
do. -/
structure Chain (codec : HeaderCodec) where
  factory : Factory codec
  waiting : List Chain.Waiter := []
  held : List Chain.Lock := []
  todo : List (Chain.Task codec)

namespace Chain

variable {codec : HeaderCodec}

/-- The frame that a call writes, if it writes one. -/
def frameOf (s : Session codec) : Session.Call → Option Frame
  | .ping => some (.ping s.nextPing)
  | .goAway => if s.goAwaySent then none else some (.goAway 0 0)
  | .settings clear entries => some (.settings clear entries)
  | .close => none

/-- The peer's ping is sent back. -/
def sendBack (f : Factory codec) (id : ChannelId) (ping : UInt32) : Factory codec :=
  match f.endpoint? id with
  | none => f
  | some e => f.setEndpoint id (e.write (.ping ping)).2

/-- Writes a frame and does what goes with it: under the lock of the generator, and of the pool, from which
nothing is borrowed if the frame is too large. -/
def generating (id : ChannelId) (e : Endpoint codec) (frame : Frame)
    (change : Factory codec → Factory codec) : List (Task codec) :=
  within (.generator id)
    (match (e.session.writer.write e.pool e.session.version frame).1 with
    | .ok _ => within .pool [.act change]
    | .error _ => [.act fun f => { change f with pool := f.pool }])

/-! Each of the books of a connector has a lock of its own. -/

def inChannels (run : Nat) (change : List ChannelId → List ChannelId) : List (Task codec) :=
  within (.channels run) [.act (·.modifyConnector run fun c => { c with channels := change c.channels })]

def inPending (run : Nat) (change : List ChannelId → List ChannelId) : List (Task codec) :=
  within (.pending run) [.act (·.modifyConnector run fun c => { c with pending := change c.pending })]

def inOpened (run : Nat) (change : List ChannelId → List ChannelId) : List (Task codec) :=
  within (.opened run) [.act (·.modifyConnector run fun c => { c with opened := change c.opened })]

/-- The books forget a channel, one after the other. -/
def forgetting (run : Nat) (id : ChannelId) : List (Task codec) :=
  inChannels run (Connector.strike id) ++ inPending run (Connector.strike id) ++
    inOpened run (Connector.strike id)

/-- The programs of the callbacks that waited for a promise. -/
def programsOf (waiting : List Waiter) (id : ChannelId) (completed : Bool) : List (Task codec) :=
  (waiting.filter (·.id = id)).flatMap fun w => (w.program completed).map .request

/-- What a request comes to. -/
def Request.tasks (f : Factory codec) : Request → List (Task codec)
  | .start executor => within .lifecycle [.begin executor]
  | .stop => within .lifecycle [.halt]
  | .sessions => within .sessions []
  | .isRunning => []
  | .connect client peer listener socket =>
      if f.isRunning then
        within .running [] ++
          match socket with
          | .error _ => []
          | .ok () => [.acquire (.registration f.latestRun), .enroll f.latestRun client peer listener]
      else []
  | .cancel id =>
      .settle id .cancelled :: within (.slot id) [] ++
        [.act fun f => if f.isCompleted id then f else (f.close id).2]
  | .onComplete id delivered refused => [.acquire (.slot id), .enlist ⟨id, delivered, refused⟩]
  | .tryResult id => within (.slot id) []
  | .call id c => [.call id c]

/-- What becomes of a factory and of the callbacks that wait by the first thing to do, and what that
leaves to do before the rest. -/
def unfold (f : Factory codec) (waiting : List Waiter) :
    Task codec → Factory codec × List Waiter × List (Task codec)
  | .acquire _ => (f, waiting, [])
  | .release _ => (f, waiting, [])
  | .act change => (change f, waiting, [])
  | .request r => (f, waiting, r.tasks f)
  | .begin executor =>
      (f, waiting,
        if f.isRunning then []
        else
          match (f.start executor).1 with
          | .error _ => [.act Factory.markStopped]
          | .ok _ => within .running [.act fun f => (f.start executor).2])
  | .halt =>
      if f.isRunning then
        (f.markStopping, waiting, within .sessions [.retire] ++
          [.acquire .running, .dismantle, .act Factory.markStopped])
      else (f, waiting, [])
  | .retire =>
      (f, waiting, f.sessions.map .farewell ++ [.act fun f => { f with sessions := [] }])
  | .farewell session =>
      (f, waiting, ((f.holder? session).map fun id => .call id .goAway).toList)
  | .dismantle =>
      ({ f with lifecycle := f.lifecycle.takeDown.2 }, waiting,
        .release .running :: f.lifecycle.takeDown.1.map .takeDown)
  | .takeDown component =>
      (f, waiting,
        match component.part with
        | .connector => [.acquire (.registration component.run), .closeBooks component.run]
        | .executor => [.act (·.modifyConnector component.run Connector.abandon)]
        | .scheduler =>
            [.act fun f => { f with schedulers := f.schedulers.modify component.run Scheduler.stop }])
  | .closeBooks run =>
      (f, waiting,
        match (f.connectors[run]?).filter (·.running) with
        | none => [.release (.registration run)]
        | some c => .act (·.modifyConnector run fun c => { c with running := false }) ::
            inPending run (fun _ => []) ++ inChannels run (fun _ => []) ++ inOpened run (fun _ => []) ++
            [.release (.registration run)] ++ c.pending.map (.settle · (.failed .notRunning)) ++
            c.channels.map fun id => .act fun f => (f.close id).2)
  | .enroll run client peer listener =>
      let id := f.attempts.length
      let a : Attempt codec := { channel := { id, peer }, client, run, listener }
      let refusing : List (Task codec) :=
        [.release (.registration run),
          .act fun f => { f with attempts := f.attempts ++ [{ a with stage := .ended }.close] }]
      (f, waiting,
        match (f.connectors[run]?).filter (·.running) with
        | none => refusing
        | some c => inChannels run (Connector.enter id) ++ inPending run (Connector.enter id) ++
            if c.attended then
              [.act fun f => { f with attempts := f.attempts ++ [a] }, .release (.registration run)]
            else forgetting run id ++ refusing)
  | .settle id outcome => (f, waiting, [.acquire (.slot id), .decide id outcome])
  | .decide id outcome =>
      match (f.attempts[id]?).bind (·.promise.settle? outcome) with
      | none => (f, waiting, [.release (.slot id)])
      | some _ => ((f.refuse id outcome).2, waiting.filter (·.id ≠ id),
          .release (.slot id) :: programsOf waiting id outcome.isCompleted)
  | .enlist w =>
      match f.attempts[w.id]? with
      | none => (f, waiting, [.release (.slot w.id)])
      | some a =>
          match a.promise.outcome with
          | none => (f, waiting ++ [w], [.release (.slot w.id)])
          | some outcome => (f, waiting,
              .release (.slot w.id) :: (w.program outcome.isCompleted).map .request)
  | .call id c =>
      (f, waiting,
        match f.endpoint? id with
        | none => []
        | some e =>
            match frameOf e.session c with
            | some frame => generating id e frame fun f => (f.call id c).2
            | none => if c = .close then [.act fun f => (f.close id).2] else [])
  | .deliver id =>
      match f.attempts[id]? with
      | none => (f, waiting, [])
      | some a => ({ f with sessionsMade := (f.newSession a).id }, waiting,
          [.acquire .sessions, .enter id (f.newSession a)])
  | .enter id session =>
      let (entered, f) := f.sessionOpened session.id
      (f, waiting, .release .sessions ::
        if entered then [.acquire (.slot id), .hand id session] else [.abort id .notRunning])
  | .hand id session =>
      match f.attempts[id]? with
      | none => (f, waiting, [.release (.slot id)])
      | some a =>
          match a.promise.settle? (.completed session.id) with
          | none => (f, waiting, .release (.slot id) ::
              within .sessions [.act fun f => (f.sessionClosed session.id).2] ++ [.abort id .cancelled])
          | some (_, promise) =>
              (f.modify id fun a' => { a' with
                promise := promise, link := some ⟨session, .fresh codec⟩ },
                waiting.filter (·.id ≠ id),
                .release (.slot id) :: programsOf waiting id true ++
                  inPending a.run (Connector.strike id) ++ inOpened a.run (Connector.enter id) ++
                  [.act (·.modify id fun a => { a with stage := .carrying .running })])
  | .abort id cause => (f, waiting, [.settle id (.failed cause), .finish id])
  | .finish id =>
      (f, waiting,
        .act (fun f => { (f.close id).2 with negotiations := f.negotiations.erase id }) ::
          ((f.attempts[id]?).map fun a => forgetting a.run id).getD [] ++
          [.act (·.modify id fun a => { a with stage := .ended })])

/-- The next step, unless there is none left or the chain waits for itself. -/
def step (c : Chain codec) : Option (Chain codec) :=
  match c.todo with
  | [] => none
  | .acquire l :: rest =>
      if l ∈ c.held then none else some { c with held := l :: c.held, todo := rest }
  | .release l :: rest => some { c with held := c.held.erase l, todo := rest }
  | task :: rest =>
      let (factory, waiting, first) := unfold c.factory c.waiting task
      some { c with factory := factory, waiting := waiting, todo := first ++ rest }

/-- The lock that is asked for next. -/
def asks? (c : Chain codec) : Option Lock :=
  match c.todo with
  | .acquire l :: _ => some l
  | _ => none

/-- Goes on for a number of steps, as far as there are any. -/
def advance (c : Chain codec) : Nat → Chain codec
  | 0 => c
  | n + 1 =>
      match c.step with
      | none => c
      | some c' => c'.advance n

/-- What a chain begins with: somebody asks for something; an attempt is to get its session, fails, or
is over; a session is no longer open; the peer's ping is sent back; a buffer that was written goes back
to the pool; nobody needs the factory any more. -/
inductive Operation where
  | request (r : Request)
  | deliver (id : ChannelId)
  | abort (id : ChannelId) (cause : Fault)
  | finish (id : ChannelId)
  | leave (session : SessionId)
  | echo (id : ChannelId) (ping : UInt32)
  | giveBack (buffer : Buffer)
  | drop

/-- What an operation comes to. -/
def Operation.tasks (f : Factory codec) : Operation → List (Task codec)
  | .request r => [.request r]
  | .deliver id => [.deliver id]
  | .abort id cause => [.abort id cause]
  | .finish id => [.finish id]
  | .leave session => within .sessions [.act fun f => (f.sessionClosed session).2]
  | .echo id ping =>
      match f.endpoint? id with
      | none => []
      | some e => generating id e (.ping ping) fun f => sendBack f id ping
  | .giveBack buffer => within .pool [.act fun f => { f with pool := f.pool.release buffer }]
  | .drop => f.lifecycle.takeDown.1.map .takeDown

/-- A factory that nobody needs any more gives up its components first, since nobody else can lock
anything. -/
def Operation.before (f : Factory codec) : Operation → Factory codec
  | .drop => { f with lifecycle := f.lifecycle.takeDown.2 }
  | _ => f

/-- A chain that begins. -/
def enter (f : Factory codec) (waiting : List Waiter) (o : Operation) : Chain codec :=
  { factory := o.before f, waiting := waiting, todo := o.tasks f }

end Chain

end SpdySessions
