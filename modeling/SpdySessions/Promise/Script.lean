import SpdySessions.Channel
import SpdySessions.Promise

/-!
Programs that use a promise. A callback may itself complete, fail or cancel the promise, look at it,
close its channel and register further callbacks. Callbacks run only once there is an outcome, and
then none of them can change it: so a callback's program runs by recursion on the program alone.
-/

namespace SpdySessions.Promise

/-- Something done with a promise. -/
inductive Action where
  | complete (session : Nat)
  | fail (cause : Fault)
  | cancel
  | closeChannel
  | tryResult
  /-- Waits, as far as that takes no time: gives what a waiter sees who looks now. -/
  | wait
  | describe
  /-- Registers a callback that runs a program. -/
  | onComplete (tag : String) (program : List Action)

/-- What an action gives back. -/
inductive Reply where
  | flag (value : Bool)
  | result (value : Option (Except Fault Nat))
  | text (value : String)
  | nothing

/-- What callbacks leave behind: that one ran, and what each action of its program gave back. -/
inductive Entry where
  | ran (tag : String) (result : Except Fault Nat)
  | did (tag : String) (action : Action) (reply : Reply)

/-- A callback: a program, or a thread that blocks until there is an outcome. -/
inductive Callback where
  | program (tag : String) (actions : List Action)
  | thread

/-- A promise in use: with its channel, the waiters in the order in which they came, and what the
threads got that were blocked. -/
structure Scene where
  channel : Channel
  promise : Promise Nat Callback := {}
  waiting : List String := []
  joined : List (Except Fault Nat) := []

namespace Scene

mutual

/-- Does something with a promise that has an outcome. -/
def performSettled (outcome : Outcome Nat) (channel : Channel) :
    Action → Reply × List Entry × Channel
  | .complete _ => (.flag false, [], channel)
  | .fail _ => (.flag false, [], channel)
  | .cancel => (.flag true, [], if outcome.isCompleted then channel else channel.close.2)
  | .closeChannel => (.flag channel.close.1, [], channel.close.2)
  | .tryResult => (.result (some outcome.result), [], channel)
  | .wait => (.result (some outcome.result), [], channel)
  | .describe =>
      (.text (Promise.describe ({ outcome := some outcome } : Promise Nat Callback) channel.id), [],
        channel)
  | .onComplete tag program =>
      let (entries, channel) := runProgram outcome tag channel program
      (.nothing, .ran tag outcome.result :: entries, channel)

def runProgram (outcome : Outcome Nat) (tag : String) (channel : Channel) :
    List Action → List Entry × Channel
  | [] => ([], channel)
  | action :: rest =>
      let (reply, entries, channel) := performSettled outcome channel action
      let (more, channel) := runProgram outcome tag channel rest
      (entries ++ .did tag action reply :: more, channel)

end

/-- Runs a callback that the transition handed out. -/
def runCallback (outcome : Outcome Nat) (s : Scene) : Callback → List Entry × Scene
  | .program tag actions =>
      let (entries, channel) := runProgram outcome tag s.channel actions
      (.ran tag outcome.result :: entries, { s with channel := channel })
  | .thread => ([], { s with joined := s.joined ++ [outcome.result] })

def runCallbacks (outcome : Outcome Nat) (s : Scene) : List Callback → List Entry × Scene
  | [] => ([], s)
  | callback :: rest =>
      let (entries, s) := runCallback outcome s callback
      let (more, s) := runCallbacks outcome s rest
      (entries ++ more, s)

/-- Tries to give the promise an outcome; true for the call that does it. -/
def settle (s : Scene) (outcome : Outcome Nat) : Bool × List Entry × Scene :=
  match s.promise.settle? outcome with
  | none => (false, [], s)
  | some (callbacks, promise) =>
      let (entries, s) := runCallbacks outcome { s with promise := promise } callbacks
      (true, entries, s)

/-- Cancels the connect. In any case the channel is closed then, unless there is a session. -/
def cancel (s : Scene) : Bool × List Entry × Scene :=
  let (_, entries, s) := s.settle .cancelled
  (true, entries, if s.promise.isCompleted then s else { s with channel := s.channel.close.2 })

def register (s : Scene) (callback : Callback) : List Entry × Scene :=
  match s.promise.register callback with
  | (none, promise) => ([], { s with promise := promise })
  | (some outcome, _) => runCallback outcome s callback

def perform (s : Scene) : Action → Reply × List Entry × Scene
  | .complete session =>
      let (first, entries, s) := s.settle (.completed session)
      (.flag first, entries, s)
  | .fail cause =>
      let (first, entries, s) := s.settle (.failed cause)
      (.flag first, entries, s)
  | .cancel =>
      let (flag, entries, s) := s.cancel
      (.flag flag, entries, s)
  | .closeChannel => (.flag s.channel.close.1, [], { s with channel := s.channel.close.2 })
  | .tryResult => (.result s.promise.tryResult, [], s)
  | .wait => (.result s.promise.poll, [], s)
  | .describe => (.text (s.promise.describe s.channel.id), [], s)
  | .onComplete tag program =>
      let (entries, s) := s.register (.program tag program)
      (.nothing, entries, s)

/-- Starts to wait for the outcome. -/
def await (s : Scene) (tag : String) : Scene :=
  { s with waiting := s.waiting ++ [tag] }

/-- A thread blocks until there is an outcome. -/
def block (s : Scene) : Scene :=
  (s.register .thread).2

/-- Lets the waiters look: those that see an outcome are done. -/
def wake (s : Scene) : List (String × Except Fault Nat) × Scene :=
  match s.promise.poll with
  | none => ([], s)
  | some result => (s.waiting.map (·, result), { s with waiting := [] })

end Scene

end SpdySessions.Promise
