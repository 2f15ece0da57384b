import SpdySessions.Factory.Connect

/-! Courses of a factory. Whatever happens to a factory happens in steps that are whole between two
moments at which somebody waits: a connect, which is accepted or refused, or one of the events below,
by the factory's users, its attempts, its clock or whoever stops it, in any order. A course is a run of
such steps, with the attempts that were accepted on the way. -/

namespace SpdySessions.Factory

variable {codec : HeaderCodec}

/-- What may happen besides a connect. The parts of a stop are events of their own, so that anything
may come between them. -/
inductive Event where
  | newClient (number : UInt16)
  | configure (client : Nat) (change : Client → Client)
  | start (executor : Except Fault Unit)
  | markStopping
  | retire
  | takeDown (component : Component)
  | stopConnector (run : Nat)
  | markStopped
  | stop
  | drop
  | onComplete (id : ChannelId) (callback : Callback)
  | call (id : ChannelId) (call : Session.Call)
  | cancel (id : ChannelId)
  | close (id : ChannelId)
  | noticeClosed (id : ChannelId)
  | dialed (id : ChannelId) (answer : Except Fault Address)
  | establish (id : ChannelId) (engine : Except Fault Unit)
  | secured (id : ChannelId) (handshake : Except Fault (Option Bytes))
  | turn (id : ChannelId) (socket : Socket)
  | pass (span : Nat)
  | fire (run : Nat)

/-- The factory after an event. -/
def after (f : Factory codec) : Event → Factory codec
  | .newClient number => (f.newClient number).2
  | .configure client change => f.configure client change
  | .start executor => (f.start executor).2
  | .markStopping => f.markStopping
  | .retire => f.retire
  | .takeDown component => f.takeDown component
  | .stopConnector run => f.stopConnector run
  | .markStopped => f.markStopped
  | .stop => f.stop.2
  | .drop => f.drop.2
  | .onComplete id callback => f.onComplete id callback.toProgram callback.retreats
  | .call id c => (f.call id c).2
  | .cancel id => (f.cancel id).2
  | .close id => (f.close id).2
  | .noticeClosed id => f.noticeClosed id
  | .dialed id answer => f.dialed id answer
  | .establish id engine => f.establish id engine
  | .secured id handshake => f.secured id handshake
  | .turn id socket => f.turn id socket
  | .pass span => f.pass span
  | .fire run => f.fire run

/-- One step, with the attempts that it accepts. -/
inductive Step (f : Factory codec) : List ChannelId → Factory codec → Prop
  | registered {run client : Nat} {peer : Address} {listener : Session.Listener} {f' : Factory codec}
      (h : f.register run client peer listener = (.ok (), f')) : Step f [f.attempts.length] f'
  | refused {run client : Nat} {peer : Address} {listener : Session.Listener} {cause : Fault}
      {f' : Factory codec} (h : f.register run client peer listener = (.error cause, f')) : Step f [] f'
  | connected {client : Nat} {peer : Address} {listener : Session.Listener}
      {socket : Except Fault Unit} {id : ChannelId} {f' : Factory codec}
      (h : f.connect client peer listener socket = (.ok id, f')) : Step f [id] f'
  | unconnected {client : Nat} {peer : Address} {listener : Session.Listener}
      {socket : Except Fault Unit} {cause : Fault} {f' : Factory codec}
      (h : f.connect client peer listener socket = (.error cause, f')) : Step f [] f'
  | event (e : Event) : Step f [] (f.after e)

/-- Steps one after the other, with all the attempts that were accepted. -/
inductive Course (f : Factory codec) : List ChannelId → Factory codec → Prop
  | refl : Course f [] f
  | step {accepted new : List ChannelId} {f' f'' : Factory codec} (h : Course f accepted f')
      (hstep : Step f' new f'') : Course f (accepted ++ new) f''

end SpdySessions.Factory
