import SpdySessions.Fault
import SpdySessions.Span

/-!
Promises. A promise for a session gets one outcome and keeps it. Callbacks registered before that
are handed out by the transition, in the order in which they came; one that comes later is answered
with the outcome at once. Waiters are woken by a mark of its own, which is set after the outcome.
-/

namespace SpdySessions

/-- How a connect ended. -/
inductive Outcome (σ : Type) where
  | completed (session : σ)
  | failed (cause : Fault)
  | cancelled
  deriving DecidableEq

namespace Outcome

variable {σ : Type}

/-- The outcome as those who asked for the session see it. -/
def result : Outcome σ → Except Fault σ
  | completed session => .ok session
  | failed cause => .error (.connectFailed cause)
  | cancelled => .error .cancelled

def isCompleted : Outcome σ → Bool
  | completed _ => true
  | _ => false

def isCancelled : Outcome σ → Bool
  | cancelled => true
  | _ => false

/-- The state that the outcome puts a promise in. -/
def state : Outcome σ → String
  | completed _ => "completed"
  | failed _ => "failed"
  | cancelled => "cancelled"

end Outcome

/-- A promise for a session `σ` with callbacks `β`. -/
structure Promise (σ β : Type) where
  outcome : Option (Outcome σ) := none
  /-- Waiters may look at the outcome. -/
  done : Bool := false
  /-- Registered and not handed out yet, in order. -/
  callbacks : List β := []

namespace Promise

variable {σ β : Type}

def isDone (p : Promise σ β) : Bool :=
  p.outcome.isSome

def isCancelled (p : Promise σ β) : Bool :=
  p.outcome.any Outcome.isCancelled

def isCompleted (p : Promise σ β) : Bool :=
  p.outcome.any Outcome.isCompleted

def tryResult (p : Promise σ β) : Option (Except Fault σ) :=
  p.outcome.map Outcome.result

/-- Stores the first outcome and hands out the callbacks; later outcomes are refused. -/
def decide? (p : Promise σ β) (outcome : Outcome σ) : Option (List β × Promise σ β) :=
  match p.outcome with
  | some _ => none
  | none => some (p.callbacks, { p with outcome := some outcome, callbacks := [] })

/-- Lets waiters look at the outcome. -/
def wake (p : Promise σ β) : Promise σ β :=
  { p with done := true }

/-- Stores the first outcome, wakes the waiters and hands out the callbacks. -/
def settle? (p : Promise σ β) (outcome : Outcome σ) : Option (List β × Promise σ β) :=
  (p.decide? outcome).map fun (callbacks, p) => (callbacks, p.wake)

/-- Registers a callback, or gives the outcome that answers it at once. -/
def register (p : Promise σ β) (callback : β) : Option (Outcome σ) × Promise σ β :=
  match p.outcome with
  | some outcome => (some outcome, p)
  | none => (none, { p with callbacks := p.callbacks ++ [callback] })

/-- What a waiter sees: nothing until it is woken, then the outcome. -/
def poll (p : Promise σ β) : Option (Except Fault σ) :=
  if p.done then some (p.tryResult.getD (.error .connectionClosed)) else none

/-- What a waiter sees whose time is over. -/
def pollAtDeadline (p : Promise σ β) (limit : Span) : Except Fault σ :=
  p.poll.getD (.error (.connectionTimeout limit.millis))

def state (p : Promise σ β) : String :=
  (p.outcome.map Outcome.state).getD "pending"

def describe (p : Promise σ β) (channel : Nat) : String :=
  s!"SessionPromise \x7b channel: ChannelId({channel}), state: \"{p.state}\" \x7d"

end Promise

end SpdySessions
