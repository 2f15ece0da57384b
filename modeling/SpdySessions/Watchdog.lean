/-!
Idle watchdogs. A watchdog looks after its timeout whether its connection has been idle for that
long. If so it closes the channel; if not it looks again when that could be the case. A timeout of
zero means that nobody looks.
-/

namespace SpdySessions

/-- A timeout, and when something last happened, in nanoseconds. -/
structure Watchdog where
  timeout : Nat
  lastActivity : Nat
  deriving DecidableEq

namespace Watchdog

def touch (w : Watchdog) (now : Nat) : Watchdog :=
  { w with lastActivity := now }

def idleFor (w : Watchdog) (now : Nat) : Nat :=
  now - w.lastActivity

/-- After how long to look first, if at all. -/
def firstCheck (w : Watchdog) : Option Nat :=
  if w.timeout = 0 then none else some w.timeout

/-- What a look leads to. -/
inductive Verdict where
  /-- The channel is closed already: there is nothing left to watch. -/
  | ended
  /-- The connection has been idle for too long. -/
  | close
  | again (delay : Nat)
  deriving DecidableEq

def check (w : Watchdog) (channelOpen : Bool) (now : Nat) : Verdict :=
  if !channelOpen then .ended
  else if w.timeout ≤ w.idleFor now then .close
  else .again (w.lastActivity + w.timeout - now)

end Watchdog

end SpdySessions
