import SpdySessions.Fault

/-!
Lifecycles. A factory is stopped until it is started, and can be stopped and started again. A start
makes the components that the factory runs on; they are held until a stop takes them down, the last
one made first.
-/

namespace SpdySessions

/-- What a factory is doing. -/
inductive Phase where
  | stopped
  | starting
  | running
  | stopping
  deriving DecidableEq

namespace Phase

def label : Phase → String
  | stopped => "Stopped"
  | starting => "Starting"
  | running => "Running"
  | stopping => "Stopping"

end Phase

/-- The kinds of components. -/
inductive Part where
  | executor
  | scheduler
  | connector
  deriving DecidableEq

namespace Part

/-- The parts that a start makes, in order. An executor is made unless one was supplied. -/
def needed (suppliedExecutor : Bool) : List Part :=
  if suppliedExecutor then [scheduler, connector] else [executor, scheduler, connector]

end Part

/-- A component, and by which start it was made. -/
structure Component where
  part : Part
  run : Nat
  deriving DecidableEq

/-- The phase of a factory, how often it has been started, and the components it holds. -/
structure Lifecycle where
  phase : Phase := .stopped
  runs : Nat := 0
  components : Option (List Component) := none
  deriving DecidableEq

namespace Lifecycle

def isRunning (l : Lifecycle) : Bool :=
  l.phase = .running

/-- The components are about to be made. -/
def markStarting (l : Lifecycle) : Lifecycle :=
  { l with phase := .starting }

/-- Makes the components, given whether an executor can be made, and names them. -/
def setUp (l : Lifecycle) (suppliedExecutor : Bool) (executor : Except Fault Unit) :
    Except Fault (List Component) × Lifecycle :=
  match if suppliedExecutor then .ok () else executor with
  | .error fault => (.error fault, { l with phase := .stopped })
  | .ok () =>
      let made := (Part.needed suppliedExecutor).map (⟨·, l.runs⟩)
      (.ok made, { phase := .running, runs := l.runs + 1, components := some made })

/-- Starts and names the components made. There is nothing to do while running. -/
def start (l : Lifecycle) (suppliedExecutor : Bool) (executor : Except Fault Unit) :
    Except Fault (List Component) × Lifecycle :=
  if l.isRunning then (.ok [], l) else l.markStarting.setUp suppliedExecutor executor

/-- Takes no more connects and sessions. -/
def markStopping (l : Lifecycle) : Lifecycle :=
  { l with phase := .stopping }

/-- Gives the components up, in the order in which they are to be taken down. -/
def takeDown (l : Lifecycle) : List Component × Lifecycle :=
  ((l.components.getD []).reverse, { l with components := none })

/-- The components are down. -/
def markStopped (l : Lifecycle) : Lifecycle :=
  { l with phase := .stopped }

end Lifecycle

end SpdySessions
