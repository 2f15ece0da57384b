import SpdySessions.Factory

/-!
Builders collect what a factory is made of. Whether it fits together is looked at when the factory
is built.
-/

namespace SpdySessions

/-- What a factory is made of. -/
structure Builder where
  config : Config := {}
  security : Security := .plain
  codec : HeaderCodec := .identity
  suppliedExecutor : Bool := false

namespace Builder

/-- Sets how long a connection may be idle, in whole milliseconds. -/
def idleTimeout (b : Builder) (d : Span) : Builder :=
  { b with config := { b.config with idleTimeoutMs := d.millis } }

/-- Sets how many workers an own executor has. -/
def workerThreads (b : Builder) (n : UInt64) : Builder :=
  { b with config := { b.config with workerThreads := some n } }

/-- A configuration fits by itself, and a supplied executor brings its own workers. -/
def validate (b : Builder) : Except Fault Unit :=
  match b.config.validate with
  | .error fault => .error fault
  | .ok () =>
      if b.suppliedExecutor ∧ b.config.workerThreads ≠ none then
        .error (.config .workersOfSuppliedExecutor)
      else .ok ()

/-- Builds a factory. It is not started. -/
def build (b : Builder) : Except Fault (Factory b.codec) :=
  match b.validate with
  | .error fault => .error fault
  | .ok () => .ok {
      config := b.config
      security := b.security
      suppliedExecutor := b.suppliedExecutor }

end Builder

end SpdySessions
