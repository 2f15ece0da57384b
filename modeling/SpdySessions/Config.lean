import SpdySessions.BufferPool
import SpdySessions.Fault
import SpdySessions.Span

/-!
What a factory can be told: how long a connection may be idle, how many workers an owned executor
has, and the sizes of the buffer pool.
-/

namespace SpdySessions

/-- The settings of a factory. -/
structure Config where
  idleTimeoutMs : UInt64 := 30000
  workerThreads : Option UInt64 := none
  maxPooledBuffers : UInt64 := UInt64.ofNat BufferPool.defaultMaxPooled
  bufferSize : UInt64 := UInt64.ofNat BufferPool.defaultBufferSize
  deriving DecidableEq

namespace Config

def idleTimeout (c : Config) : Span :=
  .ofMillis c.idleTimeoutMs

/-- An owned executor has a worker, and a connection has something to read into. -/
def validate (c : Config) : Except Fault Unit :=
  if c.workerThreads = some 0 then .error (.config .noWorkers)
  else if c.bufferSize = 0 then .error (.config .noBufferSize)
  else .ok ()

def pool (c : Config) : BufferPool where
  bufferSize := c.bufferSize.toNat
  maxPooled := c.maxPooledBuffers.toNat

/-- A count that may be missing, where a missing one is written `absent` and a given one stands
between `before` and `behind`. -/
def countText (absent before behind : String) : Option UInt64 → String
  | none => absent
  | some n => before ++ toString n.toNat ++ behind

def describe (c : Config) : String :=
  "FactoryConfig \x7b idle_timeout_ms: " ++ toString c.idleTimeoutMs.toNat ++
    ", worker_threads: " ++ countText "None" "Some(" ")" c.workerThreads ++
    ", max_pooled_buffers: " ++ toString c.maxPooledBuffers.toNat ++
    ", buffer_size: " ++ toString c.bufferSize.toNat ++ " \x7d"

end Config

end SpdySessions
