/-!
What can go wrong, as causes. `Fault.message?` is the one place where a cause gets its wording; a
fault whose wording belongs to the system, to the JSON reader's diagnostics or to the security layer
has none. A failed connect wraps its cause, and the three classifying predicates look through that
wrapping.
-/

namespace SpdySessions

/-- Why bytes are no frame, or a frame cannot be written as bytes. -/
inductive Malformed where
  /-- A control frame of a protocol version that is not spoken here. -/
  | version (number : UInt16)
  /-- A settings frame too short to hold its entry count. -/
  | entryCountMissing
  /-- A settings frame whose length disagrees with its entry count. -/
  | entryCount (length count : Nat)
  /-- A frame of fixed size with another payload length. -/
  | payloadLength (kind : UInt16) (actual expected : Nat)
  /-- A frame that ends before its header block starts. -/
  | tooShort (kind : UInt16) (length : Nat)
  /-- A payload that the 24-bit length field cannot express. -/
  | tooLarge (length : Nat)
  /-- A violation described in words, as by a header codec. -/
  | described (reason : String)
  deriving DecidableEq

namespace Malformed

def message : Malformed → String
  | version number =>
      s!"Bad control frame version: Unsupported protocol version: {number.toNat}"
  | entryCountMissing => "SETTINGS frame missing entry count"
  | entryCount length count => s!"SETTINGS length {length} does not match {count} entries"
  | payloadLength kind actual expected =>
      s!"Frame type {kind.toNat} length {actual} != {expected}"
  | tooShort kind length => s!"Frame type {kind.toNat} too short: {length} bytes"
  | tooLarge length => s!"Frame payload too large: {length} bytes"
  | described reason => reason

end Malformed

/-- Why a factory cannot be built from its settings. -/
inductive Misconfigured where
  /-- An owned executor needs at least one worker. -/
  | noWorkers
  /-- A connection reads into a buffer of at least one byte. -/
  | noBufferSize
  /-- A worker count makes sense only for an owned executor. -/
  | workersOfSuppliedExecutor
  /-- A server name that is neither a host name nor an address. -/
  | serverName
  /-- A problem described in words. -/
  | described (reason : String)
  deriving DecidableEq

namespace Misconfigured

def message : Misconfigured → String
  | noWorkers => "worker_threads must be at least 1"
  | noBufferSize => "buffer_size must be greater than 0"
  | workersOfSuppliedExecutor =>
      "worker_threads only applies to the owned runtime.\n" ++
        "Remove .worker_threads() when supplying .executor()"
  | serverName => "Invalid TLS server name: invalid dns name"
  | described reason => reason

end Misconfigured

/-- How a JSON text fails: it stops early, it breaks the grammar, or a value does not fit. -/
inductive JsonFault where
  | eof
  | grammar
  | data
  deriving DecidableEq

namespace JsonFault

def name : JsonFault → String
  | eof => "eof"
  | grammar => "syntax"
  | data => "data"

end JsonFault

/-- The kind of a system failure, by its name. -/
structure IoKind where
  name : String
  deriving DecidableEq

namespace IoKind

/-- The peer does not accept connections. -/
def connectionRefused : IoKind := ⟨"ConnectionRefused"⟩

/-- No route leads to the peer's network. -/
def networkUnreachable : IoKind := ⟨"NetworkUnreachable"⟩

end IoKind

/-- Every failure that an operation can report. -/
inductive Fault where
  | notRunning
  | config (cause : Misconfigured)
  | unsupportedVersion (number : UInt16)
  | connection (reason : String)
  | connectionTimeout (milliseconds : UInt64)
  | connectionClosed
  | negotiation (reason : String)
  /-- The security layer refused; its wording is its own. -/
  | tls
  | protocol (cause : Malformed)
  | cancelled
  /-- A connect failed for the wrapped reason. -/
  | connectFailed (cause : Fault)
  /-- A system failure, with its wording where it is not the system's own. -/
  | io (kind : IoKind) (wording : Option String)
  | json (category : JsonFault)
  deriving DecidableEq

namespace Fault

/-- The wording of a fault, where it has one of its own. -/
def message? : Fault → Option String
  | notRunning => some "ClientFactory is not started"
  | config cause => some ("Configuration error: " ++ cause.message)
  | unsupportedVersion number => some s!"Unsupported protocol version: {number.toNat}"
  | connection reason => some ("Connection failed: " ++ reason)
  | connectionTimeout milliseconds =>
      some s!"Connection timeout after {milliseconds.toNat}ms"
  | connectionClosed => some "Connection closed"
  | negotiation reason => some ("Protocol negotiation failed: " ++ reason)
  | tls => none
  | protocol cause => some ("Protocol error: " ++ cause.message)
  | cancelled => some "Connect cancelled"
  | connectFailed cause => cause.message?.map ("Connect failed: " ++ ·)
  | io _ wording => wording.map ("IO error: " ++ ·)
  | json _ => none

/-- The operation was refused because of the factory's state. -/
def isStateError : Fault → Bool
  | notRunning => true
  | connectFailed cause => cause.isStateError
  | _ => false

/-- A wait ran out of time. -/
def isTimeout : Fault → Bool
  | connectionTimeout _ => true
  | connectFailed cause => cause.isTimeout
  | _ => false

/-- The connection could not be made or did not last. -/
def isConnectionError : Fault → Bool
  | connection _ => true
  | connectionTimeout _ => true
  | connectionClosed => true
  | io _ _ => true
  | connectFailed cause => cause.isConnectionError
  | _ => false

/-- The connect was cancelled. A wrapped cancellation is a failure, not a cancellation. -/
def isCancelled : Fault → Bool
  | cancelled => true
  | _ => false

/-- How many faults stand behind this one, the outermost not counted. -/
def depth : Fault → Nat
  | connectFailed cause => cause.depth + 1
  | tls => 1
  | io _ _ => 1
  | json _ => 1
  | _ => 0

end Fault

end SpdySessions
