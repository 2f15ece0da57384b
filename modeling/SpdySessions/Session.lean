import SpdySessions.Address
import SpdySessions.FlowControl
import SpdySessions.Span
import SpdySessions.Wire.FrameWriter

/-!
Sessions. A session writes frames into a queue from which its connection takes them, and takes in
the frames that its peer sends. Whoever made the connect listens: the listener is told of what comes
in and may call the session from there.
-/

namespace SpdySessions

/-- Sessions are numbered from one in the order of their making. -/
abbrev SessionId := Nat

/-- What a session hands to its connection. -/
inductive Outbound where
  /-- The bytes of a frame, in a buffer of the pool. -/
  | frame (buffer : Buffer)
  /-- The wish to end the connection. -/
  | close
  deriving DecidableEq

/-- A session of the client side. -/
structure Session (codec : HeaderCodec) where
  id : SessionId
  version : Version
  window : Int32
  idleTimeout : Span
  remote : Address
  secure : Bool
  writer : FrameWriter codec
  /-- Our pings have odd numbers, the peer's have even ones. -/
  nextPing : UInt32 := 1
  goAwaySent : Bool := false
  goAwayReceived : Bool := false
  closed : Bool := false
  /-- What the connection has not taken yet, in order. -/
  queue : List Outbound := []
  /-- The connection still takes from the queue. -/
  connected : Bool := true
  /-- How often the listener has been told something. -/
  notices : Nat := 0

namespace Session

/-- The window that a client starts with unless told otherwise. -/
def defaultWindow : Int32 := 65536

def flowControl {codec : HeaderCodec} (s : Session codec) : FlowControl :=
  .ofVersion s.version

/-- What can be asked about a session at any moment. -/
structure View where
  window : Int32
  goAwaySent : Bool
  goAwayReceived : Bool
  closed : Bool
  notices : Nat
  deriving DecidableEq

/-- The session as it can be asked about now. -/
def view {codec : HeaderCodec} (s : Session codec) : View where
  window := s.window
  goAwaySent := s.goAwaySent
  goAwayReceived := s.goAwayReceived
  closed := s.closed
  notices := s.notices

def describe {codec : HeaderCodec} (s : Session codec) : String :=
  s!"Session \x7b id: SessionId({s.id}), version: {s.version.label}, " ++
    s!"remote_addr: {s.remote.text}, window_size: {s.window.toInt}, closed: {s.closed}, .. \x7d"

/-- What a listener is told. -/
inductive Notice where
  | settings (clear : Bool) (entries : List Setting)
  | ping (id : UInt32)
  | goAway (lastGoodStream status : UInt32)
  /-- A frame that the session itself does nothing about. -/
  | frame (frame : Frame)
  | closed
  deriving DecidableEq

/-- What can be asked of a session. -/
inductive Call where
  | ping
  | goAway
  | settings (clear : Bool) (entries : List Setting)
  | close
  deriving DecidableEq

/-- What a call gives back. -/
inductive Reply where
  | ping (result : Except Fault UInt32)
  | goAway (first : Bool)
  | settings (result : Except Fault Unit)
  | close

/-- A listener makes calls when it is told something; it can see the session, and how often it has
been told something before. -/
abbrev Listener := Notice → View → List Call

/-- A listener that does nothing. -/
def Listener.silent : Listener := fun _ _ => []

/-- What happened between a session and its listener. -/
inductive Entry where
  | told (notice : Notice) (view : View)
  | called (during : Notice) (call : Call) (reply : Reply)

end Session

end SpdySessions
