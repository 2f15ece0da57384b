import SpdySessions.Negotiation
import SpdySessions.Session

/-!
Clients. A client makes connects of one protocol version. Its settings can be changed at any time
and are looked at when a connect needs them.
-/

namespace SpdySessions

/-- A client with its settings. -/
structure Client where
  version : Version
  /-- The local address that sockets are bound to. -/
  bindAddress : Option Address := none
  /-- How long a connection may be idle, if not as long as usual. -/
  idleTimeout : Option Span := none
  window : Int32 := Session.defaultWindow
  deriving DecidableEq

namespace Client

def flowControl (c : Client) : FlowControl :=
  .ofVersion c.version

/-- The handler that negotiates for the client. -/
def negotiator (c : Client) : Negotiator :=
  .ofVersion c.version

/-- How long a connection of the client may be idle. -/
def idleTimeoutOr (c : Client) (usual : Span) : Span :=
  c.idleTimeout.getD usual

/-- A setting in words that need not be given. -/
def settingText {α : Type} (text : α → String) : Option α → String
  | none => "None"
  | some value => "Some(" ++ text value ++ ")"

def describe (c : Client) : String :=
  "Client \x7b version: " ++ c.version.label ++ ", flow_control: " ++ c.flowControl.label ++
    ", bind_address: " ++ settingText Address.text c.bindAddress ++
    ", idle_timeout: " ++ settingText Span.text c.idleTimeout ++
    ", initial_window_size: " ++ toString c.window.toInt ++ " \x7d"

end Client

end SpdySessions
