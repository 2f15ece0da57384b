import SpdySessions.Version

/-! What an announced initial window does to a session's window, by protocol version. -/

namespace SpdySessions

/-- A rule for announced windows. -/
inductive FlowControl where
  /-- Announcements are ignored. -/
  | none
  /-- The announced window is taken over. -/
  | spdyV3
  deriving DecidableEq

namespace FlowControl

def ofVersion : Version → FlowControl
  | .v2 => .none
  | .v3 => .spdyV3

/-- The window after an announcement. -/
def window : FlowControl → (current announced : Int32) → Int32
  | none, current, _ => current
  | spdyV3, _, announced => announced

def isControlled : FlowControl → Bool
  | none => false
  | spdyV3 => true

def label : FlowControl → String
  | none => "None"
  | spdyV3 => "SpdyV3"

def describe : FlowControl → String
  | none => "NoFlowControlStrategy"
  | spdyV3 => "SpdyV3FlowControlStrategy"

/-- The windows after each of a list of announcements. -/
def windows (rule : FlowControl) (start : Int32) : List Int32 → List Int32
  | [] => []
  | a :: rest => rule.window start a :: windows rule (rule.window start a) rest

/-- A setting's value as a window: values beyond the largest window count as the largest. -/
def announced (value : UInt32) : Int32 :=
  Int32.ofNat (min value.toNat (0x7fffffff))

end FlowControl

end SpdySessions
