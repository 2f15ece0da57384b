import SpdySessions.Bytes

/-!
Frames, the units of the protocol. Control frames carry a type number; data frames have none. A
control frame of a type that is not understood here is kept as it came.
-/

namespace SpdySessions

/-- One entry of a settings frame. Only the low 24 bits of its number travel. -/
structure Setting where
  id : UInt32
  flags : UInt8
  value : UInt32
  deriving DecidableEq

namespace Setting

/-- The number of the setting that announces the initial window. -/
def initialWindow : UInt32 := 7

end Setting

/-- A protocol frame. -/
inductive Frame where
  | settings (clear : Bool) (entries : List Setting)
  | ping (id : UInt32)
  | goAway (lastGoodStream status : UInt32)
  | headers (stream : UInt32) (block : Bytes)
  | windowUpdate (stream delta : UInt32)
  | data (stream : UInt32) (flags : UInt8) (payload : Bytes)
  | unknown (kind : UInt16) (flags : UInt8) (payload : Bytes)
  deriving DecidableEq

namespace Frame

/-! ### Type numbers -/

/-- A reply that opens a stream: read like a header frame. -/
def synReplyKind : UInt16 := 2

def settingsKind : UInt16 := 4

def pingKind : UInt16 := 6

def goAwayKind : UInt16 := 7

def headersKind : UInt16 := 8

def windowUpdateKind : UInt16 := 9

/-- The type number of a control frame; a data frame has none. -/
def kind? : Frame → Option UInt16
  | settings _ _ => some settingsKind
  | ping _ => some pingKind
  | goAway _ _ => some goAwayKind
  | headers _ _ => some headersKind
  | windowUpdate _ _ => some windowUpdateKind
  | data _ _ _ => none
  | unknown kind _ _ => some kind

def headerSize : Nat := 8

/-- The longest payload that the 24-bit length field can express. -/
def maxPayload : Nat := 0xffffff

/-- The flag of a settings frame that asks the receiver to forget stored settings. -/
def clearFlag : UInt8 := 1

end Frame

end SpdySessions
