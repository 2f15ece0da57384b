import SpdySessions.Frame
import SpdySessions.HeaderCodec
import SpdySessions.Version

/-!
Bytes as frames. A stream of bytes is cut into frames by the length in each header; bytes of a frame
that is not complete are kept for the next ones. Reading stops at the first frame that is malformed:
what came before it is delivered, what follows is lost.
-/

namespace SpdySessions

/-- A frame as it came: a control frame names its version. -/
structure Delivery where
  version : Option Version
  frame : Frame
  deriving DecidableEq

/-- The header of a frame: its first word, byte by byte, and the flags. -/
structure FrameHeader where
  b0 : UInt8
  b1 : UInt8
  b2 : UInt8
  b3 : UInt8
  flags : UInt8
  deriving DecidableEq

namespace FrameHeader

/-- The top bit tells control frames from data frames. -/
def isControl (h : FrameHeader) : Bool :=
  0x80 ≤ h.b0.toNat

def version (h : FrameHeader) : UInt16 :=
  Bytes.word16 (UInt8.ofNat (h.b0.toNat % 0x80)) h.b1

def kind (h : FrameHeader) : UInt16 :=
  Bytes.word16 h.b2 h.b3

def stream (h : FrameHeader) : UInt32 :=
  low31 (Bytes.word32 h.b0 h.b1 h.b2 h.b3)

end FrameHeader

namespace Setting

/-- The settings in a payload of whole entries. -/
def ofBytes (version : Version) : Bytes → List Setting
  | e0 :: e1 :: e2 :: e3 :: v0 :: v1 :: v2 :: v3 :: rest =>
      let value := Bytes.word32 v0 v1 v2 v3
      (match version with
        | .v2 => ⟨Bytes.word24 e2 e1 e0, e3, value⟩
        | .v3 => ⟨Bytes.word24 e1 e2 e3, e0, value⟩) :: ofBytes version rest
  | _ => []

end Setting

namespace Frame

def ofSettings (version : Version) (flags : UInt8) (payload : Bytes) : Except Malformed Frame :=
  match payload with
  | c0 :: c1 :: c2 :: c3 :: entries =>
      let count := (Bytes.word32 c0 c1 c2 c3).toNat
      if entries.length = count * 8 then
        .ok (.settings (flags.toNat % 2 == 1) (Setting.ofBytes version entries))
      else .error (.entryCount payload.length count)
  | _ => .error .entryCountMissing

def ofPing (payload : Bytes) : Except Malformed Frame :=
  match payload with
  | [a, b, c, d] => .ok (.ping (Bytes.word32 a b c d))
  | _ => .error (.payloadLength pingKind payload.length 4)

/-- The farewell with this payload. Version 2 gives no status. -/
def ofGoAway (version : Version) (payload : Bytes) : Except Malformed Frame :=
  match version, payload with
  | .v2, [a, b, c, d] => .ok (.goAway (low31 (Bytes.word32 a b c d)) 0)
  | .v2, _ => .error (.payloadLength goAwayKind payload.length 4)
  | .v3, [a, b, c, d, s0, s1, s2, s3] =>
      .ok (.goAway (low31 (Bytes.word32 a b c d)) (Bytes.word32 s0 s1 s2 s3))
  | .v3, _ => .error (.payloadLength goAwayKind payload.length 8)

def ofWindowUpdate (payload : Bytes) : Except Malformed Frame :=
  match payload with
  | [a, b, c, d, d0, d1, d2, d3] =>
      .ok (.windowUpdate (low31 (Bytes.word32 a b c d)) (low31 (Bytes.word32 d0 d1 d2 d3)))
  | _ => .error (.payloadLength windowUpdateKind payload.length 8)

/-- The stream of a header frame and its block as it travelled. -/
def splitHeaders (version : Version) (kind : UInt16) (payload : Bytes) :
    Except Malformed (UInt32 × Bytes) :=
  match version, payload with
  | .v2, a :: b :: c :: d :: _ :: _ :: block => .ok (low31 (Bytes.word32 a b c d), block)
  | .v3, a :: b :: c :: d :: block => .ok (low31 (Bytes.word32 a b c d), block)
  | _, _ => .error (.tooShort kind payload.length)

/-- The control frame of this type and payload, and the decompressor after it. -/
def ofControl {codec : HeaderCodec} (decompressor : codec.Decompressor) (version : Version)
    (kind : UInt16) (flags : UInt8) (payload : Bytes) :
    Except Fault Frame × codec.Decompressor :=
  if kind = synReplyKind ∨ kind = headersKind then
    match splitHeaders version kind payload with
    | .error cause => (.error (.protocol cause), decompressor)
    | .ok (stream, compressed) =>
        let (block, next) := codec.decompress decompressor compressed
        (block.map (.headers stream ·), next)
  else
    let frame :=
      if kind = settingsKind then ofSettings version flags payload
      else if kind = pingKind then ofPing payload
      else if kind = goAwayKind then ofGoAway version payload
      else if kind = windowUpdateKind then ofWindowUpdate payload
      else .ok (.unknown kind flags payload)
    (frame.mapError .protocol, decompressor)

end Frame

namespace Delivery

/-- The delivery of a complete frame, and the decompressor after it. -/
def ofFrame {codec : HeaderCodec} (decompressor : codec.Decompressor) (header : FrameHeader)
    (payload : Bytes) : Except Fault Delivery × codec.Decompressor :=
  if header.isControl then
    match Version.ofNumber header.version with
    | .error _ => (.error (.protocol (.version header.version)), decompressor)
    | .ok version =>
        let (frame, next) := Frame.ofControl decompressor version header.kind header.flags payload
        (frame.map (⟨some version, ·⟩), next)
  else (.ok ⟨none, .data header.stream header.flags payload⟩, decompressor)

end Delivery

/-- Reads frames; the state is that of the decompressor and the bytes of an incomplete frame. -/
structure FrameReader (codec : HeaderCodec) where
  decompressor : codec.Decompressor
  pending : Bytes := []

namespace FrameReader

variable {codec : HeaderCodec}

def fresh (codec : HeaderCodec) : FrameReader codec :=
  { decompressor := codec.decompressor }

/-- Cuts the first complete frame off: its header, its payload and the bytes behind it. -/
def cut? : Bytes → Option (FrameHeader × Bytes × Bytes)
  | b0 :: b1 :: b2 :: b3 :: flags :: l0 :: l1 :: l2 :: body =>
      let length := (Bytes.word24 l0 l1 l2).toNat
      if Bytes.atLeast length body then
        some (⟨b0, b1, b2, b3, flags⟩, body.take length, body.drop length)
      else none
  | _ => none

theorem length_of_cut? {bytes payload rest : Bytes} {header : FrameHeader}
    (h : cut? bytes = some (header, payload, rest)) :
    bytes.length = Frame.headerSize + payload.length + rest.length := by
  unfold cut? at h
  split at h
  · simp only at h
    split at h
    · rename_i hlen
      have := (Bytes.atLeast_iff _ _).1 hlen
      simp only [Option.some.injEq, Prod.mk.injEq] at h
      obtain ⟨-, rfl, rfl⟩ := h
      simp only [List.length_cons, List.length_take, List.length_drop, Frame.headerSize] at *
      omega
    · cases h
  · cases h

/-- What came of some bytes: the frames up to the first malformed one, the bytes left over, the
decompressor at the end, and what was wrong. -/
structure Outcome (codec : HeaderCodec) where
  deliveries : List Delivery
  rest : Bytes
  decompressor : codec.Decompressor
  fault : Option Fault

/-- Reads complete frames off the front until none is left or one is malformed. -/
def scan (decompressor : codec.Decompressor) (bytes : Bytes) : Outcome codec :=
  match h : cut? bytes with
  | none => ⟨[], bytes, decompressor, none⟩
  | some (header, payload, rest) =>
      match Delivery.ofFrame decompressor header payload with
      | (.error fault, next) => ⟨[], [], next, some fault⟩
      | (.ok delivery, next) =>
          have : rest.length < bytes.length := by
            have := length_of_cut? h
            simp only [Frame.headerSize] at this
            omega
          let outcome := scan next rest
          { outcome with deliveries := delivery :: outcome.deliveries }
  termination_by bytes.length

/-- Takes in bytes: the frames that they complete, the fault that stopped the reading if there was
one, and the reader after it. A fault leaves no bytes pending. -/
def feed (r : FrameReader codec) (bytes : Bytes) :
    List Delivery × Option Fault × FrameReader codec :=
  let outcome := scan r.decompressor (r.pending ++ bytes)
  (outcome.deliveries, outcome.fault,
    { decompressor := outcome.decompressor, pending := outcome.rest })

/-- Each frame once to each of a number of listeners, in the order in which they were added. -/
def fanOut (listeners : Nat) (deliveries : List Delivery) : List (Nat × Delivery) :=
  deliveries.flatMap fun d => (List.range listeners).map (·, d)

/-- Takes in bytes as a caller with listeners sees it: the number of frames, or the fault that
stopped the reading; who was told what; and the reader after it. -/
def parse (listeners : Nat) (r : FrameReader codec) (bytes : Bytes) :
    Except Fault Nat × List (Nat × Delivery) × FrameReader codec :=
  let (deliveries, fault, next) := r.feed bytes
  (match fault with
    | none => .ok deliveries.length
    | some fault => .error fault, fanOut listeners deliveries, next)

end FrameReader

end SpdySessions
