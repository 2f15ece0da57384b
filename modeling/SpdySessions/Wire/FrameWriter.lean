import SpdySessions.BufferPool
import SpdySessions.Frame
import SpdySessions.HeaderCodec
import SpdySessions.Version

/-!
Frames as bytes. A frame is a header of eight bytes and a payload. The header of a control frame
holds the control bit, the version and the type, that of a data frame the stream; both go on with
the flags and the payload's length in 24 bits. The layouts of the two versions differ in the order
of the bytes of a setting, in the status of a farewell and in the padding before a header block.
-/

namespace SpdySessions

namespace Setting

/-- Version 2 writes the number low byte first and then the flags, version 3 the flags and then the
number high byte first. -/
def bytes (version : Version) (s : Setting) : Bytes :=
  (match version with
    | .v2 => (Bytes.be24 s.id).reverse ++ [s.flags]
    | .v3 => s.flags :: Bytes.be24 s.id) ++ Bytes.be32 s.value

end Setting

namespace Frame

/-- The bytes between the stream of a header frame and its block. -/
def headerPadding : Version → Bytes
  | .v2 => [0, 0]
  | .v3 => []

def headerFlags : Frame → UInt8
  | settings clear _ => if clear then clearFlag else 0
  | data _ flags _ => flags
  | unknown _ flags _ => flags
  | ping _ => 0
  | goAway _ _ => 0
  | headers _ _ => 0
  | windowUpdate _ _ => 0

def headerWord (version : Version) : Frame → Bytes
  | data stream _ _ => Bytes.be32 (low31 stream)
  | frame => Bytes.be16 (0x8000 ||| version.number) ++ Bytes.be16 (frame.kind?.getD 0)

/-- The payload, and the compressor after it. -/
def payload {codec : HeaderCodec} (compressor : codec.Compressor) (version : Version) :
    Frame → Bytes × codec.Compressor
  | settings _ entries =>
      (Bytes.be32 (UInt32.ofNat entries.length) ++ entries.flatMap (Setting.bytes version),
        compressor)
  | ping id => (Bytes.be32 id, compressor)
  | goAway lastGoodStream status =>
      (Bytes.be32 (low31 lastGoodStream) ++
        (match version with
          | .v2 => []
          | .v3 => Bytes.be32 status), compressor)
  | headers stream block =>
      let (compressed, next) := codec.compress compressor block
      (Bytes.be32 (low31 stream) ++ headerPadding version ++ compressed, next)
  | windowUpdate stream delta => (Bytes.be32 (low31 stream) ++ Bytes.be32 (low31 delta), compressor)
  | data _ _ payload => (payload, compressor)
  | unknown _ _ payload => (payload, compressor)

/-- The whole header in front of a payload of `length` bytes. -/
def header (version : Version) (frame : Frame) (length : Nat) : Bytes :=
  frame.headerWord version ++ frame.headerFlags :: Bytes.be24 (UInt32.ofNat length)

end Frame

/-- Writes frames; the state is that of the header compressor. -/
structure FrameWriter (codec : HeaderCodec) where
  compressor : codec.Compressor

namespace FrameWriter

def fresh (codec : HeaderCodec) : FrameWriter codec :=
  ⟨codec.compressor⟩

/-- Writes a frame into a buffer borrowed from the pool. The header block has gone through the
compressor by the time a payload turns out to be too large; no buffer is borrowed then. -/
def write {codec : HeaderCodec} (w : FrameWriter codec) (pool : BufferPool) (version : Version)
    (frame : Frame) : Except Fault Buffer × FrameWriter codec × BufferPool :=
  let (payload, next) := frame.payload w.compressor version
  let length := payload.length
  if Frame.maxPayload < length then
    (.error (.protocol (.tooLarge length)), ⟨next⟩, pool)
  else
    let (buffer, pool) := pool.acquire (Frame.headerSize + length)
    (.ok (buffer.append (frame.header version length ++ payload)), ⟨next⟩, pool)

end FrameWriter

end SpdySessions
