import SpdySessions.Bytes
import SpdySessions.Fault

/-!
Header block codecs. A codec is a pair of state machines: each block goes through the compressor in
the order in which it is written, and through the decompressor in the order in which it is read, and
both carry their state from block to block. Besides the identity there are three small codecs that
exercise what a real one may do: keep state (`rolling`), change lengths and refuse (`doubling`), and
refuse by content (`guarded`).
-/

namespace SpdySessions

/-- A compressor and a decompressor for header blocks, with their starting states. -/
structure HeaderCodec where
  Compressor : Type
  Decompressor : Type
  compressor : Compressor
  decompressor : Decompressor
  compress : Compressor → Bytes → Bytes × Compressor
  decompress : Decompressor → Bytes → Except Fault Bytes × Decompressor

namespace HeaderCodec

/-- Blocks travel as they are. -/
def identity : HeaderCodec where
  Compressor := Unit
  Decompressor := Unit
  compressor := ()
  decompressor := ()
  compress s block := (block, s)
  decompress s block := (.ok block, s)

/-- Masks each byte with a key that grows by one from byte to byte, starting at `key`. -/
def mask (key : UInt8) (block : Bytes) : Bytes :=
  block.mapIdx fun i b => b ^^^ (key + UInt8.ofNat i)

/-- Masks blocks with a key that goes on growing from block to block. -/
def rolling : HeaderCodec where
  Compressor := UInt8
  Decompressor := UInt8
  compressor := 0
  decompressor := 0
  compress key block := (mask key block, key + UInt8.ofNat block.length)
  decompress key block := (.ok (mask key block), key + UInt8.ofNat block.length)

/-- The bytes at even places, counted from zero. -/
def evenPlaces (block : Bytes) : Bytes :=
  (block.foldl (fun (kept : Bytes × Bool) b =>
    if kept.2 then (b :: kept.1, false) else (kept.1, true)) ([], true)).1.reverse

/-- Writes every byte twice. -/
def doubling : HeaderCodec where
  Compressor := Unit
  Decompressor := Unit
  compressor := ()
  decompressor := ()
  compress s block := (block.flatMap fun b => [b, b], s)
  decompress s block :=
    if block.length % 2 = 0 then (.ok (evenPlaces block), s)
    else (.error (.protocol (.described "odd header block")), s)

/-- Blocks travel as they are, but one that holds the byte 255 is refused. -/
def guarded : HeaderCodec where
  Compressor := Unit
  Decompressor := Unit
  compressor := ()
  decompressor := ()
  compress s block := (block, s)
  decompress s block :=
    if block.contains 255 then (.error (.protocol (.described "corrupt header block")), s)
    else (.ok block, s)

end HeaderCodec

end SpdySessions
