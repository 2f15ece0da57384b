import SpdySessions.Bytes

/-!
A pool of byte buffers. A borrower gets an empty buffer with room for what it asked; a buffer given
back is emptied and kept, unless enough are kept already. Room is counted, not stored: it grows to
what is needed and never shrinks.
-/

namespace SpdySessions

/-- A growable byte buffer: its content and how much fits before it has to grow. -/
structure Buffer where
  content : Bytes := []
  capacity : Nat := 0
  deriving DecidableEq

namespace Buffer

/-- Makes room for `n` more bytes. -/
def reserve (b : Buffer) (n : Nat) : Buffer :=
  { b with capacity := max b.capacity (b.content.length + n) }

def append (b : Buffer) (bytes : Bytes) : Buffer :=
  { (b.reserve bytes.length) with content := b.content ++ bytes }

/-- Forgets the content and keeps the room. -/
def clear (b : Buffer) : Buffer :=
  { b with content := [] }

end Buffer

/-- Buffers waiting for a borrower, the one given back last in front. -/
structure BufferPool where
  bufferSize : Nat
  maxPooled : Nat
  idle : List Buffer := []
  deriving DecidableEq

namespace BufferPool

def defaultBufferSize : Nat := 8 * 1024

def defaultMaxPooled : Nat := 256

def standard : BufferPool where
  bufferSize := defaultBufferSize
  maxPooled := defaultMaxPooled

/-- Borrows a buffer with room for `n` bytes: an idle one if there is one, else a fresh one. -/
def acquire (p : BufferPool) (n : Nat) : Buffer × BufferPool :=
  match p.idle with
  | [] => (({ capacity := p.bufferSize : Buffer }).reserve n, p)
  | b :: rest => (b.reserve n, { p with idle := rest })

/-- Gives a buffer back. A full pool lets it go. -/
def release (p : BufferPool) (b : Buffer) : BufferPool :=
  if p.idle.length < p.maxPooled then { p with idle := b.clear :: p.idle } else p

def idleCount (p : BufferPool) : Nat :=
  p.idle.length

def describe (p : BufferPool) : String :=
  s!"BufferPool \x7b idle: {p.idleCount}, buffer_size: {p.bufferSize}, " ++
    s!"max_pooled: {p.maxPooled} \x7d"

end BufferPool

end SpdySessions
