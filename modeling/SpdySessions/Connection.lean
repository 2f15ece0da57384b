import SpdySessions.Endpoint

/-!
Connections at work. A connection moves what its session has queued to the socket and what the
socket brings to the session, one thing a turn. A closed channel comes before everything else, the
queue before the socket. What was queued before the channel closed is still written; the wish to end
the connection leaves what stands behind it unwritten.
-/

namespace SpdySessions

/-- What the socket answers at a moment, whatever it is asked. No bytes mean the end of all. -/
structure Socket where
  write : Except Fault Unit := .ok ()
  flush : Except Fault Unit := .ok ()
  read : Except Fault Bytes := .ok []

/-- How far a connection has come. -/
inductive Progress where
  | running
  /-- The channel is closed; the queue is being written. -/
  | draining
  /-- Nothing more is moved; the socket is being shut down. -/
  | leaving (result : Except Fault Unit)
  | ended (result : Except Fault Unit)

/-- A connection: one end of it, how far it has come and what it has written. -/
structure Connection (codec : HeaderCodec) where
  endpoint : Endpoint codec
  progress : Progress := .running
  written : Bytes := []

namespace Connection

open Session (Listener Entry)

variable {codec : HeaderCodec}

/-- Nothing more is moved. -/
def leave (c : Connection codec) (result : Except Fault Unit) : Connection codec :=
  { c with progress := .leaving result }

/-- Takes the first thing out of the queue and gives its buffer back. -/
def dequeue (c : Connection codec) (item : Outbound) (rest : List Outbound) : Connection codec :=
  { c with endpoint := { c.endpoint with
      session := { c.endpoint.session with queue := rest }
      pool := Endpoint.release c.endpoint.pool item } }

/-- Writes a buffer that has been taken out of the queue. -/
def write (c : Connection codec) (socket : Socket) (buffer : Buffer) : Connection codec :=
  match socket.write with
  | .error fault => c.leave (.error fault)
  | .ok () => { c with written := c.written ++ buffer.content }

/-- Hands what the socket brought to the session. The end of the stream and a malformed frame end
the connection. -/
def read (c : Connection codec) (listener : Listener) (socket : Socket) :
    List Entry × Connection codec :=
  match socket.read with
  | .error fault => ([], c.leave (.error fault))
  | .ok [] => ([], c.leave (.ok ()))
  | .ok bytes =>
      let (entries, _, fault, endpoint) := c.endpoint.feed listener bytes
      let c := { c with endpoint := endpoint }
      match fault, socket.flush with
      | some fault, _ => (entries, c.leave (.error fault))
      | none, .error fault => (entries, c.leave (.error fault))
      | none, .ok () => (entries, c)

/-- The connection has left its socket: the channel is closed and the queue gone. -/
def finish (c : Connection codec) (result : Except Fault Unit) : Connection codec :=
  { c with
    endpoint := { c.endpoint.disconnect with channelOpen := false }
    progress := .ended result }

def turn (c : Connection codec) (listener : Listener) (socket : Socket) :
    List Entry × Connection codec :=
  match c.progress with
  | .running =>
      if !c.endpoint.channelOpen then ([], { c with progress := .draining })
      else
        match c.endpoint.session.queue with
        | .frame buffer :: rest => ([], (c.dequeue (.frame buffer) rest).write socket buffer)
        | .close :: rest => ([], (c.dequeue .close rest).leave socket.flush)
        | [] => c.read listener socket
  | .draining =>
      match c.endpoint.session.queue with
      | .frame buffer :: rest => ([], (c.dequeue (.frame buffer) rest).write socket buffer)
      | .close :: rest => ([], c.dequeue .close rest)
      | [] => ([], c.leave socket.flush)
  | .leaving result => ([], c.finish result)
  | .ended _ => ([], c)

/-- Bytes go over the socket in the next turn. -/
def moves (c : Connection codec) (socket : Socket) : Bool :=
  match c.progress, c.endpoint.session.queue with
  | .running, .frame _ :: _ => c.endpoint.channelOpen && socket.write.toOption.isSome
  | .running, [] => c.endpoint.channelOpen && socket.read.toOption.isSome
  | .draining, .frame _ :: _ => socket.write.toOption.isSome
  | _, _ => false

end Connection

end SpdySessions
