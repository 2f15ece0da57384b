import SpdySessions.Session
import SpdySessions.Wire.FrameReader

/-!
What a session does. It writes what it is asked to write, answers the peer's pings by itself and
follows announced windows; of everything else it only tells its listener.
-/

namespace SpdySessions

/-- A session and the reader that feeds it. -/
structure Link (codec : HeaderCodec) where
  session : Session codec
  reader : FrameReader codec

/-- One end of a connection: the session with its reader, the pool that it shares with others, and
whether its channel is open. -/
structure Endpoint (codec : HeaderCodec) extends Link codec where
  pool : BufferPool
  channelOpen : Bool := true

namespace Endpoint

open Session (Listener Notice Call Reply Entry)

variable {codec : HeaderCodec}

/-- Puts something at the end of the queue, as long as the connection takes it. -/
def enqueue (e : Endpoint codec) (item : Outbound) : Bool × Endpoint codec :=
  if e.session.connected then
    (true, { e with session := { e.session with queue := e.session.queue ++ [item] } })
  else (false, e)

/-- Writes a frame into the queue. A buffer that no connection takes is lost to the pool. -/
def write (e : Endpoint codec) (frame : Frame) : Except Fault Unit × Endpoint codec :=
  let (result, writer, pool) := e.session.writer.write e.pool e.session.version frame
  let e := { e with session := { e.session with writer := writer }, pool := pool }
  match result with
  | .error fault => (.error fault, e)
  | .ok buffer =>
      let (taken, e) := e.enqueue (.frame buffer)
      (if taken then .ok () else .error .connectionClosed, e)

/-- Sends a ping with the next odd number, which is used up even if the ping cannot be sent. -/
def ping (e : Endpoint codec) : Except Fault UInt32 × Endpoint codec :=
  let id := e.session.nextPing
  let (result, e) := write { e with session := { e.session with nextPing := id + 2 } } (.ping id)
  (result.map fun _ => id, e)

/-- Says farewell and asks the connection to end; true for the first call. -/
def goAway (e : Endpoint codec) : Bool × Endpoint codec :=
  if e.session.goAwaySent then (false, e)
  else
    let (_, e) := write { e with session := { e.session with goAwaySent := true } } (.goAway 0 0)
    (true, (e.enqueue .close).2)

def call (e : Endpoint codec) : Call → Reply × Endpoint codec
  | .ping =>
      let (result, e) := e.ping
      (.ping result, e)
  | .goAway =>
      let (first, e) := e.goAway
      (.goAway first, e)
  | .settings clear entries =>
      let (result, e) := e.write (.settings clear entries)
      (.settings result, e)
  | .close => (.close, { e with channelOpen := false })

/-- Makes a listener's calls one after the other. -/
def callAll (e : Endpoint codec) (during : Notice) : List Call → List Entry × Endpoint codec
  | [] => ([], e)
  | c :: rest =>
      let (reply, e) := e.call c
      let (entries, e) := callAll e during rest
      (.called during c reply :: entries, e)

/-- Tells the listener something and makes the calls that it answers with. -/
def notify (e : Endpoint codec) (listener : Listener) (notice : Notice) :
    List Entry × Endpoint codec :=
  let view := e.session.view
  let e := { e with session := { e.session with notices := e.session.notices + 1 } }
  let (entries, e) := e.callAll notice (listener notice view)
  (.told notice view :: entries, e)

/-- The window after settings have come in, entry by entry. -/
def windowAfter (rule : FlowControl) (window : Int32) (entries : List Setting) : Int32 :=
  entries.foldl (fun w entry =>
    if entry.id = Setting.initialWindow then rule.window w (FlowControl.announced entry.value)
    else w) window

/-- Takes in a frame: the session changes first, then the listener is told. A ping of the peer's is
sent back before that. -/
def receive (e : Endpoint codec) (listener : Listener) : Frame → List Entry × Endpoint codec
  | .settings clear entries =>
      let window := windowAfter e.session.flowControl e.session.window entries
      notify { e with session := { e.session with window := window } } listener
        (.settings clear entries)
  | .ping id =>
      let e := if id.toNat % 2 = 0 then (e.write (.ping id)).2 else e
      e.notify listener (.ping id)
  | .goAway lastGoodStream status =>
      notify { e with session := { e.session with goAwayReceived := true } } listener
        (.goAway lastGoodStream status)
  | frame => e.notify listener (.frame frame)

def receiveAll (e : Endpoint codec) (listener : Listener) :
    List Delivery → List Entry × Endpoint codec
  | [] => ([], e)
  | d :: rest =>
      let (first, e) := e.receive listener d.frame
      let (entries, e) := e.receiveAll listener rest
      (first ++ entries, e)

/-- Takes in bytes. Besides what happened: how many frames they completed, and the fault that
stopped the reading if there was one. -/
def feed (e : Endpoint codec) (listener : Listener) (bytes : Bytes) :
    List Entry × Nat × Option Fault × Endpoint codec :=
  let (deliveries, fault, reader) := e.reader.feed bytes
  let (entries, e) := receiveAll { e with reader := reader } listener deliveries
  (entries, deliveries.length, fault, e)

/-- The connection has ended; the listener is told the first time. -/
def connectionClosed (e : Endpoint codec) (listener : Listener) : List Entry × Endpoint codec :=
  if e.session.closed then ([], e)
  else notify { e with session := { e.session with closed := true } } listener .closed

/-- The connection stops taking from the queue; what is still in it is lost. -/
def disconnect (e : Endpoint codec) : Endpoint codec :=
  { e with session := { e.session with connected := false, queue := [] } }

def takeQueue (e : Endpoint codec) : List Outbound × Endpoint codec :=
  (e.session.queue, { e with session := { e.session with queue := [] } })

/-- Gives the buffer of something taken from the queue back to the pool. -/
def release (pool : BufferPool) : Outbound → BufferPool
  | .frame buffer => pool.release buffer
  | .close => pool

/-- Gives the buffers of what was taken from the queue back to the pool. -/
def releaseAll (e : Endpoint codec) (items : List Outbound) : Endpoint codec :=
  { e with pool := items.foldl release e.pool }

end Endpoint

end SpdySessions
