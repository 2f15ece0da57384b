import SpdySessions.Proofs.Session.Steps

/-! Twins. Connections share their pool, and how much room a buffer has depends on who had it before; a
session's number depends on how many were made before. Neither is anything that the session or its
connection goes by: two endpoints that differ in nothing else answer alike, whatever is asked of them and
whatever comes in, and differ in nothing else afterwards. -/

namespace SpdySessions

/-- The bytes without the room that they are in. -/
def Outbound.bare : Outbound → Outbound
  | frame buffer => frame { buffer with capacity := 0 }
  | close => close

/-- A session without its number and the room in its queue. -/
def Session.bare {codec : HeaderCodec} (s : Session codec) : Session codec :=
  { s with id := 0, queue := s.queue.map Outbound.bare }

/-- A borrowed buffer holds what is written into it, wherever it comes from. -/
theorem Outbound.bare_append {pool : BufferPool} (h : pool.Reachable) (n : Nat) (bytes : Bytes) :
    (frame ((pool.acquire n).1.append bytes)).bare = frame ⟨bytes, 0⟩ := by
  simp only [bare, Buffer.append, h.content_acquire, List.nil_append]

namespace Endpoint

open Session (Listener Notice Call Reply Entry)

variable {codec : HeaderCodec} {e e' : Endpoint codec}

/-- Two endpoints that differ at most in the number of the session, the pool and the room in the queue. -/
structure Twins (e e' : Endpoint codec) : Prop where
  session : e'.session.bare = e.session.bare
  reader : e'.reader = e.reader
  channel : e'.channelOpen = e.channelOpen
  pools : e.pool.Reachable ∧ e'.pool.Reachable

theorem twins_self (hpool : e.pool.Reachable) : e.Twins e :=
  ⟨rfl, rfl, rfl, hpool, hpool⟩

/-- A change of the session that minds neither its number nor the room in its queue. -/
theorem Twins.change (h : e.Twins e') (change : Session codec → Session codec)
    (hbare : ∀ s, (change s).bare = change s.bare) :
    Twins { e with session := change e.session } { e' with session := change e'.session } where
  session := by
    show (change e'.session).bare = (change e.session).bare
    rw [hbare, hbare, h.session]
  reader := h.reader
  channel := h.channel
  pools := h.pools

/-- All else is the same. -/
theorem Twins.part {α : Type} (h : e.Twins e') (part : Session codec → α)
    (hbare : ∀ s, part s.bare = part s) : part e'.session = part e.session := by
  rw [← hbare e'.session, h.session, hbare]

/-- Twins give the same answer and are twins still. -/
def Alike {α : Type} (first second : α × Endpoint codec) : Prop :=
  second.1 = first.1 ∧ first.2.Twins second.2

/-- The answer may be read in any way. -/
theorem Alike.map {α β : Type} {first second : α × Endpoint codec} (h : Alike first second)
    (read : α → β) : Alike (read first.1, first.2) (read second.1, second.2) :=
  ⟨congrArg read h.1, h.2⟩

/-! ### Calls -/

theorem Twins.enqueue (h : e.Twins e') {item item' : Outbound} (hitem : item'.bare = item.bare) :
    Alike (e.enqueue item) (e'.enqueue item') := by
  have hqueue : e'.session.queue.map Outbound.bare = e.session.queue.map Outbound.bare :=
    congrArg Session.queue h.session
  have hlonger : Session.bare { e'.session with queue := e'.session.queue ++ [item'] } =
      Session.bare { e.session with queue := e.session.queue ++ [item] } := by
    have hitems : (e'.session.queue ++ [item']).map Outbound.bare =
        (e.session.queue ++ [item]).map Outbound.bare := by
      rw [List.map_append, List.map_append, hqueue, List.map_singleton, hitem, List.map_singleton]
    exact congrArg₂ (fun (s : Session codec) queue => { s with queue := queue }) h.session hitems
  unfold Endpoint.enqueue
  rw [h.part Session.connected fun _ => rfl]
  split
  · exact ⟨rfl, hlonger, h.reader, h.channel, h.pools⟩
  · exact ⟨rfl, h⟩

/-- A write goes by the bytes of the frame: what is borrowed comes empty. -/
theorem Twins.write (h : e.Twins e') (f : Frame) : Alike (e.write f) (e'.write f) := by
  have hversion : e'.session.version = e.session.version := h.part Session.version fun _ => rfl
  have hwriter : e'.session.writer = e.session.writer := h.part Session.writer fun _ => rfl
  have hwritten : ∀ (writer : FrameWriter codec) {pool pool' : BufferPool},
      pool.Reachable → pool'.Reachable →
      Twins { e with session := { e.session with writer := writer }, pool := pool }
        { e' with session := { e'.session with writer := writer }, pool := pool' } :=
    fun writer _ _ hpool hpool' =>
      { h.change (fun s => { s with writer := writer }) fun _ => rfl with pools := ⟨hpool, hpool'⟩ }
  unfold Endpoint.write
  rw [hversion, hwriter]
  by_cases hsize : (f.payload e.session.writer.compressor e.session.version).1.length ≤ Frame.maxPayload
  · have hitem := fun n bytes => (Outbound.bare_append h.pools.2 n bytes).trans
      (Outbound.bare_append h.pools.1 n bytes).symm
    simp only [FrameWriter.write_of_le _ _ hsize]
    exact ((hwritten _ (h.pools.1.acquire _) (h.pools.2.acquire _)).enqueue (hitem _ _)).map
      fun taken => (if taken then .ok () else .error .connectionClosed : Except Fault Unit)
  · simp only [FrameWriter.write, Nat.lt_of_not_le hsize, if_true]
    exact ⟨rfl, hwritten _ h.pools.1 h.pools.2⟩

theorem Twins.ping (h : e.Twins e') : Alike e.ping e'.ping := by
  have hnumber : e'.session.nextPing = e.session.nextPing := h.part Session.nextPing fun _ => rfl
  have hwritten := (h.change (fun s => { s with nextPing := s.nextPing + 2 }) fun _ => rfl).write
    (.ping e.session.nextPing)
  unfold Endpoint.ping
  rw [hnumber] at hwritten ⊢
  exact hwritten.map fun result => result.map fun _ => e.session.nextPing

theorem Twins.goAway (h : e.Twins e') : Alike e.goAway e'.goAway := by
  have hsent : e'.session.goAwaySent = e.session.goAwaySent := h.part Session.goAwaySent fun _ => rfl
  have hwritten := (h.change (fun s => { s with goAwaySent := true }) fun _ => rfl).write (.goAway 0 0)
  unfold Endpoint.goAway
  rw [hsent]
  split
  · exact ⟨rfl, h⟩
  · exact ⟨rfl, (hwritten.2.enqueue rfl).2⟩

theorem Twins.call (h : e.Twins e') (c : Call) : Alike (e.call c) (e'.call c) := by
  cases c with
  | ping => exact h.ping.map Reply.ping
  | goAway => exact h.goAway.map Reply.goAway
  | settings clear entries => exact (h.write (.settings clear entries)).map Reply.settings
  | close => exact ⟨rfl, h.session, h.reader, rfl, h.pools⟩

theorem Twins.callAll (h : e.Twins e') (during : Notice) (calls : List Call) :
    Alike (e.callAll during calls) (e'.callAll during calls) := by
  induction calls generalizing e e' with
  | nil => exact ⟨rfl, h⟩
  | cons c rest ih =>
      obtain ⟨hreply, hcalled⟩ := h.call c
      obtain ⟨hentries, hlast⟩ := ih hcalled
      exact ⟨congrArg₂ (fun reply entries => Entry.called during c reply :: entries) hreply hentries, hlast⟩

/-! ### Notices -/

theorem Twins.notify (h : e.Twins e') (listener : Listener) (notice : Notice) :
    Alike (e.notify listener notice) (e'.notify listener notice) := by
  have hnoticed := h.change (fun s => { s with notices := s.notices + 1 }) fun _ => rfl
  unfold Endpoint.notify
  rw [h.part Session.view fun _ => rfl]
  exact (hnoticed.callAll notice _).map (Entry.told notice e.session.view :: ·)

/-- What a session does about a notice goes by neither. -/
theorem Twins.react (h : e.Twins e') (notice : Notice) : (e.react notice).Twins (e'.react notice) := by
  cases notice with
  | settings clear entries =>
      exact h.change (fun s => { s with window := windowAfter s.flowControl s.window entries }) fun _ => rfl
  | ping id =>
      unfold Endpoint.react
      dsimp only
      split
      · exact (h.write (.ping id)).2
      · exact h
  | goAway => exact h.change (fun s => { s with goAwayReceived := true }) fun _ => rfl
  | frame => exact h
  | closed => exact h.change (fun s => { s with closed := true }) fun _ => rfl

theorem Twins.receive (h : e.Twins e') (listener : Listener) (f : Frame) :
    Alike (e.receive listener f) (e'.receive listener f) := by
  rw [receive_eq, receive_eq]
  exact (h.react f.notice).notify listener f.notice

theorem Twins.receiveAll (h : e.Twins e') (listener : Listener) (ds : List Delivery) :
    Alike (e.receiveAll listener ds) (e'.receiveAll listener ds) := by
  induction ds generalizing e e' with
  | nil => exact ⟨rfl, h⟩
  | cons d rest ih =>
      obtain ⟨hentries, hreceived⟩ := h.receive listener d.frame
      obtain ⟨hrest, hlast⟩ := ih hreceived
      exact ⟨congrArg₂ (· ++ ·) hentries hrest, hlast⟩

/-- Bytes lead to the same entries and frames, and to the same fault. -/
theorem Twins.feed (h : e.Twins e') (listener : Listener) (bytes : Bytes) :
    (e'.feed listener bytes).1 = (e.feed listener bytes).1 ∧
    (e'.feed listener bytes).2.2.1 = (e.feed listener bytes).2.2.1 ∧
    (e.feed listener bytes).2.2.2.Twins (e'.feed listener bytes).2.2.2 := by
  have hread : Twins { e with reader := (e.reader.feed bytes).2.2 }
      { e' with reader := (e.reader.feed bytes).2.2 } := ⟨h.session, rfl, h.channel, h.pools⟩
  obtain ⟨hentries, hlast⟩ := hread.receiveAll listener (e.reader.feed bytes).1
  unfold Endpoint.feed
  rw [h.reader]
  exact ⟨hentries, rfl, hlast⟩

theorem Twins.connectionClosed (h : e.Twins e') (listener : Listener) :
    Alike (e.connectionClosed listener) (e'.connectionClosed listener) := by
  have hclosed : e'.session.closed = e.session.closed := h.part Session.closed fun _ => rfl
  unfold Endpoint.connectionClosed
  rw [hclosed]
  split
  · exact ⟨rfl, h⟩
  · exact (h.react .closed).notify listener .closed

end Endpoint

/-! ### Connections -/

namespace Connection

open Session (Listener Entry)

variable {codec : HeaderCodec} {c c' : Connection codec}

/-- Two connections of twins that have come equally far. -/
structure Twins (c c' : Connection codec) : Prop where
  endpoint : c.endpoint.Twins c'.endpoint
  progress : c'.progress = c.progress
  written : c'.written = c.written

/-- Their queues are empty, or begin alike. -/
inductive Heads (c c' : Connection codec) : Prop
  | empty (h : c.endpoint.session.queue = []) (h' : c'.endpoint.session.queue = [])
  | frame {buffer buffer' : Buffer} {rest rest' : List Outbound}
      (h : c.endpoint.session.queue = .frame buffer :: rest)
      (h' : c'.endpoint.session.queue = .frame buffer' :: rest')
      (hcontent : buffer'.content = buffer.content)
      (hrest : rest'.map Outbound.bare = rest.map Outbound.bare)
  | close {rest rest' : List Outbound} (h : c.endpoint.session.queue = .close :: rest)
      (h' : c'.endpoint.session.queue = .close :: rest')
      (hrest : rest'.map Outbound.bare = rest.map Outbound.bare)

theorem Twins.heads (h : c.Twins c') : Heads c c' := by
  have hqueue : c'.endpoint.session.queue.map Outbound.bare =
      c.endpoint.session.queue.map Outbound.bare := congrArg Session.queue h.endpoint.session
  cases hq : c.endpoint.session.queue with
  | nil =>
      rw [hq, List.map_nil, List.map_eq_nil_iff] at hqueue
      exact .empty hq hqueue
  | cons item rest =>
      rw [hq, List.map_cons] at hqueue
      obtain ⟨item', rest', hq', hitem, hrest⟩ := List.map_eq_cons_iff.mp hqueue
      cases item with
      | frame buffer =>
          cases item' with
          | frame buffer' =>
              have hbare : Buffer.mk buffer'.content 0 = ⟨buffer.content, 0⟩ := Outbound.frame.inj hitem
              exact .frame hq hq' (Buffer.mk.inj hbare).1 hrest
          | close => cases hitem
      | close =>
          cases item' with
          | frame buffer' => cases hitem
          | close => exact .close hq hq' hrest

theorem Twins.leave (h : c.Twins c') (result : Except Fault Unit) :
    (c.leave result).Twins (c'.leave result) :=
  ⟨h.endpoint, rfl, h.written⟩

theorem Twins.dequeue (h : c.Twins c') {item item' : Outbound} {rest rest' : List Outbound}
    (hrest : rest'.map Outbound.bare = rest.map Outbound.bare) :
    (c.dequeue item rest).Twins (c'.dequeue item' rest') where
  endpoint :=
    { session := congrArg₂ (fun (s : Session codec) queue => { s with queue := queue })
        h.endpoint.session hrest
      reader := h.endpoint.reader
      channel := h.endpoint.channel
      pools := by
        have hrelease : ∀ {pool : BufferPool}, pool.Reachable → ∀ item,
            (Endpoint.release pool item).Reachable := by
          intro pool hpool item
          cases item with
          | frame buffer => exact hpool.release buffer
          | close => exact hpool
        exact ⟨hrelease h.endpoint.pools.1 item, hrelease h.endpoint.pools.2 item'⟩ }
  progress := h.progress
  written := h.written

theorem Twins.write (h : c.Twins c') (socket : Socket) {buffer buffer' : Buffer}
    (hcontent : buffer'.content = buffer.content) :
    (c.write socket buffer).Twins (c'.write socket buffer') := by
  unfold Connection.write
  split
  · exact h.leave _
  · exact ⟨h.endpoint, h.progress, congrArg₂ (· ++ ·) h.written hcontent⟩

theorem Twins.read (h : c.Twins c') (listener : Listener) (socket : Socket) :
    (c'.read listener socket).1 = (c.read listener socket).1 ∧
      (c.read listener socket).2.Twins (c'.read listener socket).2 := by
  unfold Connection.read
  split
  · exact ⟨rfl, h.leave _⟩
  · exact ⟨rfl, h.leave _⟩
  · rename_i bytes _ _
    obtain ⟨hentries, hfault, hfed⟩ := h.endpoint.feed listener bytes
    have hlast : Twins { c with endpoint := (c.endpoint.feed listener bytes).2.2.2 }
        { c' with endpoint := (c'.endpoint.feed listener bytes).2.2.2 } := ⟨hfed, h.progress, h.written⟩
    dsimp only
    rw [hfault, hentries]
    cases (c.endpoint.feed listener bytes).2.2.1 with
    | some fault => exact ⟨rfl, hlast.leave _⟩
    | none =>
        cases socket.flush with
        | error fault => exact ⟨rfl, hlast.leave _⟩
        | ok _ => exact ⟨rfl, hlast⟩

theorem Twins.finish (h : c.Twins c') (result : Except Fault Unit) :
    (c.finish result).Twins (c'.finish result) where
  endpoint :=
    { session := congrArg (fun s : Session codec => { s with connected := false, queue := [] })
        h.endpoint.session
      reader := h.endpoint.reader
      channel := rfl
      pools := h.endpoint.pools }
  progress := rfl
  written := h.written

theorem Twins.turn (h : c.Twins c') (listener : Listener) (socket : Socket) :
    (c'.turn listener socket).1 = (c.turn listener socket).1 ∧
      (c.turn listener socket).2.Twins (c'.turn listener socket).2 := by
  unfold Connection.turn
  rw [h.progress, h.endpoint.channel]
  cases c.progress with
  | running =>
      dsimp only
      split
      · exact ⟨rfl, h.endpoint, rfl, h.written⟩
      · rcases h.heads with ⟨hq, hq'⟩ | ⟨hq, hq', hcontent, hrest⟩ | ⟨hq, hq', hrest⟩
        · rw [hq, hq']
          exact h.read listener socket
        · rw [hq, hq']
          exact ⟨rfl, (h.dequeue hrest).write socket hcontent⟩
        · rw [hq, hq']
          exact ⟨rfl, (h.dequeue hrest).leave _⟩
  | draining =>
      dsimp only
      rcases h.heads with ⟨hq, hq'⟩ | ⟨hq, hq', hcontent, hrest⟩ | ⟨hq, hq', hrest⟩
      · rw [hq, hq']
        exact ⟨rfl, h.leave _⟩
      · rw [hq, hq']
        exact ⟨rfl, (h.dequeue hrest).write socket hcontent⟩
      · rw [hq, hq']
        exact ⟨rfl, h.dequeue hrest⟩
  | leaving result => exact ⟨rfl, h.finish result⟩
  | ended result => exact ⟨rfl, h⟩

theorem Twins.moves (h : c.Twins c') (socket : Socket) : c'.moves socket = c.moves socket := by
  unfold Connection.moves
  rw [h.progress, h.endpoint.channel]
  rcases h.heads with ⟨hq, hq'⟩ | ⟨hq, hq', -, -⟩ | ⟨hq, hq', -⟩
  · rw [hq, hq']
  · rw [hq, hq']
    cases c.progress <;> rfl
  · rw [hq, hq']
    cases c.progress <;> rfl

end Connection

end SpdySessions
