import SpdySessions.Endpoint

/-! What calls and incoming frames make of an endpoint. They put something at the end of the queue,
borrow buffers from the pool, and may close the channel; the session stays who it is, and nothing is
said of an end of the connection. -/

namespace SpdySessions

/-- A later endpoint of the same connection, as calls and incoming frames leave it. -/
structure Endpoint.Serves {codec : HeaderCodec} (e e' : Endpoint codec) : Prop where
  id : e'.session.id = e.session.id
  closed : e'.session.closed = e.session.closed
  connected : e'.session.connected = e.session.connected
  reader : e'.reader = e.reader
  queue : ∃ items, e'.session.queue = e.session.queue ++ items
  refused : e.session.connected = false → e'.session.queue = e.session.queue
  pool : ∃ sizes : List Nat, e'.pool = sizes.foldl (fun pool n => (pool.acquire n).2) e.pool
  channel : e.channelOpen = false → e'.channelOpen = false

/-- The listener is told that the connection has ended. -/
def Session.Entry.isEnd : Session.Entry → Bool
  | .told .closed _ => true
  | _ => false

namespace Endpoint

open Session (Listener Notice Call Entry)

variable {codec : HeaderCodec} {e e' e'' : Endpoint codec}

theorem Serves.refl (e : Endpoint codec) : e.Serves e where
  id := rfl
  closed := rfl
  connected := rfl
  reader := rfl
  queue := ⟨[], (List.append_nil _).symm⟩
  refused := fun _ => rfl
  pool := ⟨[], rfl⟩
  channel := fun h => h

theorem Serves.trans (h : e.Serves e') (h' : e'.Serves e'') : e.Serves e'' where
  id := h'.id.trans h.id
  closed := h'.closed.trans h.closed
  connected := h'.connected.trans h.connected
  reader := h'.reader.trans h.reader
  queue := by
    obtain ⟨items, hitems⟩ := h.queue
    obtain ⟨items', hitems'⟩ := h'.queue
    exact ⟨items ++ items', by rw [hitems', hitems, List.append_assoc]⟩
  refused := fun hgone => (h'.refused (h.connected.trans hgone)).trans (h.refused hgone)
  pool := by
    obtain ⟨sizes, hsizes⟩ := h.pool
    obtain ⟨sizes', hsizes'⟩ := h'.pool
    exact ⟨sizes ++ sizes', by rw [hsizes', hsizes, List.foldl_append]⟩
  channel := fun hclosed => h'.channel (h.channel hclosed)

/-- Most changes of a session touch nothing that is kept. -/
theorem serves_session (e : Endpoint codec) (change : Session codec → Session codec)
    (hsame : ∀ s, (change s).id = s.id ∧ (change s).closed = s.closed ∧
      (change s).connected = s.connected ∧ (change s).queue = s.queue) :
    e.Serves { e with session := change e.session } where
  id := (hsame e.session).1
  closed := (hsame e.session).2.1
  connected := (hsame e.session).2.2.1
  reader := rfl
  queue := ⟨[], by rw [List.append_nil]; exact (hsame e.session).2.2.2⟩
  refused := fun _ => (hsame e.session).2.2.2
  pool := ⟨[], rfl⟩
  channel := fun h => h

/-! ### Calls -/

theorem serves_enqueue (e : Endpoint codec) (item : Outbound) : e.Serves (e.enqueue item).2 := by
  unfold enqueue
  split
  · rename_i hconnected
    exact { Serves.refl e with
      queue := ⟨[item], rfl⟩
      refused := fun hgone => by cases hconnected.symm.trans hgone }
  · exact .refl e

/-- Writing a frame borrows one buffer, or none if the payload is too large. -/
theorem pool_write (w : FrameWriter codec) (pool : BufferPool) (version : Version) (frame : Frame) :
    ∃ sizes : List Nat,
      (w.write pool version frame).2.2 = sizes.foldl (fun pool n => (pool.acquire n).2) pool := by
  unfold FrameWriter.write
  dsimp only
  split
  · exact ⟨[], rfl⟩
  · exact ⟨[_], rfl⟩

theorem serves_write (e : Endpoint codec) (frame : Frame) : e.Serves (e.write frame).2 := by
  have hwritten : ∀ written : Except Fault Buffer × FrameWriter codec × BufferPool,
      written = e.session.writer.write e.pool e.session.version frame →
      e.Serves { e with session := { e.session with writer := written.2.1 }, pool := written.2.2 } :=
    fun written h =>
      { serves_session e (fun s => { s with writer := written.2.1 }) fun _ => ⟨rfl, rfl, rfl, rfl⟩ with
        pool := h ▸ pool_write _ _ _ _ }
  unfold write
  dsimp only
  split
  · exact hwritten _ rfl
  · exact (hwritten _ rfl).trans (serves_enqueue _ _)

theorem serves_goAway (e : Endpoint codec) : e.Serves e.goAway.2 := by
  unfold goAway
  split
  · exact .refl e
  · have hsent := serves_session e (fun s => { s with goAwaySent := true }) fun _ => ⟨rfl, rfl, rfl, rfl⟩
    exact (hsent.trans (serves_write _ _)).trans (serves_enqueue _ _)

theorem serves_call (e : Endpoint codec) (c : Call) : e.Serves (e.call c).2 := by
  cases c with
  | ping =>
      have hused := serves_session e (fun s => { s with nextPing := s.nextPing + 2 })
        fun _ => ⟨rfl, rfl, rfl, rfl⟩
      exact hused.trans (serves_write _ (.ping e.session.nextPing))
  | goAway => exact serves_goAway e
  | settings clear entries => exact serves_write e (.settings clear entries)
  | close => exact { Serves.refl e with channel := fun _ => rfl }

theorem serves_callAll (e : Endpoint codec) (during : Notice) (calls : List Call) :
    e.Serves (e.callAll during calls).2 := by
  induction calls generalizing e with
  | nil => exact .refl e
  | cons c rest ih => exact (serves_call e c).trans (ih _)

theorem not_isEnd_callAll (e : Endpoint codec) (during : Notice) (calls : List Call) :
    ∀ entry ∈ (e.callAll during calls).1, entry.isEnd = false := by
  induction calls generalizing e with
  | nil => exact fun _ h => absurd h List.not_mem_nil
  | cons c rest ih =>
      intro entry hentry
      rcases List.mem_cons.mp hentry with rfl | hentry
      · rfl
      · exact ih _ entry hentry

/-! ### Frames -/

theorem serves_notify (e : Endpoint codec) (listener : Listener) (notice : Notice) :
    e.Serves (e.notify listener notice).2 :=
  have hnoticed := serves_session e (fun s => { s with notices := s.notices + 1 })
    fun _ => ⟨rfl, rfl, rfl, rfl⟩
  hnoticed.trans (serves_callAll _ notice _)

/-- The listener is told one thing, whatever it answers. -/
theorem countP_isEnd_notify (e : Endpoint codec) (listener : Listener) (notice : Notice) :
    (e.notify listener notice).1.countP Entry.isEnd = if notice = .closed then 1 else 0 := by
  unfold notify
  dsimp only
  have hcalls := List.countP_eq_zero.mpr fun entry hentry =>
    Bool.not_eq_true _ ▸ not_isEnd_callAll
      { e with session := { e.session with notices := e.session.notices + 1 } } notice
      (listener notice e.session.view) entry hentry
  rw [List.countP_cons, hcalls]
  cases notice <;> rfl

theorem serves_receive (e : Endpoint codec) (listener : Listener) (frame : Frame) :
    e.Serves (e.receive listener frame).2 := by
  unfold receive
  split
  · rename_i clear entries
    have hopened := serves_session e (fun s => { s with
      window := windowAfter s.flowControl s.window entries }) fun _ => ⟨rfl, rfl, rfl, rfl⟩
    exact hopened.trans (serves_notify _ listener _)
  · dsimp only
    split
    · exact (serves_write e _).trans (serves_notify _ listener _)
    · exact serves_notify e listener _
  · have hheard := serves_session e (fun s => { s with goAwayReceived := true })
      fun _ => ⟨rfl, rfl, rfl, rfl⟩
    exact hheard.trans (serves_notify _ listener _)
  · exact serves_notify e listener _

theorem countP_isEnd_receive (e : Endpoint codec) (listener : Listener) (frame : Frame) :
    (e.receive listener frame).1.countP Entry.isEnd = 0 := by
  unfold receive
  split
  · exact countP_isEnd_notify _ listener _
  · exact countP_isEnd_notify _ listener _
  · exact countP_isEnd_notify _ listener _
  · exact countP_isEnd_notify _ listener _

theorem serves_receiveAll (e : Endpoint codec) (listener : Listener) (deliveries : List Delivery) :
    e.Serves (e.receiveAll listener deliveries).2 := by
  induction deliveries generalizing e with
  | nil => exact .refl e
  | cons d rest ih => exact (serves_receive e listener d.frame).trans (ih _)

theorem countP_isEnd_receiveAll (e : Endpoint codec) (listener : Listener)
    (deliveries : List Delivery) : (e.receiveAll listener deliveries).1.countP Entry.isEnd = 0 := by
  induction deliveries generalizing e with
  | nil => rfl
  | cons d rest ih =>
      show ((e.receive listener d.frame).1 ++ (receiveAll _ listener rest).1).countP _ = 0
      rw [List.countP_append, countP_isEnd_receive, ih]

end Endpoint

end SpdySessions
