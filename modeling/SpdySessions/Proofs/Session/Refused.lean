import SpdySessions.Proofs.Session.Queue
import SpdySessions.Proofs.Wire.Failing

/-! Frames that a session cannot queue. A frame is refused at one of two points: its payload is too long,
which shows before a buffer is borrowed for it, or the connection does not take from the queue any more,
which shows only when the bytes are in a buffer already. The buffer is dropped then, though the pool that
it comes from is shared: all else is as if nothing had been written. -/

namespace SpdySessions

/-- The pool after a buffer was borrowed from it. -/
theorem BufferPool.snd_acquire (p : BufferPool) (n : Nat) :
    (p.acquire n).2 = { p with idle := p.idle.tail } := by
  rcases p with ⟨bufferSize, maxPooled, idle⟩
  cases idle <;> rfl

namespace Endpoint

open Session (Call Event)

variable {codec : HeaderCodec} {e e' : Endpoint codec} {f : Frame}

/-- The frames that a session writes, and what is left of it then: the pings, the settings and the first
farewell that it is called for, and the answers to the peer's pings. -/
inductive Writes (e : Endpoint codec) : Frame → Endpoint codec → Prop
  | ping : Writes e (.ping e.session.nextPing) (e.call .ping).2
  | settings (clear : Bool) (entries : List Setting) :
      Writes e (.settings clear entries) (e.call (.settings clear entries)).2
  | goAway (hfirst : e.session.goAwaySent = false) : Writes e (.goAway 0 0) (e.call .goAway).2
  | echo {id : UInt32} (heven : id.toNat % 2 = 0) : Writes e (.ping id) (e.react (.ping id))

/-- The frame cannot be queued. -/
def Refuses (e : Endpoint codec) (f : Frame) : Prop :=
  e.session.connected = false ∨
    Frame.maxPayload < f.payloadLength e.session.writer.compressor e.session.version

/-- What a session counts and notes down before it writes. -/
def marked (e : Endpoint codec) (nextPing : UInt32) (goAwaySent : Bool) : Endpoint codec :=
  { e with session := { e.session with nextPing := nextPing, goAwaySent := goAwaySent } }

theorem enqueue_of_lost (hlost : e.session.connected = false) (item : Outbound) :
    e.enqueue item = (false, e) := by
  rw [enqueue, hlost]
  rfl

theorem write_of_tooLarge (hplain : ∀ stream block, f ≠ .headers stream block)
    (hlarge : Frame.maxPayload < f.payloadLength e.session.writer.compressor e.session.version) :
    (e.write f).2 = e := by
  have hkept : f.Spares codec := fun stream block hf => absurd hf (hplain stream block)
  rw [write, FrameWriter.write_of_lt _ _ _ _ hlarge, hkept.payload_eq]

/-- The frame fits and nobody takes it: one buffer less waits in the pool. -/
theorem write_of_lost (hplain : ∀ stream block, f ≠ .headers stream block)
    (hsize : f.payloadLength e.session.writer.compressor e.session.version ≤ Frame.maxPayload)
    (hlost : e.session.connected = false) :
    (e.write f).2 = { e with pool := { e.pool with idle := e.pool.idle.tail } } := by
  have hkept : f.Spares codec := fun stream block hf => absurd hf (hplain stream block)
  have hwriter : (f.wire e.session.writer.compressor e.session.version).2 =
      e.session.writer.compressor := hkept.payload_eq _ _
  rw [← Frame.length_payload] at hsize
  rw [write, FrameWriter.write_of_le _ _ hsize]
  dsimp only
  rw [enqueue_of_lost, hwriter, BufferPool.snd_acquire]
  exact hlost

/-- All that is written is written by the same function, and refused by it. -/
theorem Writes.eq_write (h : e.Writes f e') (hrefused : e.Refuses f) :
    (∀ stream block, f ≠ .headers stream block) ∧
      ∃ nextPing goAwaySent, e' = ((e.marked nextPing goAwaySent).write f).2 := by
  cases h with
  | ping => exact ⟨by simp, e.session.nextPing + 2, e.session.goAwaySent, rfl⟩
  | settings clear entries => exact ⟨by simp, e.session.nextPing, e.session.goAwaySent, rfl⟩
  | goAway hfirst =>
      refine ⟨by simp, e.session.nextPing, true, ?_⟩
      have hlost : e.session.connected = false := by
        refine hrefused.resolve_right (Nat.not_lt.mpr ?_)
        rw [← Frame.length_payload]
        exact length_payload_goAway _ _
      have hstill : ((e.marked e.session.nextPing true).write (.goAway 0 0)).2.session.connected =
          false := (serves_write _ _).connected.trans hlost
      rw [call, goAway_of_not_sent hfirst]
      exact congrArg Prod.snd (enqueue_of_lost hstill .close)
  | echo heven =>
      refine ⟨by simp, e.session.nextPing, e.session.goAwaySent, ?_⟩
      rw [react, if_pos heven]
      rfl

/-- **A frame that cannot be queued costs a buffer at most.** Whatever a session is called for, and for
the answers to the peer's pings: if the frame is too long or the connection does not take from the queue,
then but for the number of the next ping and the note that farewell was said the session is as it was: the
queue, the window, the other flags, the writer; and so are the reader and the channel. The pool is as it
was too if the frame is too long. If it fits, the buffer that was borrowed for it is not given back: one
buffer less waits in the pool, unless there was none. -/
theorem refused_write_costs_a_buffer (hwrites : e.Writes f e') (hrefused : e.Refuses f) :
    (∃ nextPing goAwaySent pool, e' = { e with
      session := { e.session with nextPing := nextPing, goAwaySent := goAwaySent }
      pool := pool }) ∧
    (Frame.maxPayload < f.payloadLength e.session.writer.compressor e.session.version →
      e'.pool = e.pool) ∧
    (f.payloadLength e.session.writer.compressor e.session.version ≤ Frame.maxPayload →
      e'.pool = { e.pool with idle := e.pool.idle.tail } ∧
      e'.pool.idleCount = e.pool.idleCount - 1) := by
  obtain ⟨hplain, nextPing, goAwaySent, rfl⟩ := hwrites.eq_write hrefused
  by_cases hlarge : Frame.maxPayload < f.payloadLength e.session.writer.compressor e.session.version
  · rw [write_of_tooLarge (e := e.marked nextPing goAwaySent) hplain hlarge]
    exact ⟨⟨nextPing, goAwaySent, e.pool, rfl⟩, fun _ => rfl,
      fun hsize => absurd hlarge (Nat.not_lt.mpr hsize)⟩
  · have hlost : e.session.connected = false := hrefused.resolve_right hlarge
    rw [write_of_lost (e := e.marked nextPing goAwaySent) hplain (Nat.le_of_not_lt hlarge) hlost]
    exact ⟨⟨nextPing, goAwaySent, _, rfl⟩, fun hnot => absurd hnot hlarge,
      fun _ => ⟨rfl, List.length_tail⟩⟩

/-- Settings of so many entries that the payload is too long, and a ping when the connection is lost. -/
theorem newcomer_refuses :
    (∃ e', newcomer.Writes (.settings false (List.replicate 2097152 ⟨4, 0, 0⟩)) e' ∧
      e'.pool = newcomer.pool) ∧
    ∃ e', newcomer.disconnect.Writes (.ping 1) e' ∧ e'.pool.idle = [] := by
  have hlarge : Frame.maxPayload < (Frame.settings false (List.replicate 2097152 ⟨4, 0, 0⟩)).payloadLength
      newcomer.session.writer.compressor newcomer.session.version := by
    rw [Frame.payloadLength, List.length_replicate]
    decide
  have hping : newcomer.disconnect.Writes (.ping 1) _ := .ping
  obtain ⟨-, hsame, -⟩ := refused_write_costs_a_buffer (e := newcomer) (.settings false _) (.inr hlarge)
  obtain ⟨-, -, hless⟩ := refused_write_costs_a_buffer hping (.inl rfl)
  exact ⟨⟨_, .settings false _, hsame hlarge⟩, _, hping, congrArg BufferPool.idle (hless (by decide)).1⟩

/-- The law that a write gives the buffer back that it has borrowed for a frame that cannot be queued. -/
def GivesBack (codec : HeaderCodec) : Prop :=
  ∀ (e₀ : Endpoint codec) (t : History) (e : Endpoint codec) (f : Frame) (e' : Endpoint codec),
    e₀.IsNew → Course e₀ t e → e.Writes f e' → e.Refuses f →
    e'.pool.idleCount = e.pool.idleCount

/-- A session whose connection is lost is called for a ping. One buffer waited in the pool, and none does
when the ping has failed. -/
theorem refused_ping_takes_buffer :
    (∃ t e e', newcomer.IsNew ∧ Course newcomer t e ∧ e.Writes (.ping 1) e' ∧ e.Refuses (.ping 1) ∧
      e.pool.idleCount = 1 ∧ e'.pool.idleCount = 0) ∧
    ¬GivesBack .identity := by
  have hstart : Course newcomer _ newcomer := .start
  have hlost : newcomer.disconnect.Refuses (.ping 1) := Or.inl rfl
  have hping : newcomer.disconnect.Writes (.ping 1) _ := .ping
  refine ⟨⟨_, _, _, isNew_newcomer, hstart.disconnect, hping, hlost, rfl, rfl⟩, fun hlaw => ?_⟩
  exact absurd (hlaw _ _ _ _ _ isNew_newcomer hstart.disconnect hping hlost) (by decide)

end Endpoint

end SpdySessions
