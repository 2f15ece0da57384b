import Mathlib.Data.List.Forall2
import SpdySessions.Proofs.Connection.Traffic
import SpdySessions.Proofs.Wire.RoundTrip

/-! What one step of a session puts into its queue. A call and a notice are the two kinds of step: a
frame that comes in changes the session, which may answer it, and only then the listener is told and
makes its calls. What a step queues depends on what was asked and answered, and on whether the
connection still takes from the queue. -/

namespace SpdySessions

theorem BufferPool.Reachable.foldl_acquire {p : BufferPool} (h : p.Reachable) (sizes : List Nat) :
    (sizes.foldl (fun pool n => (pool.acquire n).2) p).Reachable := by
  induction sizes generalizing p with
  | nil => exact h
  | cons n rest ih => exact ih (h.acquire n)

/-- Only a payload of too many bytes is not written. -/
theorem FrameWriter.isOk_write {codec : HeaderCodec} (w : FrameWriter codec) (pool : BufferPool)
    (v : Version) (f : Frame) :
    (w.write pool v f).1.isOk = true ↔ (f.payload w.compressor v).1.length ≤ Frame.maxPayload := by
  by_cases hsize : (f.payload w.compressor v).1.length ≤ Frame.maxPayload
  · simp [write, Except.isOk, Except.toBool, hsize, Nat.not_lt.mpr hsize]
  · simp [write, Except.isOk, Except.toBool, hsize, Nat.lt_of_not_le hsize]

/-! ### What is queued -/

/-- What stands in a queue for a frame that was sent, or for the wish to end: bytes off which anybody
reads the frame as it arrives. -/
def Outbound.Carries (v : Version) : Option Frame → Outbound → Prop
  | none, item => item = .close
  | some f, item => ∃ buffer, item = .frame buffer ∧ Grammar.IsFrame buffer.content ∧
      ∀ (codec : HeaderCodec) (d : codec.Decompressor),
        Grammar.Reads d buffer.content (Delivery.arrival v f) d

namespace Session

/-- A notice of a frame is the one that the frame gives: a ping's is a notice of a ping. -/
def Notice.Proper (notice : Notice) : Prop :=
  ∀ frame, notice.delivered? = some frame → frame.notice = notice

theorem Notice.proper_closed : Notice.closed.Proper := by
  simp [Proper, delivered?]

/-- What happened at a session: its listener was told something, it was called, by its listener or by
others, or its connection stopped taking from the queue. -/
inductive Event where
  | told (notice : Notice) (view : View)
  | called (call : Call) (reply : Reply)
  | lost

def Entry.event : Entry → Event
  | .told notice view => .told notice view
  | .called _ call reply => .called call reply

namespace Event

/-- What is queued when this happens and the queue is taken from: frames, and the wish to end. -/
def queues : Event → List (Option Frame)
  | told (.ping id) _ => if id.toNat % 2 = 0 then [some (.ping id)] else []
  | called .ping (.ping (.ok id)) => [some (.ping id)]
  | called (.settings clear entries) (.settings (.ok _)) => [some (.settings clear entries)]
  | called .goAway (.goAway true) => [some (.goAway 0 0), none]
  | _ => []

def delivered? : Event → Option Frame
  | told notice _ => notice.delivered?
  | _ => none

def isFarewell : Event → Bool
  | called .goAway _ => true
  | _ => false

def hearsFarewell : Event → Bool
  | told (.goAway _ _) _ => true
  | _ => false

def isLoss : Event → Bool
  | lost => true
  | _ => false

end Event

end Session

theorem Frame.proper_notice (frame : Frame) : frame.notice.Proper := by
  intro other h
  rw [Frame.delivered?_notice] at h
  rw [Option.some.inj h]

namespace Endpoint

open Session (Listener Notice Call Reply Entry Event)

variable {codec : HeaderCodec} {e e' : Endpoint codec}

/-! ### Writing -/

theorem carries_of_write {w next : FrameWriter codec} {pool pool' : BufferPool} {v : Version}
    {f : Frame} {buffer : Buffer} (hpool : pool.Reachable)
    (hplain : ∀ stream block, f ≠ .headers stream block) (hkind : f.Unmistakable)
    (h : w.write pool v f = (.ok buffer, next, pool')) :
    Outbound.Carries v (some f) (.frame buffer) := by
  obtain ⟨hcontent, -, hsize⟩ := FrameWriter.content_of_write hpool h
  refine ⟨buffer, rfl, ?_, fun codec' d => ?_⟩
  · rw [hcontent]
    exact Grammar.isFrame_header v f _ hsize
  · rw [hcontent]
    exact Grammar.reads_plain w.compressor d v hplain hkind hsize

theorem enqueue_eq (e : Endpoint codec) (item : Outbound) :
    (e.enqueue item).2 = { e with session := { e.session with
      queue := e.session.queue ++ if e.session.connected then [item] else [] } } := by
  unfold enqueue
  by_cases halive : e.session.connected = true
  · rw [if_pos halive, if_pos halive]
  · rw [if_neg halive, if_neg halive, List.append_nil]

/-- A frame is queued unless it is too large or the connection does not take from the queue any more. -/
theorem isOk_write (e : Endpoint codec) (f : Frame) :
    (e.write f).1.isOk = true ↔ e.session.connected = true ∧
      (f.payload e.session.writer.compressor e.session.version).1.length ≤ Frame.maxPayload := by
  have hsize := FrameWriter.isOk_write e.session.writer e.pool e.session.version f
  rcases hwrite : e.session.writer.write e.pool e.session.version f with ⟨fault | buffer, writer, pool⟩
  · rw [hwrite] at hsize
    simp [write, hwrite, Except.isOk, Except.toBool] at hsize ⊢
    omega
  · rw [hwrite] at hsize
    by_cases halive : e.session.connected = true
    · simpa [write, hwrite, enqueue, halive, Except.isOk, Except.toBool] using hsize
    · simp [write, hwrite, enqueue, halive, Except.isOk, Except.toBool]

/-- What a write changes: the writer, the pool, and the queue by the frame if it is queued. -/
theorem write_spec (e : Endpoint codec) (hpool : e.pool.Reachable) {f : Frame}
    (hplain : ∀ stream block, f ≠ .headers stream block) (hkind : f.Unmistakable) :
    ∃ writer pool items,
      (e.write f).2 = { e with
        session := { e.session with writer := writer, queue := e.session.queue ++ items }
        pool := pool } ∧
      pool.Reachable ∧
      List.Forall₂ (Outbound.Carries e.session.version)
        (if (e.write f).1.isOk then [some f] else []) items := by
  have hreached : (e.session.writer.write e.pool e.session.version f).2.2.Reachable := by
    obtain ⟨sizes, hsizes⟩ := pool_write e.session.writer e.pool e.session.version f
    rw [hsizes]
    exact hpool.foldl_acquire sizes
  rcases hwrite : e.session.writer.write e.pool e.session.version f with ⟨fault | buffer, writer, pool⟩
  · rw [hwrite] at hreached
    refine ⟨writer, pool, [], ?_, hreached, ?_⟩
    · simp [write, hwrite]
    · simp [write, hwrite, Except.isOk, Except.toBool]
  · rw [hwrite] at hreached
    have hcarries := carries_of_write hpool hplain hkind hwrite
    by_cases halive : e.session.connected = true
    · refine ⟨writer, pool, [.frame buffer], ?_, hreached, ?_⟩
      · simp [write, hwrite, enqueue, halive]
      · simpa [write, hwrite, enqueue, halive, Except.isOk, Except.toBool] using hcarries
    · refine ⟨writer, pool, [], ?_, hreached, ?_⟩
      · simp [write, hwrite, enqueue, halive]
      · simp [write, hwrite, enqueue, halive, Except.isOk, Except.toBool]

/-! ### Steps -/

/-- What a session does about a notice before its listener is told. -/
def react (e : Endpoint codec) : Notice → Endpoint codec
  | .settings _ entries =>
      let window := windowAfter e.session.flowControl e.session.window entries
      { e with session := { e.session with window := window } }
  | .ping id => if id.toNat % 2 = 0 then (e.write (.ping id)).2 else e
  | .goAway _ _ => { e with session := { e.session with goAwayReceived := true } }
  | .frame _ => e
  | .closed => { e with session := { e.session with closed := true } }

/-- The listener is told; what it answers comes after. -/
def tell (e : Endpoint codec) (notice : Notice) : Endpoint codec :=
  let e := e.react notice
  { e with session := { e.session with notices := e.session.notices + 1 } }

theorem receive_eq (e : Endpoint codec) (listener : Listener) (frame : Frame) :
    e.receive listener frame = (e.react frame.notice).notify listener frame.notice := by
  cases frame <;> rfl

theorem notify_react (e : Endpoint codec) (listener : Listener) (notice : Notice) :
    (e.react notice).notify listener notice =
      let calls := (e.tell notice).callAll notice (listener notice (e.react notice).session.view)
      (.told notice (e.react notice).session.view :: calls.1, calls.2) := rfl

/-- One step, and what it leaves in the queue. -/
structure Steps (e : Endpoint codec) (event : Event) (e' : Endpoint codec) : Prop where
  pool : e'.pool.Reachable
  version : e'.session.version = e.session.version
  connected : e'.session.connected = e.session.connected
  queue : ∃ items, e'.session.queue = e.session.queue ++ items ∧
    List.Forall₂ (Outbound.Carries e.session.version)
      (if e.session.connected then event.queues else []) items
  goAwaySent : e'.session.goAwaySent = (e.session.goAwaySent || event.isFarewell)
  goAwayReceived : e'.session.goAwayReceived = (e.session.goAwayReceived || event.hearsFarewell)

section

variable {e₁ : Endpoint codec} {event : Event} {f : Frame}

/-- A step that is a write, after a change of the session that the queue does not see. -/
theorem steps_of_write (hpool : e.pool.Reachable)
    (hsame : e₁.pool = e.pool ∧ e₁.session.version = e.session.version ∧
      e₁.session.connected = e.session.connected ∧ e₁.session.queue = e.session.queue)
    (hplain : ∀ stream block, f ≠ .headers stream block) (hkind : f.Unmistakable)
    (hsent : e₁.session.goAwaySent = (e.session.goAwaySent || event.isFarewell))
    (hreceived : e₁.session.goAwayReceived = (e.session.goAwayReceived || event.hearsFarewell))
    (hqueues : e.session.connected = true →
      event.queues = if (e₁.write f).1.isOk then [some f] else []) :
    e.Steps event (e₁.write f).2 := by
  obtain ⟨hpool₁, hversion, hconnected, hqueue⟩ := hsame
  obtain ⟨writer, pool, items, hwritten, hreached, hcarried⟩ :=
    write_spec e₁ (hpool₁ ▸ hpool) hplain hkind
  have hitems : List.Forall₂ (Outbound.Carries e.session.version)
      (if e.session.connected then event.queues else []) items := by
    rw [hversion] at hcarried
    by_cases halive : e.session.connected = true
    · rwa [if_pos halive, hqueues halive]
    · have hfailed : ¬(e₁.write f).1.isOk = true := fun hok =>
        halive (hconnected ▸ ((isOk_write e₁ f).mp hok).1)
      rw [if_neg hfailed] at hcarried
      rwa [if_neg halive]
  rw [hwritten]
  exact ⟨hreached, hversion, hconnected, ⟨items, by simp only [hqueue], hitems⟩, hsent, hreceived⟩

end

theorem steps_ping (e : Endpoint codec) (hpool : e.pool.Reachable) :
    e.Steps (.called .ping (.ping e.ping.1)) e.ping.2 := by
  refine steps_of_write (f := .ping e.session.nextPing) hpool ⟨rfl, rfl, rfl, rfl⟩ (by simp)
    (by simp [Frame.Unmistakable]) (by simp [Event.isFarewell]) (by simp [Event.hearsFarewell])
    fun _ => ?_
  simp only [ping]
  cases (write _ (.ping e.session.nextPing)).1 with
  | error fault => simp [Event.queues, Except.map, Except.isOk, Except.toBool]
  | ok _ => simp [Event.queues, Except.map, Except.isOk, Except.toBool]

theorem steps_settings (e : Endpoint codec) (hpool : e.pool.Reachable) (clear : Bool)
    (entries : List Setting) :
    e.Steps (.called (.settings clear entries) (.settings (e.write (.settings clear entries)).1))
      (e.write (.settings clear entries)).2 := by
  refine steps_of_write hpool ⟨rfl, rfl, rfl, rfl⟩ (by simp) (by simp [Frame.Unmistakable])
    (by simp [Event.isFarewell]) (by simp [Event.hearsFarewell]) fun _ => ?_
  cases (e.write (.settings clear entries)).1 with
  | error fault => simp [Event.queues, Except.isOk, Except.toBool]
  | ok _ => simp [Event.queues, Except.isOk, Except.toBool]

theorem goAway_of_sent (h : e.session.goAwaySent = true) : e.goAway = (false, e) := by
  simp [goAway, h]

theorem goAway_of_not_sent (h : e.session.goAwaySent = false) :
    e.goAway = (true, ((write { e with session := { e.session with goAwaySent := true } }
      (.goAway 0 0)).2.enqueue .close).2) := by
  simp [goAway, h]

theorem length_payload_ping (compressor : codec.Compressor) (v : Version) (id : UInt32) :
    ((Frame.ping id).payload compressor v).1.length ≤ Frame.maxPayload := by
  simp [Frame.payload, Bytes.length_be32, Frame.maxPayload]

theorem length_payload_goAway (compressor : codec.Compressor) (v : Version) :
    ((Frame.goAway 0 0).payload compressor v).1.length ≤ Frame.maxPayload := by
  cases v <;> simp [Frame.payload, Bytes.length_be32, Frame.maxPayload]

theorem steps_goAway (e : Endpoint codec) (hpool : e.pool.Reachable) :
    e.Steps (.called .goAway (.goAway e.goAway.1)) e.goAway.2 := by
  cases hsent : e.session.goAwaySent with
  | true =>
      rw [goAway_of_sent hsent]
      exact ⟨hpool, rfl, rfl, ⟨[], by simp, by simp [Event.queues]⟩, by simp [hsent],
        by simp [Event.hearsFarewell]⟩
  | false =>
      let e₁ : Endpoint codec := { e with session := { e.session with goAwaySent := true } }
      obtain ⟨writer, pool, items, hwritten, hreached, hcarried⟩ :=
        write_spec (f := .goAway 0 0) e₁ hpool (by simp) (by simp [Frame.Unmistakable])
      have hok := isOk_write e₁ (.goAway 0 0)
      have hitems : List.Forall₂ (Outbound.Carries e.session.version)
          (if e.session.connected then (Event.called .goAway (.goAway true)).queues else [])
          (items ++ if e.session.connected then [.close] else []) := by
        by_cases halive : e.session.connected = true
        · have hsize := length_payload_goAway e.session.writer.compressor e.session.version
          rw [if_pos (hok.mpr ⟨halive, hsize⟩)] at hcarried
          rw [if_pos halive, if_pos halive]
          exact List.rel_append hcarried (.cons rfl .nil)
        · rw [if_neg fun h => halive (hok.mp h).1] at hcarried
          rw [if_neg halive, if_neg halive, List.append_nil]
          exact hcarried
      rw [goAway_of_not_sent hsent, hwritten, enqueue_eq]
      exact ⟨hreached, rfl, rfl, ⟨_, List.append_assoc _ _ _, hitems⟩,
        by simp [e₁, Event.isFarewell], by simp [e₁, Event.hearsFarewell]⟩

theorem steps_call (e : Endpoint codec) (hpool : e.pool.Reachable) (c : Call) :
    e.Steps (.called c (e.call c).1) (e.call c).2 := by
  cases c with
  | ping => exact steps_ping e hpool
  | goAway => exact steps_goAway e hpool
  | settings clear entries => exact steps_settings e hpool clear entries
  | close =>
      exact ⟨hpool, rfl, rfl, ⟨[], by simp [call], by simp [Event.queues]⟩,
        by simp [call, Event.isFarewell], by simp [call, Event.hearsFarewell]⟩

theorem steps_react (e : Endpoint codec) (hpool : e.pool.Reachable) (notice : Notice)
    (view : Session.View) : e.Steps (.told notice view) (e.react notice) := by
  cases notice with
  | ping id =>
      by_cases heven : id.toNat % 2 = 0
      · have hqueues : e.session.connected = true →
            (Event.told (.ping id) view).queues =
              if (e.write (.ping id)).1.isOk then [some (.ping id)] else [] := fun halive => by
          rw [if_pos ((isOk_write e _).mpr ⟨halive, length_payload_ping _ _ id⟩)]
          simp [Event.queues, heven]
        rw [react, if_pos heven]
        exact steps_of_write hpool ⟨rfl, rfl, rfl, rfl⟩ (by simp) (by simp [Frame.Unmistakable])
          (by simp [Event.isFarewell]) (by simp [Event.hearsFarewell]) hqueues
      · rw [react, if_neg heven]
        exact ⟨hpool, rfl, rfl, ⟨[], by simp, by simp [Event.queues, heven]⟩,
          by simp [Event.isFarewell], by simp [Event.hearsFarewell]⟩
  | settings | goAway | frame | closed =>
      exact ⟨hpool, rfl, rfl, ⟨[], by simp [react], by simp [Event.queues]⟩,
        by simp [react, Event.isFarewell], by simp [react, Event.hearsFarewell]⟩

theorem steps_tell (e : Endpoint codec) (hpool : e.pool.Reachable) (notice : Notice)
    (view : Session.View) : e.Steps (.told notice view) (e.tell notice) :=
  { steps_react e hpool notice view with }

end Endpoint

end SpdySessions
