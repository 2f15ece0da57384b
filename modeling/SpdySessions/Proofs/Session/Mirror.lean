import SpdySessions.Proofs.Session.Moments
import SpdySessions.Proofs.Wire.Acceptance

/-! What a listener is told mirrors what comes in. A run is written down with what came in from outside:
frames, directly or as bytes, and the news that the connection has ended. The notices are those of the
arrivals, one after the other. Bytes are no way of their own: as far as they complete frames, taking
them in is receiving these frames one by one, however they are cut, and only the reader knows of the
difference. -/

namespace SpdySessions

open Session (Listener Notice Call Reply Entry Event View)

/-- What comes in from outside: a frame, or the news that the connection has ended. -/
inductive Arrival where
  | frame (frame : Frame)
  | ended

namespace Arrival

def isEnd : Arrival → Bool
  | ended => true
  | frame _ => false

/-- What is to be told of arrivals: each frame once, and the end the first time, if the session did not
count as closed before. -/
def notices : Bool → List Arrival → List Notice
  | _, [] => []
  | closed, frame f :: rest => f.notice :: notices closed rest
  | true, ended :: rest => notices true rest
  | false, ended :: rest => .closed :: notices true rest

theorem notices_append (closed : Bool) (first second : List Arrival) :
    notices closed (first ++ second) =
      notices closed first ++ notices (closed || first.any isEnd) second := by
  induction first generalizing closed with
  | nil => rw [List.any_nil, Bool.or_false]; rfl
  | cons arrival rest ih =>
      cases arrival with
      | frame f => exact congrArg (f.notice :: ·) (ih closed)
      | ended =>
          have hclosed : ∀ b, notices true (rest ++ second) =
              notices true rest ++ notices (b || (ended :: rest).any isEnd) second := fun b => by
            rw [ih true, List.any_cons, isEnd, Bool.true_or, Bool.or_true]
          cases closed with
          | true => exact hclosed true
          | false => exact congrArg (Notice.closed :: ·) (hclosed false)

theorem notices_frames (closed : Bool) (frames : List Frame) :
    notices closed (frames.map frame) = frames.map Frame.notice := by
  induction frames with
  | nil => rfl
  | cons f rest ih => exact congrArg (f.notice :: ·) ih

theorem not_any_isEnd (frames : List Frame) : (frames.map frame).any isEnd = false := by
  induction frames with
  | nil => rfl
  | cons f rest ih => exact ih

end Arrival

def Session.Event.told? : Event → Option Notice
  | told notice _ => some notice
  | _ => none

namespace Endpoint

variable {codec : HeaderCodec} {e₀ e : Endpoint codec}

/-! ### Runs -/

/-- What can be done with a session, from outside and by its connection. A listener may be another one
each time. -/
inductive Operation where
  | call (c : Call)
  | receive (listener : Listener) (d : Delivery)
  | feed (listener : Listener) (bytes : Bytes)
  | connectionClosed (listener : Listener)
  | take
  | usePool (u : PoolUse)
  | disconnect

/-- The connection takes the first item of the queue, if there is one. -/
def takeOne (e : Endpoint codec) : Endpoint codec :=
  { e with session := { e.session with queue := e.session.queue.tail } }

/-- A run so far: what came in, the history, and the endpoint. -/
structure Run (codec : HeaderCodec) where
  arrivals : List Arrival
  history : History
  endpoint : Endpoint codec

namespace Run

def start (e : Endpoint codec) : Run codec :=
  ⟨[], ⟨[], [], e.session.queue⟩, e⟩

/-- With what came of some arrivals. -/
def after (r : Run codec) (arrivals : List Arrival) (frames : List Frame)
    (answer : List Entry × Endpoint codec) : Run codec :=
  ⟨r.arrivals ++ arrivals, r.history.after r.endpoint answer.2 answer.1 frames, answer.2⟩

def perform (r : Run codec) : Operation → Run codec
  | .call c =>
      let (reply, e) := r.endpoint.call c
      { r with
        history := { r.history with
          events := r.history.events ++ [.called c reply]
          queued := r.history.queued ++ added r.endpoint e }
        endpoint := e }
  | .receive listener d => r.after [.frame d.frame] [d.frame] (r.endpoint.receive listener d.frame)
  | .feed listener bytes =>
      let frames := (r.endpoint.reader.feed bytes).1.map Delivery.frame
      let (entries, _, _, e) := r.endpoint.feed listener bytes
      r.after (frames.map .frame) frames (entries, e)
  | .connectionClosed listener => r.after [.ended] [] (r.endpoint.connectionClosed listener)
  | .take => { r with endpoint := r.endpoint.takeOne }
  | .usePool u => { r with endpoint := r.endpoint.usePool u }
  | .disconnect =>
      { r with
        history := { r.history with events := r.history.events ++ [.lost] }
        endpoint := r.endpoint.disconnect }

def performAll (r : Run codec) (ops : List Operation) : Run codec :=
  ops.foldl perform r

end Run

variable {r : Run codec}

theorem Course.takeOne {t : History} (h : Course e₀ t e) : Course e₀ t e.takeOne := by
  cases hqueue : e.session.queue with
  | nil =>
      have hsame : e.takeOne = e := by rw [Endpoint.takeOne, hqueue, List.tail_nil, ← hqueue]
      rw [hsame]
      exact h
  | cons item rest =>
      rw [Endpoint.takeOne, hqueue]
      exact h.take hqueue

theorem Course.perform (h : Course e₀ r.history r.endpoint) (op : Operation) :
    Course e₀ (r.perform op).history (r.perform op).endpoint := by
  cases op with
  | call c => exact h.call c
  | receive listener d => exact h.receive listener d
  | feed listener bytes => exact h.feed listener bytes
  | connectionClosed listener => exact h.connectionClosed listener
  | take => exact h.takeOne
  | usePool u => exact h.usePool u
  | disconnect => exact h.disconnect

/-- Every run is a course. -/
theorem Course.performAll (h : Course e₀ r.history r.endpoint) (ops : List Operation) :
    Course e₀ (r.performAll ops).history (r.performAll ops).endpoint := by
  induction ops generalizing r with
  | nil => exact h
  | cons op rest ih => exact ih (h.perform op)

/-! ### The notices of the arrivals -/

theorem told_events (entries : List Entry) :
    (entries.map Entry.event).filterMap Event.told? = entries.filterMap Entry.told? := by
  rw [List.filterMap_map]
  refine List.filterMap_congr fun entry _ => ?_
  cases entry <;> rfl

/-- The listener was told of all that came in, and of the end just if there was one. -/
structure Mirrors (e₀ : Endpoint codec) (r : Run codec) : Prop where
  told : r.history.events.filterMap Event.told? = Arrival.notices e₀.session.closed r.arrivals
  closed : r.endpoint.session.closed = (e₀.session.closed || r.arrivals.any Arrival.isEnd)

/-- A step that tells of its arrivals. -/
theorem Mirrors.after (h : Mirrors e₀ r) {arrivals : List Arrival} {frames : List Frame}
    {answer : List Entry × Endpoint codec}
    (htold : answer.1.filterMap Entry.told? = Arrival.notices r.endpoint.session.closed arrivals)
    (hclosed : answer.2.session.closed = (r.endpoint.session.closed || arrivals.any Arrival.isEnd)) :
    Mirrors e₀ (r.after arrivals frames answer) where
  told := by
    show (r.history.events ++ answer.1.map Entry.event).filterMap Event.told? = _
    rw [List.filterMap_append, told_events, htold, h.told, h.closed, ← Arrival.notices_append]
    rfl
  closed := by
    show answer.2.session.closed = (e₀.session.closed || (r.arrivals ++ arrivals).any Arrival.isEnd)
    rw [hclosed, h.closed, List.any_append, Bool.or_assoc]

/-- A step that tells nothing. -/
theorem Mirrors.silent (h : Mirrors e₀ r) {r' : Run codec} (harrivals : r'.arrivals = r.arrivals)
    (htold : r'.history.events.filterMap Event.told? = r.history.events.filterMap Event.told?)
    (hclosed : r'.endpoint.session.closed = r.endpoint.session.closed) : Mirrors e₀ r' where
  told := by rw [htold, h.told, harrivals]
  closed := by rw [hclosed, h.closed, harrivals]

theorem Mirrors.perform (h : Mirrors e₀ r) (op : Operation) : Mirrors e₀ (r.perform op) := by
  cases op with
  | call c =>
      refine h.silent rfl ?_ (serves_call r.endpoint c).closed
      exact List.filterMap_append.trans (List.append_nil _)
  | receive listener d =>
      refine h.after ?_ ?_
      · exact Connection.told_receive r.endpoint listener d.frame
      · exact (serves_receive r.endpoint listener d.frame).closed.trans (Bool.or_false _).symm
  | feed listener bytes =>
      refine h.after ?_ ?_
      · rw [Arrival.notices_frames, List.map_map]
        exact Connection.told_receiveAll _ listener _
      · rw [Arrival.not_any_isEnd, Bool.or_false]
        exact (serves_receiveAll _ listener _).closed
  | connectionClosed listener =>
      refine h.after ?_ ?_
      · cases hclosed : r.endpoint.session.closed with
        | true => simp [Endpoint.connectionClosed, hclosed, Arrival.notices]
        | false =>
            have htold := Connection.told_notify
              { r.endpoint with session := { r.endpoint.session with closed := true } } listener .closed
            simpa [Endpoint.connectionClosed, hclosed, Arrival.notices] using htold
      · cases hclosed : r.endpoint.session.closed with
        | true => simp [Endpoint.connectionClosed, hclosed]
        | false =>
            have hserves := serves_notify
              { r.endpoint with session := { r.endpoint.session with closed := true } } listener .closed
            simpa [Endpoint.connectionClosed, hclosed, Arrival.isEnd] using hserves.closed
  | take => exact h.silent rfl rfl rfl
  | usePool u => exact h.silent rfl rfl rfl
  | disconnect =>
      refine h.silent rfl ?_ rfl
      exact List.filterMap_append.trans (List.append_nil _)

theorem Mirrors.performAll (h : Mirrors e₀ r) (ops : List Operation) : Mirrors e₀ (r.performAll ops) := by
  induction ops generalizing r with
  | nil => exact h
  | cons op rest ih => exact ih (h.perform op)

/-! ### Bytes and frames -/

/-- The endpoint with another reader. -/
def withReader (e : Endpoint codec) (reader : FrameReader codec) : Endpoint codec :=
  { e with reader := reader }

section

variable (e : Endpoint codec) (reader : FrameReader codec) (listener : Listener)

theorem write_withReader (f : Frame) :
    (e.withReader reader).write f = ((e.write f).1, (e.write f).2.withReader reader) := by
  rcases hwrite : e.session.writer.write e.pool e.session.version f with ⟨fault | buffer, writer, pool⟩
  · simp [write, withReader, hwrite]
  · cases halive : e.session.connected <;> simp [write, withReader, hwrite, enqueue, halive]

theorem call_withReader (c : Call) :
    (e.withReader reader).call c = ((e.call c).1, (e.call c).2.withReader reader) := by
  cases c with
  | ping =>
      have hwrite := write_withReader
        { e with session := { e.session with nextPing := e.session.nextPing + 2 } } reader
        (.ping e.session.nextPing)
      exact congrArg (fun written => (Reply.ping (written.1.map fun _ => e.session.nextPing), written.2))
        hwrite
  | settings clear entries =>
      have hwrite := write_withReader e reader (.settings clear entries)
      exact congrArg (fun written => (Reply.settings written.1, written.2)) hwrite
  | goAway =>
      cases hsent : e.session.goAwaySent with
      | true =>
          have hsent' : (e.withReader reader).session.goAwaySent = true := hsent
          rw [call, call, goAway_of_sent hsent, goAway_of_sent hsent']
      | false =>
          have hsent' : (e.withReader reader).session.goAwaySent = false := hsent
          have hwrite := write_withReader { e with session := { e.session with goAwaySent := true } }
            reader (.goAway 0 0)
          rw [call, call, goAway_of_not_sent hsent, goAway_of_not_sent hsent', enqueue_eq, enqueue_eq]
          exact congrArg (fun written => (Reply.goAway true, { written.2 with
            session := { written.2.session with
              queue := written.2.session.queue ++
                if written.2.session.connected then [Outbound.close] else [] } })) hwrite
  | close => rfl

theorem callAll_withReader (during : Notice) (calls : List Call) :
    (e.withReader reader).callAll during calls =
      ((e.callAll during calls).1, (e.callAll during calls).2.withReader reader) := by
  induction calls generalizing e with
  | nil => rfl
  | cons c rest ih =>
      rw [callAll, callAll, call_withReader]
      exact congrArg (fun later => (Entry.called during c (e.call c).1 :: later.1, later.2)) (ih _)

theorem notify_withReader (notice : Notice) :
    (e.withReader reader).notify listener notice =
      ((e.notify listener notice).1, (e.notify listener notice).2.withReader reader) := by
  have hcalls := callAll_withReader
    { e with session := { e.session with notices := e.session.notices + 1 } } reader notice
    (listener notice e.session.view)
  exact congrArg (fun later => (Entry.told notice e.session.view :: later.1, later.2)) hcalls

theorem receive_withReader (f : Frame) :
    (e.withReader reader).receive listener f =
      ((e.receive listener f).1, (e.receive listener f).2.withReader reader) := by
  have hreact : (e.withReader reader).react f.notice = (e.react f.notice).withReader reader := by
    cases f with
    | ping id =>
        by_cases heven : id.toNat % 2 = 0
        · rw [Frame.notice, react, react, if_pos heven, if_pos heven, write_withReader]
        · rw [Frame.notice, react, react, if_neg heven, if_neg heven]
    | settings | goAway | headers | windowUpdate | data | unknown => rfl
  rw [receive_eq, receive_eq, hreact, notify_withReader]

theorem receiveAll_withReader (ds : List Delivery) :
    (e.withReader reader).receiveAll listener ds =
      ((e.receiveAll listener ds).1, (e.receiveAll listener ds).2.withReader reader) := by
  induction ds generalizing e with
  | nil => rfl
  | cons d rest ih =>
      rw [receiveAll, receiveAll, receive_withReader]
      exact congrArg (fun later => ((e.receive listener d.frame).1 ++ later.1, later.2)) (ih _)

end

/-- The history of two parts, the second of which adds to the queue of the first. -/
theorem History.after_after (t : History) {e e' e'' : Endpoint codec} (h : e.Serves e')
    (h' : e'.Serves e'') (first second : List Entry) (frames frames' : List Frame) :
    (t.after e e' first frames).after e' e'' second frames' =
      t.after e e'' (first ++ second) (frames ++ frames') := by
  obtain ⟨items, hitems⟩ := h.queue
  obtain ⟨items', hitems'⟩ := h'.queue
  have hall : e''.session.queue = e.session.queue ++ (items ++ items') := by
    rw [hitems', hitems, List.append_assoc]
  simp only [History.after, added_eq hitems, added_eq hitems', added_eq hall, List.append_assoc,
    List.map_append]

namespace Run

def withReader (r : Run codec) (reader : FrameReader codec) : Run codec :=
  { r with endpoint := r.endpoint.withReader reader }

theorem after_nil (r : Run codec) : r.after [] [] ([], r.endpoint) = r := by
  have hnone : added r.endpoint r.endpoint = [] := added_eq (List.append_nil _).symm
  simp only [after, History.after, hnone, List.append_nil, List.map_nil]

theorem after_after (r : Run codec) {answer answer' : List Entry × Endpoint codec}
    (h : r.endpoint.Serves answer.2) (h' : answer.2.Serves answer'.2) (arrivals arrivals' : List Arrival)
    (frames frames' : List Frame) :
    (r.after arrivals frames answer).after arrivals' frames' answer' =
      r.after (arrivals ++ arrivals') (frames ++ frames') (answer.1 ++ answer'.1, answer'.2) := by
  simp only [after, History.after_after _ h h', List.append_assoc]

/-- Frames that are received one by one, at once. -/
theorem performAll_receive (r : Run codec) (listener : Listener) (ds : List Delivery) :
    r.performAll (ds.map (.receive listener)) =
      r.after ((ds.map Delivery.frame).map .frame) (ds.map Delivery.frame)
        (r.endpoint.receiveAll listener ds) := by
  induction ds generalizing r with
  | nil => exact r.after_nil.symm
  | cons d rest ih =>
      have hfirst := serves_receive r.endpoint listener d.frame
      have hrest := serves_receiveAll (r.endpoint.receive listener d.frame).2 listener rest
      exact (ih _).trans (r.after_after hfirst hrest _ _ _ _)

/-- Taking in bytes is receiving the frames that they complete. -/
theorem perform_feed (r : Run codec) (listener : Listener) (bytes : Bytes) :
    r.perform (.feed listener bytes) =
      (r.performAll ((r.endpoint.reader.feed bytes).1.map (.receive listener))).withReader
        (r.endpoint.reader.feed bytes).2.2 := by
  rw [performAll_receive]
  show r.after _ _ ((r.endpoint.withReader _).receiveAll listener _) = _
  rw [receiveAll_withReader]
  rfl

theorem performAll_receive_withReader (r : Run codec) (reader : FrameReader codec)
    (listener : Listener) (ds : List Delivery) :
    (r.withReader reader).performAll (ds.map (.receive listener)) =
      (r.performAll (ds.map (.receive listener))).withReader reader := by
  rw [performAll_receive, performAll_receive]
  show r.after _ _ ((r.endpoint.withReader reader).receiveAll listener ds) = _
  rw [receiveAll_withReader]
  rfl

/-- Taking in chunks without a fault is receiving the frames that they complete together. -/
theorem performAll_feed (hsettled : r.endpoint.reader.Settled) (listener : Listener)
    (chunks : List Bytes) (hfault : (r.endpoint.reader.feed chunks.flatten).2.1 = none) :
    r.performAll (chunks.map (.feed listener)) =
      (r.performAll ((r.endpoint.reader.feed chunks.flatten).1.map (.receive listener))).withReader
        (r.endpoint.reader.feed chunks.flatten).2.2 := by
  induction chunks generalizing r with
  | nil =>
      rw [List.flatten_nil, FrameReader.feed_nil hsettled]
      rfl
  | cons chunk rest ih =>
      have hchunk : (r.endpoint.reader.feed chunk).2.1 = none := by
        cases hcause : (r.endpoint.reader.feed chunk).2.1 with
        | none => rfl
        | some cause =>
            rw [List.flatten_cons, FrameReader.feed_append_of_fault hcause, hcause] at hfault
            cases hfault
      rw [List.flatten_cons, FrameReader.feed_append hchunk] at hfault ⊢
      have hreader : (r.perform (.feed listener chunk)).endpoint.reader =
          (r.endpoint.reader.feed chunk).2.2 := by
        rw [perform_feed]
        rfl
      have hlater := @ih (r.perform (.feed listener chunk))
      rw [hreader] at hlater
      calc r.performAll ((chunk :: rest).map (.feed listener))
        _ = (r.perform (.feed listener chunk)).performAll (rest.map (.feed listener)) := rfl
        _ = ((r.perform (.feed listener chunk)).performAll
              (((r.endpoint.reader.feed chunk).2.2.feed rest.flatten).1.map
                (.receive listener))).withReader
                  ((r.endpoint.reader.feed chunk).2.2.feed rest.flatten).2.2 :=
            hlater (FrameReader.settled_feed _ chunk) hfault
        _ = ((r.performAll ((r.endpoint.reader.feed chunk).1.map (.receive listener))).performAll
              (((r.endpoint.reader.feed chunk).2.2.feed rest.flatten).1.map
                (.receive listener))).withReader
                  ((r.endpoint.reader.feed chunk).2.2.feed rest.flatten).2.2 := by
            rw [perform_feed, performAll_receive_withReader]
            rfl
        _ = _ := by
            rw [List.map_append, performAll, performAll, ← List.foldl_append]
            rfl

end Run

/-- The reader is settled all along a run. -/
theorem settled_perform (h : r.endpoint.reader.Settled) (op : Operation) :
    (r.perform op).endpoint.reader.Settled := by
  cases op with
  | call c => exact (serves_call r.endpoint c).reader ▸ h
  | receive listener d => exact (serves_receive r.endpoint listener d.frame).reader ▸ h
  | feed listener bytes =>
      rw [Run.perform_feed]
      exact FrameReader.settled_feed _ bytes
  | connectionClosed listener =>
      cases hclosed : r.endpoint.session.closed with
      | true => simpa [Run.perform, Run.after, Endpoint.connectionClosed, hclosed] using h
      | false =>
          have hserves := serves_notify
            { r.endpoint with session := { r.endpoint.session with closed := true } } listener .closed
          simpa [Run.perform, Run.after, Endpoint.connectionClosed, hclosed, hserves.reader] using h
  | take | usePool | disconnect => exact h

theorem settled_performAll (h : r.endpoint.reader.Settled) (ops : List Operation) :
    (r.performAll ops).endpoint.reader.Settled := by
  induction ops generalizing r with
  | nil => exact h
  | cons op rest ih => exact ih (settled_perform h op)

/-! ### What listeners are told -/

/-- **Notices mirror what comes in.** On every run of a new session, with listeners that make any calls
in any notice: what was told is what came in, each frame once and in order, and the end of the
connection when it was heard of first. In every notice the window and the flags show all that came in so
far, what the notice is about among it. The listener is told of a frame when the session has reacted to
it; a ping of the peer's has been queued by then, if the connection takes from the queue. A flag that was
seen to be set is seen to be set ever after. To take in bytes is to receive the frames that they
complete, one by one. So well-formed frames may as well come as bytes in any chunks: the run is the same,
but for the reader. -/
theorem notices_mirror_arrivals (hnew : e₀.IsNew) (hreader : FrameReader.Reachable e₀.reader)
    {ops : List Operation} {p : Run codec} (hrun : (Run.start e₀).performAll ops = p) :
    p.history.events.filterMap Event.told? = Arrival.notices false p.arrivals ∧
    (∀ before notice view after, p.history.events = before ++ .told notice view :: after →
      Shows e₀ before notice view) ∧
    (∀ f : Frame, ∃ seen : Endpoint codec,
      (∀ listener, p.endpoint.receive listener f = seen.notify listener f.notice) ∧
      ∀ id, f = .ping id → id.toNat % 2 = 0 → .lost ∉ p.history.events →
        ∃ buffer, seen.session.queue = p.endpoint.session.queue ++ [.frame buffer] ∧
          (Outbound.frame buffer).frames = [.ping id]) ∧
    (∀ more q, (Run.start p.endpoint).performAll more = q →
      (p.endpoint.session.view :: q.history.events.filterMap Event.view? ++
        [q.endpoint.session.view]).Pairwise View.Keeps) ∧
    (∀ listener bytes, p.perform (.feed listener bytes) =
      (p.performAll ((p.endpoint.reader.feed bytes).1.map (.receive listener))).withReader
        (p.endpoint.reader.feed bytes).2.2) ∧
    ∀ listener (chunks frames : List Bytes) rest (xs : List Delivery) next,
      Grammar.Cut (p.endpoint.reader.pending ++ chunks.flatten) frames rest →
      Grammar.ReadsAll p.endpoint.reader.decompressor frames xs next →
      p.performAll (chunks.map (.feed listener)) =
        (p.performAll (xs.map (.receive listener))).withReader ⟨next, rest⟩ := by
  subst hrun
  have hstart : Course e₀ (Run.start e₀).history (Run.start e₀).endpoint := .start
  have htrace := (hstart.performAll ops).trace
  have hmirrors : Mirrors e₀ (Run.start e₀) := ⟨rfl, (Bool.or_false _).symm⟩
  refine ⟨?_, fun before notice view after hpast => ?_, fun f => ?_, ?_,
    fun listener bytes => Run.perform_feed _ listener bytes, ?_⟩
  · rw [← hnew.closed]
    exact (hmirrors.performAll ops).told
  · exact htrace.shows hnew before _ after hpast notice view rfl
  · refine ⟨_, fun listener => receive_eq _ listener f, ?_⟩
    rintro id rfl heven halive
    exact (htrace.recorded hnew).echo heven halive
  · rintro more q rfl
    have hlater : Course _ (Run.start ((Run.start e₀).performAll ops).endpoint).history
      (Run.start ((Run.start e₀).performAll ops).endpoint).endpoint := .start
    obtain ⟨hpairs, hlast⟩ := (hlater.performAll more).trace.keeps
    exact pairwise_concat hpairs hlast
  · intro listener chunks frames rest xs next hcut hall
    have hscan := (hcut.scan_eq_iff _ _ _).mpr ⟨hall, rfl⟩
    have hfeed : ((Run.start e₀).performAll ops).endpoint.reader.feed chunks.flatten =
        (xs, none, ⟨next, rest⟩) := by
      rw [FrameReader.feed, hscan]
    have hrest := Run.performAll_feed (settled_performAll hreader.settled ops) listener chunks
      (congrArg (fun answer => answer.2.1) hfeed)
    rw [hfeed] at hrest
    exact hrest

/-- The peer's ping is answered, farewell is said, and the end of the connection is heard of twice. Had
it gone on, another ping could have come in two chunks as well as directly. -/
theorem newcomer_mirrors :
    newcomer.IsNew ∧ FrameReader.Reachable newcomer.reader ∧ ∃ p,
      (Run.start newcomer).performAll [.receive talkative ⟨some .v2, .ping 4⟩, .call .goAway,
        .connectionClosed polite, .connectionClosed talkative] = p ∧
      p.history.events.filterMap Event.told? = [.ping 4, .closed] ∧
      p.performAll ([[128, 2, 0, 6, 0], [0, 0, 4, 0, 0, 0, 6]].map (.feed talkative)) =
        (p.performAll [.receive talkative ⟨some .v2, .ping 6⟩]).withReader (.fresh .identity) := by
  have hreader : FrameReader.Reachable newcomer.reader := .fresh
  have hread : Grammar.Reads (HeaderCodec.identity.decompressor)
      [128, 2, 0, 6, 0, 0, 0, 4, 0, 0, 0, 6] ⟨some .v2, .ping 6⟩ HeaderCodec.identity.decompressor :=
    Grammar.reads_plain HeaderCodec.identity.compressor _ .v2 (f := .ping 6) (by simp)
      (by simp [Frame.Unmistakable]) (length_payload_ping _ _ _)
  have hcut : Grammar.Cut [128, 2, 0, 6, 0, 0, 0, 4, 0, 0, 0, 6]
      [[128, 2, 0, 6, 0, 0, 0, 4, 0, 0, 0, 6]] [] :=
    ⟨rfl, List.forall_mem_singleton.mpr rfl, Grammar.cut?_eq_none_iff.mp rfl⟩
  obtain ⟨htold, -, -, -, -, hbytes⟩ := notices_mirror_arrivals isNew_newcomer hreader rfl
  exact ⟨isNew_newcomer, hreader, _, rfl, htold, hbytes talkative [[128, 2, 0, 6, 0], [0, 0, 4, 0, 0, 0, 6]] _ _
    [⟨some .v2, .ping 6⟩] _ hcut (.cons hread (.nil _))⟩

end Endpoint

end SpdySessions
