import SpdySessions.Proofs.Session.Farewell

/-! A session as its listener finds it. What comes in changes the session, and is answered, before the
listener is told, so from inside a notice the session shows the effect of it and of everything before
it. The steps are those of a trace: each is followed by what it does to the answers of the session, and
the induction over them gives the answers from what has happened. -/

namespace SpdySessions

open Session (Notice Call Event View)

namespace Session

/-- What was seen to be set is seen to be set later on. -/
structure View.Keeps (earlier later : View) : Prop where
  goAwaySent : earlier.goAwaySent = true → later.goAwaySent = true
  goAwayReceived : earlier.goAwayReceived = true → later.goAwayReceived = true
  closed : earlier.closed = true → later.closed = true

theorem View.Keeps.refl (view : View) : view.Keeps view :=
  ⟨fun hset => hset, fun hset => hset, fun hset => hset⟩

theorem View.Keeps.trans {first second third : View} (h : first.Keeps second)
    (h' : second.Keeps third) : first.Keeps third where
  goAwaySent := fun hset => h'.goAwaySent (h.goAwaySent hset)
  goAwayReceived := fun hset => h'.goAwayReceived (h.goAwayReceived hset)
  closed := fun hset => h'.closed (h.closed hset)

namespace Event

def view? : Event → Option View
  | told _ view => some view
  | _ => none

/-- The entries of settings that came in. -/
def announces : Event → List Setting
  | told (.settings _ entries) _ => entries
  | _ => []

def hearsEnd : Event → Bool
  | told .closed _ => true
  | _ => false

end Event

end Session

namespace Endpoint

variable {codec : HeaderCodec} {e₀ e e' : Endpoint codec} {past before after : List Event}
  {queued : List Outbound}

theorem windowAfter_append (rule : FlowControl) (window : Int32) (first second : List Setting) :
    windowAfter rule window (first ++ second) =
      windowAfter rule (windowAfter rule window first) second :=
  List.foldl_append

/-! ### What steps do to the answers of a session -/

theorem view_write (e : Endpoint codec) (f : Frame) :
    (e.write f).2.session.view = e.session.view ∧
      (e.write f).2.session.version = e.session.version := by
  rcases hwrite : e.session.writer.write e.pool e.session.version f with ⟨fault | buffer, writer, pool⟩
  · simp [write, hwrite, Session.view]
  · simp [write, hwrite, enqueue_eq, Session.view]

/-- Of what can be asked about a session, a call changes only whether farewell was said. -/
theorem view_call (e : Endpoint codec) (c : Call) :
    (∃ sent, (e.call c).2.session.view = { e.session.view with goAwaySent := sent } ∧
      (e.session.goAwaySent = true → sent = true)) ∧
    (e.call c).2.session.version = e.session.version := by
  cases c with
  | ping =>
      obtain ⟨hview, hversion⟩ := view_write
        { e with session := { e.session with nextPing := e.session.nextPing + 2 } }
        (.ping e.session.nextPing)
      exact ⟨⟨_, hview, fun hsent => hsent⟩, hversion⟩
  | settings clear entries =>
      obtain ⟨hview, hversion⟩ := view_write e (.settings clear entries)
      exact ⟨⟨_, hview, fun hsent => hsent⟩, hversion⟩
  | goAway =>
      cases hsent : e.session.goAwaySent with
      | true =>
          rw [call, goAway_of_sent hsent]
          exact ⟨⟨_, rfl, fun _ => hsent⟩, rfl⟩
      | false =>
          obtain ⟨hview, hversion⟩ := view_write
            { e with session := { e.session with goAwaySent := true } } (.goAway 0 0)
          rw [call, goAway_of_not_sent hsent, enqueue_eq]
          exact ⟨⟨true, hview, fun _ => rfl⟩, hversion⟩
  | close => exact ⟨⟨_, rfl, fun hsent => hsent⟩, rfl⟩

/-- What a notice makes of the answers of the session. -/
theorem view_react (e : Endpoint codec) (notice : Notice) (view : View) :
    (e.react notice).session.view =
      { e.session.view with
        window := windowAfter e.session.flowControl e.session.window
          (Event.told notice view).announces
        goAwayReceived := e.session.goAwayReceived || (Event.told notice view).hearsFarewell
        closed := e.session.closed || (Event.told notice view).hearsEnd } ∧
      (e.react notice).session.version = e.session.version := by
  cases notice with
  | ping id =>
      by_cases heven : id.toNat % 2 = 0
      · obtain ⟨hview, hversion⟩ := view_write e (.ping id)
        rw [react, if_pos heven, hview, hversion]
        simp [Session.view, windowAfter, Event.announces, Event.hearsFarewell, Event.hearsEnd]
      · rw [react, if_neg heven]
        simp [Session.view, windowAfter, Event.announces, Event.hearsFarewell, Event.hearsEnd]
  | settings | goAway | frame | closed =>
      simp [react, Session.view, windowAfter, Event.announces, Event.hearsFarewell, Event.hearsEnd]

/-! ### Flags stay set -/

theorem keeps_call (e : Endpoint codec) (c : Call) : e.session.view.Keeps (e.call c).2.session.view := by
  obtain ⟨⟨sent, hview, hsent⟩, -⟩ := view_call e c
  rw [hview]
  exact ⟨hsent, fun hset => hset, fun hset => hset⟩

theorem keeps_react (e : Endpoint codec) (notice : Notice) :
    e.session.view.Keeps (e.react notice).session.view := by
  rw [(view_react e notice e.session.view).1]
  refine ⟨fun hset => hset, fun hset => ?_, fun hset => ?_⟩
  · exact Bool.or_eq_true_iff.mpr (Or.inl hset)
  · exact Bool.or_eq_true_iff.mpr (Or.inl hset)

/-- All that was seen in notices is still seen, and was seen again in every notice in between. -/
theorem Trace.keeps (h : Trace e₀ past queued e) :
    (e₀.session.view :: past.filterMap Event.view?).Pairwise View.Keeps ∧
      ∀ view ∈ e₀.session.view :: past.filterMap Event.view?, view.Keeps e.session.view := by
  induction h with
  | start => exact ⟨List.pairwise_singleton _ _, List.forall_mem_singleton.mpr (.refl _)⟩
  | @call past queued items e h c hqueue ih =>
      have hviews : (past ++ [Event.called c (e.call c).1]).filterMap Event.view? =
          past.filterMap Event.view? := List.filterMap_append.trans (List.append_nil _)
      rw [hviews]
      exact ⟨ih.1, fun view hview => (ih.2 view hview).trans (keeps_call e c)⟩
  | @tell past queued items e h notice hproper hqueue ih =>
      obtain ⟨hpairs, hlast⟩ := ih
      have hviews : (past ++ [Event.told notice (e.react notice).session.view]).filterMap Event.view? =
          past.filterMap Event.view? ++ [(e.react notice).session.view] := List.filterMap_append
      have htold : ∀ view ∈ e₀.session.view :: past.filterMap Event.view?,
          view.Keeps (e.react notice).session.view := by
        intro view hview
        exact (hlast view hview).trans (keeps_react e notice)
      -- Only the number of notices is another one when the listener has been told.
      have hsame : (e.react notice).session.view.Keeps (e.tell notice).session.view :=
        ⟨fun hset => hset, fun hset => hset, fun hset => hset⟩
      rw [hviews, ← List.cons_append]
      refine ⟨pairwise_concat hpairs htold, fun view hview => ?_⟩
      rcases List.mem_append.mp hview with hview | hview
      · exact (htold view hview).trans hsame
      · rw [List.mem_singleton.mp hview]
        exact hsame
  | aside h queue reader hpool ih => exact ih
  | @lose past queued e h ih =>
      have hviews : (past ++ [Event.lost]).filterMap Event.view? = past.filterMap Event.view? :=
        List.filterMap_append.trans (List.append_nil _)
      rw [hviews]
      exact ih

/-! ### The answers from what has happened -/

/-- The window of a session, and whether it counts as closed, from what has happened. -/
structure Shown (e₀ : Endpoint codec) (past : List Event) (e : Endpoint codec) : Prop where
  version : e.session.version = e₀.session.version
  window : e.session.window =
    windowAfter e₀.session.flowControl e₀.session.window (past.flatMap Event.announces)
  closed : e.session.closed = (e₀.session.closed || past.any Event.hearsEnd)

theorem Shown.react (h : Shown e₀ past e) (notice : Notice) (view : View) :
    Shown e₀ (past ++ [.told notice view]) (e.react notice) := by
  obtain ⟨hview, hversion⟩ := view_react e notice view
  have hrule : e.session.flowControl = e₀.session.flowControl := congrArg FlowControl.ofVersion h.version
  refine ⟨hversion.trans h.version, ?_, ?_⟩
  · rw [List.flatMap_append, windowAfter_append, ← h.window, ← hrule, List.flatMap_singleton]
    exact congrArg View.window hview
  · rw [List.any_append, List.any_cons, List.any_nil, Bool.or_false, ← Bool.or_assoc, ← h.closed]
    exact congrArg View.closed hview

/-- What is no notice changes neither. -/
theorem Shown.plain {event : Event} (h : Shown e₀ past e) (hnone : event.view? = none)
    (hversion : e'.session.version = e.session.version)
    (hwindow : e'.session.window = e.session.window)
    (hclosed : e'.session.closed = e.session.closed) : Shown e₀ (past ++ [event]) e' := by
  have hsilent : event.announces = [] ∧ event.hearsEnd = false := by
    cases event with
    | told notice view => cases hnone
    | called | lost => exact ⟨rfl, rfl⟩
  refine ⟨hversion.trans h.version, ?_, ?_⟩
  · rw [List.flatMap_append, List.flatMap_singleton, hsilent.1, List.append_nil]
    exact hwindow.trans h.window
  · rw [List.any_append, List.any_cons, List.any_nil, hsilent.2, Bool.or_false, Bool.or_false]
    exact hclosed.trans h.closed

theorem Trace.shown (h : Trace e₀ past queued e) : Shown e₀ past e := by
  induction h with
  | start => exact ⟨rfl, rfl, (Bool.or_false _).symm⟩
  | @call past queued items e h c hqueue ih =>
      obtain ⟨⟨sent, hview, -⟩, hversion⟩ := view_call e c
      exact ih.plain rfl hversion (congrArg View.window hview) (congrArg View.closed hview)
  | @tell past queued items e h notice hproper hqueue ih => exact { ih.react notice _ with }
  | aside h queue reader hpool ih => exact { ih with }
  | lose h ih => exact ih.plain rfl rfl rfl rfl

theorem hearsFarewell_iff : past.any Event.hearsFarewell = true ↔
    ∃ lastGoodStream status view, Event.told (.goAway lastGoodStream status) view ∈ past := by
  rw [List.any_eq_true]
  constructor
  · rintro ⟨event, hevent, hhears⟩
    unfold Event.hearsFarewell at hhears
    split at hhears
    · exact ⟨_, _, _, hevent⟩
    · cases hhears
  · rintro ⟨lastGoodStream, status, view, hevent⟩
    exact ⟨_, hevent, rfl⟩

theorem hearsEnd_iff : past.any Event.hearsEnd = true ↔ ∃ view, Event.told .closed view ∈ past := by
  rw [List.any_eq_true]
  constructor
  · rintro ⟨event, hevent, hhears⟩
    unfold Event.hearsEnd at hhears
    split at hhears
    · exact ⟨_, hevent⟩
    · cases hhears
  · rintro ⟨view, hevent⟩
    exact ⟨_, hevent, rfl⟩

/-! ### Inside a notice -/

/-- What a listener sees that is told something after all of `before` has happened: the window after
all entries that came in, and the flags, those of this notice among them. -/
structure Shows (e₀ : Endpoint codec) (before : List Event) (notice : Notice) (view : View) : Prop where
  window : view.window = windowAfter e₀.session.flowControl e₀.session.window
    ((before ++ [Event.told notice view]).flatMap Event.announces)
  goAwayReceived : view.goAwayReceived = true ↔ ∃ lastGoodStream status view',
    Event.told (.goAway lastGoodStream status) view' ∈ before ++ [.told notice view]
  closed : view.closed = true ↔ ∃ view', Event.told .closed view' ∈ before ++ [.told notice view]

/-- Every notice shows what it is about. -/
theorem Trace.shows (hnew : e₀.IsNew) (h : Trace e₀ past queued e) :
    EachFits (fun before event => ∀ notice view, event = .told notice view →
      Shows e₀ before notice view) past := by
  rintro before event after hpast notice view rfl
  obtain ⟨earlier, items, later, e₁, e₂, hqueued, htrace, hhappens⟩ := h.moment hpast
  cases hhappens with
  | told hproper hqueue =>
      have hshown := htrace.shown.react notice (e₁.react notice).session.view
      obtain ⟨-, hreceived, -⟩ := ((htrace.tell hproper hqueue).recorded hnew).fits before _ [] rfl
      refine ⟨hshown.window, ?_, ?_⟩
      · rw [hreceived, hearsFarewell_iff]
      · rw [← hearsEnd_iff, ← Bool.false_or (List.any _ _), ← hnew.closed, ← hshown.closed]
        rfl

/-- A ping always fits, so it is queued if the connection takes from the queue. -/
theorem write_ping (hpool : e.pool.Reachable) (hconnected : e.session.connected = true) (id : UInt32) :
    ∃ buffer, (e.write (.ping id)).1 = .ok () ∧
      (e.write (.ping id)).2.session.queue = e.session.queue ++ [.frame buffer] ∧
      (Outbound.frame buffer).frames = [.ping id] := by
  have hok : (e.write (.ping id)).1.isOk = true :=
    (isOk_write e _).mpr ⟨hconnected, length_payload_ping _ _ id⟩
  obtain ⟨writer, pool, items, hwritten, -, hcarried⟩ :=
    write_spec e hpool (f := .ping id) (by simp) (by simp [Frame.Unmistakable])
  rw [if_pos hok] at hcarried
  obtain ⟨item, rest, hitem, hnil, rfl⟩ := List.forall₂_cons_left_iff.mp hcarried
  obtain rfl := List.forall₂_nil_left_iff.mp hnil
  have hframes := Outbound.frames_of_carries hitem
  obtain ⟨buffer, rfl, -⟩ := hitem
  refine ⟨buffer, ?_, by rw [hwritten], hframes⟩
  cases hresult : (e.write (.ping id)).1 with
  | ok _ => rfl
  | error fault =>
      rw [hresult] at hok
      cases hok

/-- A ping of the peer's has been sent back when the listener is told, if the connection takes from the
queue: the echo stands behind all that was there before. -/
theorem Recorded.echo {id : UInt32} (h : Recorded e₀ past queued e) (heven : id.toNat % 2 = 0)
    (halive : .lost ∉ past) :
    ∃ buffer, (e.react (.ping id)).session.queue = e.session.queue ++ [.frame buffer] ∧
      (Outbound.frame buffer).frames = [.ping id] := by
  have hconnected : e.session.connected = true := by
    rw [h.connected, not_any_isLoss.mpr halive]
    rfl
  obtain ⟨buffer, -, hqueue, hframes⟩ := write_ping h.pool hconnected id
  rw [react, if_pos heven]
  exact ⟨buffer, hqueue, hframes⟩

end Endpoint

end SpdySessions
