import Mathlib.Data.List.TakeWhile
import SpdySessions.Factory.Connect
import SpdySessions.Proofs.Past
import SpdySessions.Proofs.Session.Steps

/-! The history of a session: all that its listener was told, all that it was called to do, by the
listener and by others, the frames that came in and everything that was ever put into its queue. Any
course of a session is a run of single steps, so what holds of its history is proved step by step. -/

namespace SpdySessions.Endpoint

open Session (Listener Notice Call Reply Entry Event)

variable {codec : HeaderCodec} {e₀ e e' : Endpoint codec}

structure History where
  events : List Event
  inbound : List Frame
  queued : List Outbound

/-- What one endpoint has in its queue beyond an earlier one. -/
def added (e e' : Endpoint codec) : List Outbound :=
  e'.session.queue.drop e.session.queue.length

theorem added_eq {items : List Outbound} (h : e'.session.queue = e.session.queue ++ items) :
    added e e' = items := by
  rw [added, h, List.drop_left]

/-- With some frames that came in and what happened then. -/
def History.after (t : History) (e e' : Endpoint codec) (entries : List Entry) (frames : List Frame) :
    History where
  events := t.events ++ entries.map Entry.event
  inbound := t.inbound ++ frames
  queued := t.queued ++ added e e'

def usePool (e : Endpoint codec) (u : PoolUse) : Endpoint codec :=
  { e with pool := e.pool.use u }

/-- An endpoint in use. Anybody calls its session, frames come in one by one or as bytes, with a
listener that may answer differently each time, the connection takes from the queue and ends, the pool
is used by others as well, and the receiving end of the queue may be lost. -/
inductive Course (e₀ : Endpoint codec) : History → Endpoint codec → Prop
  | start : Course e₀ ⟨[], [], e₀.session.queue⟩ e₀
  | call {t : History} {e : Endpoint codec} (h : Course e₀ t e) (c : Call) :
      Course e₀ { t with
        events := t.events ++ [.called c (e.call c).1]
        queued := t.queued ++ added e (e.call c).2 } (e.call c).2
  | receive {t : History} {e : Endpoint codec} (h : Course e₀ t e) (listener : Listener)
      (d : Delivery) :
      Course e₀ (t.after e (e.receive listener d.frame).2 (e.receive listener d.frame).1 [d.frame])
        (e.receive listener d.frame).2
  | feed {t : History} {e : Endpoint codec} (h : Course e₀ t e) (listener : Listener) (bytes : Bytes) :
      Course e₀ (t.after e (e.feed listener bytes).2.2.2 (e.feed listener bytes).1
        ((e.reader.feed bytes).1.map Delivery.frame)) (e.feed listener bytes).2.2.2
  | connectionClosed {t : History} {e : Endpoint codec} (h : Course e₀ t e) (listener : Listener) :
      Course e₀ (t.after e (e.connectionClosed listener).2 (e.connectionClosed listener).1 [])
        (e.connectionClosed listener).2
  | take {t : History} {e : Endpoint codec} (h : Course e₀ t e) {item : Outbound}
      {rest : List Outbound} (hqueue : e.session.queue = item :: rest) :
      Course e₀ t { e with session := { e.session with queue := rest } }
  | usePool {t : History} {e : Endpoint codec} (h : Course e₀ t e) (u : PoolUse) :
      Course e₀ t (e.usePool u)
  | disconnect {t : History} {e : Endpoint codec} (h : Course e₀ t e) :
      Course e₀ { t with events := t.events ++ [.lost] } e.disconnect

/-! ### Step by step -/

/-- The steps of a course. What concerns neither the listener nor the session's flags is an aside. -/
inductive Trace (e₀ : Endpoint codec) : List Event → List Outbound → Endpoint codec → Prop
  | start : Trace e₀ [] e₀.session.queue e₀
  | call {past : List Event} {queued items : List Outbound} {e : Endpoint codec}
      (h : Trace e₀ past queued e) (c : Call)
      (hqueue : (e.call c).2.session.queue = e.session.queue ++ items) :
      Trace e₀ (past ++ [.called c (e.call c).1]) (queued ++ items) (e.call c).2
  | tell {past : List Event} {queued items : List Outbound} {e : Endpoint codec}
      (h : Trace e₀ past queued e) {notice : Notice} (hproper : notice.Proper)
      (hqueue : (e.tell notice).session.queue = e.session.queue ++ items) :
      Trace e₀ (past ++ [.told notice (e.react notice).session.view]) (queued ++ items)
        (e.tell notice)
  | aside {past : List Event} {queued : List Outbound} {e : Endpoint codec}
      (h : Trace e₀ past queued e) (queue : List Outbound) (reader : FrameReader codec)
      {pool : BufferPool} (hpool : e.pool.Reachable → pool.Reachable) :
      Trace e₀ past queued
        { e with session := { e.session with queue := queue }, reader := reader, pool := pool }
  | lose {past : List Event} {queued : List Outbound} {e : Endpoint codec}
      (h : Trace e₀ past queued e) : Trace e₀ (past ++ [.lost]) queued e.disconnect

section

variable {past : List Event} {queued : List Outbound}

theorem Trace.callAll (h : Trace e₀ past queued e) (during : Notice) (calls : List Call) :
    ∃ items, (e.callAll during calls).2.session.queue = e.session.queue ++ items ∧
      Trace e₀ (past ++ (e.callAll during calls).1.map Entry.event) (queued ++ items)
        (e.callAll during calls).2 := by
  induction calls generalizing e past queued with
  | nil => exact ⟨[], by simp [Endpoint.callAll], by simpa [Endpoint.callAll] using h⟩
  | cons c rest ih =>
      obtain ⟨items, hitems⟩ := (serves_call e c).queue
      obtain ⟨more, hmore, htrace⟩ := ih (h.call c hitems)
      refine ⟨items ++ more, ?_, ?_⟩
      · rw [← List.append_assoc, ← hitems]
        exact hmore
      · simpa [Endpoint.callAll, Entry.event] using htrace

theorem queue_tell (e : Endpoint codec) (notice : Notice) :
    ∃ items, (e.tell notice).session.queue = e.session.queue ++ items := by
  cases notice with
  | ping id =>
      by_cases heven : id.toNat % 2 = 0
      · obtain ⟨items, hitems⟩ := (serves_write e (.ping id)).queue
        exact ⟨items, by simpa [tell, react, heven] using hitems⟩
      · exact ⟨[], by simp [tell, react, heven]⟩
  | settings | goAway | frame | closed => exact ⟨[], by simp [tell, react]⟩

/-- A notice is a step, and the calls that the listener answers with come after it. -/
theorem Trace.notify (h : Trace e₀ past queued e) (listener : Listener) {notice : Notice}
    (hproper : notice.Proper) :
    ∃ items, ((e.react notice).notify listener notice).2.session.queue = e.session.queue ++ items ∧
      Trace e₀ (past ++ ((e.react notice).notify listener notice).1.map Entry.event)
        (queued ++ items) ((e.react notice).notify listener notice).2 := by
  obtain ⟨items, hitems⟩ := queue_tell e notice
  obtain ⟨more, hmore, htrace⟩ := (h.tell hproper hitems).callAll notice
    (listener notice (e.react notice).session.view)
  rw [notify_react]
  refine ⟨items ++ more, ?_, ?_⟩
  · rw [← List.append_assoc, ← hitems]
    exact hmore
  · simpa [Entry.event] using htrace

theorem Trace.receiveAll (h : Trace e₀ past queued e) (listener : Listener)
    (deliveries : List Delivery) :
    ∃ items, (e.receiveAll listener deliveries).2.session.queue = e.session.queue ++ items ∧
      Trace e₀ (past ++ (e.receiveAll listener deliveries).1.map Entry.event) (queued ++ items)
        (e.receiveAll listener deliveries).2 := by
  induction deliveries generalizing e past queued with
  | nil => exact ⟨[], by simp [Endpoint.receiveAll], by simpa [Endpoint.receiveAll] using h⟩
  | cons d rest ih =>
      obtain ⟨items, hitems, hfirst⟩ := h.notify listener d.frame.proper_notice
      rw [← receive_eq] at hitems hfirst
      obtain ⟨more, hmore, htrace⟩ := ih hfirst
      refine ⟨items ++ more, ?_, ?_⟩
      · rw [← List.append_assoc, ← hitems]
        exact hmore
      · simpa [Endpoint.receiveAll] using htrace

/-- Every course is a run of steps. -/
theorem Course.trace {t : History} (h : Course e₀ t e) : Trace e₀ t.events t.queued e := by
  induction h with
  | start => exact .start
  | @call t e h c ih =>
      obtain ⟨items, hitems⟩ := (serves_call e c).queue
      simp only [added_eq hitems]
      exact ih.call c hitems
  | @receive t e h listener d ih =>
      obtain ⟨items, hitems, htrace⟩ := ih.notify listener d.frame.proper_notice
      rw [← receive_eq] at hitems htrace
      simpa only [History.after, added_eq hitems] using htrace
  | @feed t e h listener bytes ih =>
      obtain ⟨items, hitems, htrace⟩ := (ih.aside e.session.queue (e.reader.feed bytes).2.2 id).receiveAll
        listener (e.reader.feed bytes).1
      have hqueue : (e.feed listener bytes).2.2.2.session.queue = e.session.queue ++ items := hitems
      simp only [History.after, added_eq hqueue]
      exact htrace
  | @connectionClosed t e h listener ih =>
      by_cases hclosed : e.session.closed = true
      · simpa [History.after, Endpoint.connectionClosed, hclosed, added] using ih
      · obtain ⟨items, hitems, htrace⟩ := ih.notify listener Notice.proper_closed
        have hend : e.connectionClosed listener = (e.react .closed).notify listener .closed := by
          simp [Endpoint.connectionClosed, hclosed, react]
        rw [← hend] at hitems htrace
        simpa only [History.after, added_eq hitems] using htrace
  | @take t e h item rest hqueue ih => exact ih.aside rest e.reader id
  | @usePool t e h u ih =>
      refine ih.aside e.session.queue e.reader fun hpool => ?_
      cases u with
      | borrow size => exact hpool.acquire size
      | giveBack buffer => exact hpool.release buffer
  | disconnect h ih => exact ih.lose

end

/-! ### One moment of the past -/

/-- One step: what happens, and what is put into the queue by it. -/
inductive Happens (e : Endpoint codec) : Event → List Outbound → Endpoint codec → Prop
  | called (c : Call) {items : List Outbound}
      (hqueue : (e.call c).2.session.queue = e.session.queue ++ items) :
      Happens e (.called c (e.call c).1) items (e.call c).2
  | told {notice : Notice} {items : List Outbound} (hproper : notice.Proper)
      (hqueue : (e.tell notice).session.queue = e.session.queue ++ items) :
      Happens e (.told notice (e.react notice).session.view) items (e.tell notice)
  | lost : Happens e .lost [] e.disconnect

/-- Whatever is remembered happened at some moment, after all that is remembered before it. -/
theorem Trace.moment {past before after : List Event} {queued : List Outbound} {event : Event}
    (h : Trace e₀ past queued e) (hpast : past = before ++ event :: after) :
    ∃ earlier items later e₁ e₂, queued = earlier ++ items ++ later ∧ Trace e₀ before earlier e₁ ∧
      Happens e₁ event items e₂ := by
  induction h generalizing after with
  | start => simp at hpast
  | @call past queued items e h c hqueue ih =>
      rcases cut_concat hpast with ⟨rfl, rfl⟩ | ⟨after', -, hbefore⟩
      · exact ⟨queued, items, [], e, _, (List.append_nil _).symm, h, .called c hqueue⟩
      · obtain ⟨earlier, items', later, e₁, e₂, rfl, htrace, hhappens⟩ := ih hbefore
        exact ⟨earlier, items', later ++ items, e₁, e₂, List.append_assoc _ _ _, htrace, hhappens⟩
  | @tell past queued items e h notice hproper hqueue ih =>
      rcases cut_concat hpast with ⟨rfl, rfl⟩ | ⟨after', -, hbefore⟩
      · exact ⟨queued, items, [], e, _, (List.append_nil _).symm, h, .told hproper hqueue⟩
      · obtain ⟨earlier, items', later, e₁, e₂, rfl, htrace, hhappens⟩ := ih hbefore
        exact ⟨earlier, items', later ++ items, e₁, e₂, List.append_assoc _ _ _, htrace, hhappens⟩
  | aside h queue reader hpool ih => exact ih hpast
  | @lose past queued e h ih =>
      rcases cut_concat hpast with ⟨rfl, rfl⟩ | ⟨after', -, hbefore⟩
      · exact ⟨queued, [], [], e, _, by simp, h, .lost⟩
      · exact ih hbefore

/-! ### What came in -/

theorem delivered_events (entries : List Entry) :
    (entries.map Entry.event).filterMap Event.delivered? =
      (entries.filterMap Entry.told?).filterMap Notice.delivered? := by
  rw [List.filterMap_map, List.filterMap_filterMap]
  refine List.filterMap_congr fun entry _ => ?_
  cases entry <;> simp [Entry.event, Entry.told?, Event.delivered?]

theorem inbound_after {t : History} {entries : List Entry} {frames : List Frame}
    (h : t.inbound = t.events.filterMap Event.delivered?)
    (hentries : (entries.filterMap Entry.told?).filterMap Notice.delivered? = frames) :
    (t.after e e' entries frames).inbound =
      (t.after e e' entries frames).events.filterMap Event.delivered? := by
  simp only [History.after, List.filterMap_append, delivered_events, hentries, h]

/-- The listener is told of the frames that came in, each once and in their order. -/
theorem Course.inbound_eq {t : History} (h : Course e₀ t e) :
    t.inbound = t.events.filterMap Event.delivered? := by
  induction h with
  | start => simp
  | call h c ih => simpa [List.filterMap_cons, Event.delivered?] using ih
  | receive h listener d ih =>
      refine inbound_after ih ?_
      rw [Connection.told_receive, List.filterMap_cons, Frame.delivered?_notice, List.filterMap_nil]
  | @feed t e h listener bytes ih =>
      have htold : (e.feed listener bytes).1.filterMap Entry.told? =
          (e.reader.feed bytes).1.map (·.frame.notice) :=
        Connection.told_receiveAll _ listener _
      refine inbound_after ih ?_
      rw [htold, List.filterMap_map, ← List.filterMap_eq_map]
      exact List.filterMap_congr fun d _ => Frame.delivered?_notice d.frame
  | @connectionClosed t e h listener ih =>
      refine inbound_after ih ?_
      by_cases hclosed : e.session.closed = true
      · simp [Endpoint.connectionClosed, hclosed]
      · have htold : (e.connectionClosed listener).1.filterMap Entry.told? = [.closed] := by
          simpa [Endpoint.connectionClosed, hclosed] using Connection.told_notify _ listener .closed
        simp [htold, Notice.delivered?]
  | take h hqueue ih => exact ih
  | usePool h u ih => exact ih
  | disconnect h ih => simpa [List.filterMap_cons, Event.delivered?] using ih

/-! ### What the history says -/

/-- An endpoint with a session as it is made. -/
structure IsNew (e : Endpoint codec) : Prop where
  pool : e.pool.Reachable
  queue : e.session.queue = []
  connected : e.session.connected = true
  nextPing : e.session.nextPing = 1
  goAwaySent : e.session.goAwaySent = false
  goAwayReceived : e.session.goAwayReceived = false
  closed : e.session.closed = false
  notices : e.session.notices = 0

theorem isNew_newSession (f : Factory codec) (a : Attempt codec) (reader : FrameReader codec)
    {pool : BufferPool} (hpool : pool.Reachable) :
    IsNew { session := f.newSession a, reader := reader, pool := pool } :=
  ⟨hpool, rfl, rfl, rfl, rfl, rfl, rfl, rfl⟩

/-- What happened while the connection took from the queue. -/
def beforeLoss (past : List Event) : List Event :=
  past.takeWhile (!·.isLoss)

/-- What an entry of the past says about the entries before it. -/
def Fits (before : List Event) : Event → Prop
  | .called .goAway reply => reply = .goAway (!before.any Event.isFarewell)
  | .told notice view => view.goAwaySent = before.any Event.isFarewell ∧
      view.goAwayReceived = (before ++ [Event.told notice view]).any Event.hearsFarewell ∧
      notice.Proper
  | _ => True

/-- The state of a session and all that it queued, from what happened. -/
structure Recorded (e₀ : Endpoint codec) (past : List Event) (queued : List Outbound)
    (e : Endpoint codec) : Prop where
  pool : e.pool.Reachable
  version : e.session.version = e₀.session.version
  connected : e.session.connected = !past.any Event.isLoss
  goAwaySent : e.session.goAwaySent = past.any Event.isFarewell
  goAwayReceived : e.session.goAwayReceived = past.any Event.hearsFarewell
  carried : List.Forall₂ (Outbound.Carries e₀.session.version)
    ((beforeLoss past).flatMap Event.queues) queued
  fits : EachFits Fits past

section

variable {past more : List Event} {queued items : List Outbound} {event : Event}

theorem not_any_isLoss : past.any Event.isLoss = false ↔ .lost ∉ past := by
  rw [List.any_eq_false]
  constructor
  · exact fun h hmem => h .lost hmem (by simp [Event.isLoss])
  · intro h event hevent hloss
    cases event with
    | lost => exact h hevent
    | told | called => simp [Event.isLoss] at hloss

theorem beforeLoss_of_none (h : past.any Event.isLoss = false) : beforeLoss past = past := by
  rw [beforeLoss, List.takeWhile_eq_self_iff]
  simpa using h

theorem beforeLoss_append (h : past.any Event.isLoss = true) :
    beforeLoss (past ++ more) = beforeLoss past := by
  induction past with
  | nil => simp at h
  | cons first rest ih =>
      by_cases hfirst : first.isLoss = true
      · simp [beforeLoss, hfirst]
      · simp only [List.any_cons, hfirst, Bool.false_or] at h
        have hrest := ih h
        simp only [beforeLoss] at hrest
        simp [beforeLoss, hfirst, hrest]

theorem beforeLoss_lost : beforeLoss (past ++ [.lost]) = beforeLoss past := by
  induction past with
  | nil => simp [beforeLoss, Event.isLoss]
  | cons first rest ih =>
      simp only [beforeLoss] at ih
      by_cases hfirst : first.isLoss = true <;> simp [beforeLoss, hfirst, ih]

theorem recorded_start (h : e₀.IsNew) : Recorded e₀ [] e₀.session.queue e₀ where
  pool := h.pool
  version := rfl
  connected := by simp [h.connected]
  goAwaySent := by simp [h.goAwaySent]
  goAwayReceived := by simp [h.goAwayReceived]
  carried := by simp [beforeLoss, h.queue]
  fits := eachFits_nil Fits

/-- A step queues what its event says, as long as the connection takes it. -/
theorem Recorded.step (h : Recorded e₀ past queued e) (hstep : e.Steps event e')
    (hqueue : e'.session.queue = e.session.queue ++ items) (hevent : event.isLoss = false)
    (hfits : Fits past event) : Recorded e₀ (past ++ [event]) (queued ++ items) e' := by
  obtain ⟨items', hqueue', hitems⟩ := hstep.queue
  have hsame : items' = items := List.append_cancel_left (hqueue'.symm.trans hqueue)
  rw [hsame, h.version, h.connected] at hitems
  refine
    { pool := hstep.pool
      version := hstep.version.trans h.version
      connected := ?_
      goAwaySent := ?_
      goAwayReceived := ?_
      carried := ?_
      fits := h.fits.concat hfits }
  · simp [hstep.connected, h.connected, hevent]
  · simp [hstep.goAwaySent, h.goAwaySent]
  · simp [hstep.goAwayReceived, h.goAwayReceived]
  · cases hlost : past.any Event.isLoss with
    | true =>
        rw [hlost] at hitems
        obtain rfl := List.forall₂_nil_left_iff.mp hitems
        rw [beforeLoss_append hlost, List.append_nil]
        exact h.carried
    | false =>
        have hnone : (past ++ [event]).any Event.isLoss = false := by simp [hlost, hevent]
        have hcarried := h.carried
        rw [beforeLoss_of_none hlost] at hcarried
        rw [hlost] at hitems
        rw [beforeLoss_of_none hnone, List.flatMap_append]
        exact List.rel_append hcarried (by simpa using hitems)

theorem Recorded.lose (h : Recorded e₀ past queued e) :
    Recorded e₀ (past ++ [.lost]) queued e.disconnect where
  pool := h.pool
  version := h.version
  connected := by simp [disconnect, Event.isLoss]
  goAwaySent := by simpa [disconnect, Event.isFarewell] using h.goAwaySent
  goAwayReceived := by simpa [disconnect, Event.hearsFarewell] using h.goAwayReceived
  carried := by simpa only [beforeLoss_lost] using h.carried
  fits := h.fits.concat trivial

theorem fst_goAway (e : Endpoint codec) : e.goAway.1 = !e.session.goAwaySent := by
  cases hsent : e.session.goAwaySent with
  | true => simp [goAway_of_sent hsent]
  | false => simp [goAway_of_not_sent hsent]

/-- The history of a new session says what it has queued. -/
theorem Trace.recorded (h : Trace e₀ past queued e) (hnew : e₀.IsNew) :
    Recorded e₀ past queued e := by
  induction h with
  | start => exact recorded_start hnew
  | @call past queued items e h c hqueue ih =>
      refine ih.step (steps_call e ih.pool c) hqueue (by simp [Event.isLoss]) ?_
      cases c with
      | goAway => simp [Fits, Endpoint.call, fst_goAway, ih.goAwaySent]
      | ping | settings | close => trivial
  | @tell past queued items e h notice hproper hqueue ih =>
      refine ih.step (steps_tell e ih.pool notice _) hqueue (by simp [Event.isLoss]) ?_
      have hreact := steps_react e ih.pool notice (e.react notice).session.view
      refine ⟨?_, ?_, hproper⟩
      · simpa [Session.view, ih.goAwaySent, Event.isFarewell] using hreact.goAwaySent
      · simpa [Session.view, ih.goAwayReceived] using hreact.goAwayReceived
  | aside h queue reader hpool ih => exact { ih with pool := hpool ih.pool }
  | lose h ih => exact ih.lose

end

end SpdySessions.Endpoint
