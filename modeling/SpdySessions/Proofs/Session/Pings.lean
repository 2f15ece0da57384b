import Mathlib.Data.List.Nodup
import SpdySessions.Proofs.Session.Moments

/-! The pings of a session. Those that it is called for get the odd numbers, one after the other, whether
they can be sent or not; at the end of the numbers they start over, and are odd still since there is an even
number of numbers. What comes in is answered when its number is even. So the two ends never take each
other's pings for their own, and an answer is not answered again. -/

namespace SpdySessions

open Session (Listener Notice Call Reply Event View)

namespace Session

/-! ### Numbers -/

/-- The number of the ping that is called for after so many others. -/
def pingNumber (k : Nat) : UInt32 :=
  UInt32.ofNat (1 + 2 * k)

theorem toNat_pingNumber (k : Nat) : (pingNumber k).toNat = (1 + 2 * k) % 0x100000000 :=
  UInt32.toNat_ofNat'

theorem pingNumber_odd (k : Nat) : (pingNumber k).toNat % 2 = 1 := by
  rw [toNat_pingNumber]
  omega

theorem pingNumber_succ (k : Nat) : pingNumber (k + 1) = pingNumber k + 2 := by
  have htwo : (2 : UInt32).toNat = 2 := rfl
  rw [← UInt32.toNat_inj, UInt32.toNat_add, toNat_pingNumber, toNat_pingNumber, htwo]
  omega

/-- A number comes again only after all the other odd ones. -/
theorem pingNumber_ne {i j : Nat} (hlater : i < j) (hnear : j < i + 0x80000000) :
    pingNumber i ≠ pingNumber j := by
  rw [Ne, ← UInt32.toNat_inj, toNat_pingNumber, toNat_pingNumber]
  omega

theorem nodup_pingNumbers (first : Nat) :
    ((List.range 0x80000000).map fun i => pingNumber (first + i)).Nodup := by
  refine List.Nodup.map_on (fun i hi j hj hsame => ?_) List.nodup_range
  rw [List.mem_range] at hi hj
  rcases Nat.lt_trichotomy i j with hlt | heq | hgt
  · exact absurd hsame (pingNumber_ne (by omega) (by omega))
  · exact heq
  · exact absurd hsame.symm (pingNumber_ne (by omega) (by omega))

namespace Event

def isPing : Event → Bool
  | called .ping _ => true
  | _ => false

/-- What is queued for a caller. -/
def asks : Event → List (Option Frame)
  | told _ _ => []
  | event => event.queues

end Event

end Session

open Session (pingNumber pingNumber_odd)

namespace Endpoint

variable {codec : HeaderCodec} {e₀ e : Endpoint codec} {past : List Event} {queued : List Outbound}

/-! ### What is counted -/

theorem nextPing_write (e : Endpoint codec) (f : Frame) :
    (e.write f).2.session.nextPing = e.session.nextPing := by
  rcases hwrite : e.session.writer.write e.pool e.session.version f with ⟨fault | buffer, writer, pool⟩
  · simp [write, hwrite]
  · simp [write, hwrite, enqueue_eq]

/-- A call of ping takes the next number, and no other call does. -/
theorem nextPing_call (e : Endpoint codec) (c : Call) :
    (e.call c).2.session.nextPing =
      if (Event.called c (e.call c).1).isPing then e.session.nextPing + 2
      else e.session.nextPing := by
  cases c with
  | ping =>
      exact nextPing_write { e with session := { e.session with nextPing := e.session.nextPing + 2 } }
        (.ping e.session.nextPing)
  | settings clear entries => exact nextPing_write e (.settings clear entries)
  | goAway =>
      cases hsent : e.session.goAwaySent with
      | true =>
          rw [call, goAway_of_sent hsent]
          rfl
      | false =>
          rw [call, goAway_of_not_sent hsent, enqueue_eq]
          exact nextPing_write { e with session := { e.session with goAwaySent := true } } (.goAway 0 0)
  | close => rfl

theorem nextPing_react (e : Endpoint codec) (notice : Notice) :
    (e.react notice).session.nextPing = e.session.nextPing := by
  cases notice with
  | ping id =>
      by_cases heven : id.toNat % 2 = 0
      · rw [react, if_pos heven]
        exact nextPing_write e (.ping id)
      · rw [react, if_neg heven]
  | settings | goAway | frame | closed => rfl

/-- The next number is known from how many pings were called for. -/
theorem Trace.nextPing (h : Trace e₀ past queued e) (hfirst : e₀.session.nextPing = 1) :
    e.session.nextPing = pingNumber (past.countP Event.isPing) := by
  induction h with
  | start => exact hfirst
  | @call past queued items e h c hqueue ih =>
      rw [nextPing_call, ih, List.countP_append, List.countP_singleton]
      split
      · exact (Session.pingNumber_succ _).symm
      · rfl
  | @tell past queued items e h notice hproper hqueue ih =>
      have hsame : (e.tell notice).session.nextPing = e.session.nextPing := nextPing_react e notice
      rw [hsame, ih, List.countP_append]
      rfl
  | aside h queue reader hpool ih => exact ih
  | lose h ih =>
      rw [List.countP_append]
      exact ih

/-! ### What is queued -/

theorem write_ping_of_lost (hlost : e.session.connected = false) (id : UInt32) :
    (e.write (.ping id)).1 = .error .connectionClosed ∧
      (e.write (.ping id)).2.session.queue = e.session.queue := by
  refine ⟨?_, (serves_write e (.ping id)).refused hlost⟩
  have hsize := (FrameWriter.isOk_write e.session.writer e.pool e.session.version (.ping id)).mpr
    (length_payload_ping _ _ id)
  rcases hwrite : e.session.writer.write e.pool e.session.version (.ping id) with
    ⟨fault | buffer, writer, pool⟩
  · rw [hwrite] at hsize
    cases hsize
  · simp [write, hwrite, enqueue, hlost]

/-- A call of ping uses a number: it is the next one, and is used up. The ping with this number is queued,
nothing else is, and the number is the answer; if the connection does not take from the queue any more,
the answer says so. -/
structure PingsWith (e : Endpoint codec) (id : UInt32) (items : List Outbound) : Prop where
  next : e.session.nextPing = id
  used : (e.call .ping).2.session.nextPing = id + 2
  queue : (e.call .ping).2.session.queue = e.session.queue ++ items
  sent : e.session.connected = true → (e.call .ping).1 = .ping (.ok id) ∧
    ∃ buffer, items = [.frame buffer] ∧ (Outbound.frame buffer).frames = [.ping id]
  refused : e.session.connected = false →
    (e.call .ping).1 = .ping (.error .connectionClosed) ∧ items = []

theorem pingsWith {items : List Outbound} (hpool : e.pool.Reachable)
    (hqueue : (e.call .ping).2.session.queue = e.session.queue ++ items) :
    e.PingsWith e.session.nextPing items := by
  let e₁ : Endpoint codec :=
    { e with session := { e.session with nextPing := e.session.nextPing + 2 } }
  have hanswer : (e.call .ping).1 =
      .ping ((e₁.write (.ping e.session.nextPing)).1.map fun _ => e.session.nextPing) := rfl
  have hwritten : (e₁.write (.ping e.session.nextPing)).2.session.queue = e₁.session.queue ++ items :=
    hqueue
  refine ⟨rfl, nextPing_call e .ping, hqueue, fun hconnected => ?_, fun hlost => ?_⟩
  · obtain ⟨buffer, hok, hitem, hframes⟩ := write_ping (e := e₁) hpool hconnected e.session.nextPing
    rw [hanswer, hok]
    exact ⟨rfl, buffer, List.append_cancel_left (hwritten.symm.trans hitem), hframes⟩
  · obtain ⟨herror, hsame⟩ := write_ping_of_lost (e := e₁) hlost e.session.nextPing
    rw [hanswer, herror]
    exact ⟨rfl, List.append_cancel_left ((hwritten.symm.trans hsame).trans (List.append_nil _).symm)⟩

/-- A ping comes in. What is queued for it is there before the listener is told: one ping with its number
if that is even and the connection takes from the queue, else nothing. An odd one changes nothing. -/
structure Meets (e : Endpoint codec) (id : UInt32) (view : View) (items : List Outbound) : Prop where
  told : ∃ seen : Endpoint codec,
    (∀ listener, e.receive listener (.ping id) = seen.notify listener (.ping id)) ∧
    seen.session.view = view ∧ seen.session.queue = e.session.queue ++ items ∧
    (id.toNat % 2 = 1 → seen = e)
  echoed : id.toNat % 2 = 0 → e.session.connected = true →
    ∃ buffer, items = [.frame buffer] ∧ (Outbound.frame buffer).frames = [.ping id]
  silent : id.toNat % 2 = 1 ∨ e.session.connected = false → items = []

theorem react_of_odd {id : UInt32} (hodd : id.toNat % 2 = 1) : e.react (.ping id) = e := by
  rw [react, if_neg (by omega)]

theorem meets {id : UInt32} {items : List Outbound} (hpool : e.pool.Reachable)
    (hqueue : (e.tell (.ping id)).session.queue = e.session.queue ++ items) :
    e.Meets id (e.react (.ping id)).session.view items := by
  have hreacted : (e.react (.ping id)).session.queue = e.session.queue ++ items := hqueue
  refine ⟨⟨_, fun listener => receive_eq e listener (.ping id), rfl, hreacted, react_of_odd⟩,
    fun heven hconnected => ?_, fun hnone => ?_⟩
  · obtain ⟨buffer, -, hitem, hframes⟩ := write_ping hpool hconnected id
    rw [react, if_pos heven, hitem] at hreacted
    exact ⟨buffer, (List.append_cancel_left hreacted).symm, hframes⟩
  · have hsame : (e.react (.ping id)).session.queue = e.session.queue := by
      by_cases hodd : id.toNat % 2 = 1
      · rw [react_of_odd hodd]
      · rw [react, if_pos (by omega)]
        exact (write_ping_of_lost (hnone.resolve_left hodd) id).2
    rw [hsame] at hreacted
    exact List.append_cancel_left (hreacted.symm.trans (List.append_nil _).symm)

theorem Recorded.connected_iff (h : Recorded e₀ past queued e) :
    e.session.connected = true ↔ .lost ∉ past := by
  rw [h.connected, Bool.not_eq_true', not_any_isLoss]

/-! ### A peer that returns pings -/

/-- A peer that sends no pings of its own: each that comes in was sent before. -/
def ReturnsOurs (past : List Event) : Prop :=
  EachFits (fun before event => ∀ id view, event = .told (.ping id) view →
    .called .ping (.ping (.ok id)) ∈ before) past

/-- The pings of a session have odd numbers. -/
theorem Trace.odd_of_called (h : Trace e₀ past queued e) (hnew : e₀.IsNew) {id : UInt32}
    (hcalled : .called .ping (.ping (.ok id)) ∈ past) : id.toNat % 2 = 1 := by
  obtain ⟨before, after, hpast⟩ := List.append_of_mem hcalled
  obtain ⟨earlier, items, later, e₁, e₂, -, htrace, hhappens⟩ := h.moment hpast
  generalize hreply : Reply.ping (.ok id) = reply at hhappens
  cases hhappens with
  | called c hqueue =>
      have hpings := pingsWith (htrace.recorded hnew).pool hqueue
      cases hconnected : e₁.session.connected with
      | true =>
          rw [(hpings.sent hconnected).1] at hreply
          injection hreply with hresult
          injection hresult with hid
          rw [hid, htrace.nextPing hnew.nextPing]
          exact pingNumber_odd _
      | false =>
          rw [(hpings.refused hconnected).1] at hreply
          injection hreply with hresult
          injection hresult

/-- If the peer only returns pings, what is queued is what callers asked for. -/
theorem Trace.queues_eq_asks (h : Trace e₀ past queued e) (hnew : e₀.IsNew)
    (hreturns : ReturnsOurs past) : ∀ event ∈ past, event.queues = event.asks := by
  intro event hevent
  obtain ⟨before, after, hpast⟩ := List.append_of_mem hevent
  cases event with
  | called | lost => rfl
  | told notice view =>
      cases notice with
      | settings | goAway | frame | closed => rfl
      | ping id =>
          have hcalled := hreturns before _ after hpast id view rfl
          have hodd := h.odd_of_called hnew (hpast ▸ List.mem_append_left _ hcalled)
          rw [Event.queues, if_neg (by omega), Event.asks]

/-- **The pings of a session are odd and distinct, and only those of the peer's are answered.** On every
course of a new session, with listeners that make any calls in any notice: the ping that is called for
after `k` others, whether these could be sent or not, has the number `1 + 2 * k`, counted round with 32
bits. It is odd, and `2 ^ 31` calls in a row get as many numbers. A ping that comes in with an even number
is answered by one ping with its number, which is queued before the listener is told, as long as the
connection takes from the queue; one with an odd number queues nothing. So if the peer does no more than
return pings that were sent to it, no matter when and how often, all that is ever queued was called for. -/
theorem pings_are_odd_and_distinct (hnew : e₀.IsNew) {t : History} (h : Course e₀ t e) :
    (∀ before reply after, t.events = before ++ .called .ping reply :: after →
      ∃ earlier items later e₁, t.queued = earlier ++ items ++ later ∧ Trace e₀ before earlier e₁ ∧
        reply = (e₁.call .ping).1 ∧ e₁.PingsWith (pingNumber (before.countP Event.isPing)) items ∧
        (e₁.session.connected = true ↔ .lost ∉ before)) ∧
    (∀ k, (pingNumber k).toNat = (1 + 2 * k) % 0x100000000 ∧ (pingNumber k).toNat % 2 = 1) ∧
    (∀ first, ((List.range 0x80000000).map fun i => pingNumber (first + i)).Nodup) ∧
    t.inbound = t.events.filterMap Event.delivered? ∧
    (∀ before id view after, t.events = before ++ .told (.ping id) view :: after →
      ∃ earlier items later e₁, t.queued = earlier ++ items ++ later ∧ Trace e₀ before earlier e₁ ∧
        e₁.Meets id view items ∧ (e₁.session.connected = true ↔ .lost ∉ before)) ∧
    (ReturnsOurs t.events → List.Forall₂ (Outbound.Carries e₀.session.version)
      ((beforeLoss t.events).flatMap Event.asks) t.queued) := by
  refine ⟨fun before reply after hpast => ?_,
    fun k => ⟨Session.toNat_pingNumber k, pingNumber_odd k⟩, Session.nodup_pingNumbers, h.inbound_eq,
    fun before id view after hpast => ?_, fun hreturns => ?_⟩
  · obtain ⟨earlier, items, later, e₁, e₂, hqueued, htrace, hhappens⟩ := h.trace.moment hpast
    cases hhappens with
    | called c hqueue =>
        have hrecorded := htrace.recorded hnew
        refine ⟨earlier, items, later, e₁, hqueued, htrace, rfl, ?_, hrecorded.connected_iff⟩
        rw [← htrace.nextPing hnew.nextPing]
        exact pingsWith hrecorded.pool hqueue
  · obtain ⟨earlier, items, later, e₁, e₂, hqueued, htrace, hhappens⟩ := h.trace.moment hpast
    cases hhappens with
    | told hproper hqueue =>
        have hrecorded := htrace.recorded hnew
        exact ⟨earlier, items, later, e₁, hqueued, htrace, meets hrecorded.pool hqueue,
          hrecorded.connected_iff⟩
  · have hrecorded := h.trace.recorded hnew
    have hsame : (beforeLoss t.events).flatMap Event.asks =
        (beforeLoss t.events).flatMap Event.queues := by
      refine List.flatMap_congr fun event hevent => ?_
      exact (h.trace.queues_eq_asks hnew hreturns event (List.takeWhile_subset _ hevent)).symm
    rw [hsame]
    exact hrecorded.carried

/-- The first ping of a session comes back; then the connection is lost, and the second one fails. -/
theorem newcomer_pings :
    ∃ t e earlier later, ∃ e₁ : Endpoint .identity, newcomer.IsNew ∧ Course newcomer t e ∧
      t.inbound = [.ping 1] ∧ List.Forall₂ (Outbound.Carries .v2) [some (.ping 1)] t.queued ∧
      t.queued = earlier ++ [] ++ later ∧ e₁.PingsWith 3 [] := by
  have hstart : Course newcomer _ newcomer := .start
  have hcourse : ∃ view queued e, Course newcomer
      ⟨[.called .ping (.ping (.ok 1)), .told (.ping 1) view, .lost,
        .called .ping (.ping (.error .connectionClosed))], [.ping 1], queued⟩ e :=
    ⟨_, _, _, ((hstart.call .ping).receive .silent ⟨some .v2, .ping 1⟩).disconnect.call .ping⟩
  obtain ⟨view, queued, e, hcourse⟩ := hcourse
  obtain ⟨hcalled, -, -, -, -, hqueued⟩ := pings_are_odd_and_distinct isNew_newcomer hcourse
  obtain ⟨earlier, items, later, e₁, hitems, -, -, hpings, hconnected⟩ :=
    hcalled [.called .ping (.ping (.ok 1)), .told (.ping 1) view, .lost] _ [] rfl
  have hlost : e₁.session.connected = false :=
    Bool.eq_false_iff.mpr fun hset => hconnected.mp hset (by simp)
  obtain ⟨-, rfl⟩ := hpings.refused hlost
  have hreturns : ReturnsOurs [.called .ping (.ping (.ok 1)), .told (.ping 1) view, .lost,
      .called .ping (.ping (.error .connectionClosed))] := by
    refine ((((eachFits_nil _).concat ?_).concat ?_).concat ?_).concat ?_
    · rintro id view' ⟨⟩
    · rintro id view' ⟨⟩
      exact List.mem_cons_self
    · rintro id view' ⟨⟩
    · rintro id view' ⟨⟩
  exact ⟨_, e, earlier, later, e₁, isNew_newcomer, hcourse, rfl, hqueued hreturns, hitems, hpings⟩

end Endpoint

end SpdySessions
