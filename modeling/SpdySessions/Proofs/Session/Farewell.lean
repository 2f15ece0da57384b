import SpdySessions.Proofs.Session.Queue

/-! A session says farewell once. The first call that asks for it sets the flag before anything is
written, so whatever happens in between, from whatever place, every later call finds it said. What the
queue got of it depends only on whether the connection still took from the queue at that call. -/

namespace SpdySessions

open Session (Listener Notice Call Reply Entry Event)

namespace Outbound

/-- The frames that a reader finds in an item of a queue. -/
def frames : Outbound → List Frame
  | frame buffer => ((FrameReader.fresh .identity).feed buffer.content).1.map Delivery.frame
  | close => []

def IsGoAway (item : Outbound) : Prop :=
  ∃ lastGoodStream status, .goAway lastGoodStream status ∈ item.frames

/-- A farewell, or the wish to end that goes with it. -/
def IsFarewell (item : Outbound) : Prop :=
  item = .close ∨ item.IsGoAway

section

variable {v : Version} {message : Option Frame} {f : Frame} {item : Outbound}
  {messages : List (Option Frame)} {items : List Outbound}

theorem frames_of_carries (h : Carries v (some f) item) : item.frames = [f.arrival v] := by
  obtain ⟨buffer, rfl, hframe, hreads⟩ := h
  have hall : Grammar.ReadsAll HeaderCodec.identity.decompressor [buffer.content]
      [Delivery.arrival v f] HeaderCodec.identity.decompressor :=
    .cons (hreads .identity _) (.nil _)
  have hscan := hall.scan_eq (by simpa using hframe) (show FrameReader.cut? [] = none from rfl)
  rw [List.flatten_cons, List.flatten_nil, List.append_nil, List.append_nil] at hscan
  simp only [frames, FrameReader.feed, FrameReader.fresh, List.nil_append, hscan, List.map_cons,
    List.map_nil, Delivery.arrival]

/-- Among the items of a session's queue only a farewell reads as one. -/
theorem isFarewell_iff (h : Carries v message item) :
    item.IsFarewell ↔ message = none ∨ ∃ lastGoodStream status,
      message = some (.goAway lastGoodStream status) := by
  cases message with
  | none =>
      obtain rfl : item = .close := h
      simp [IsFarewell]
  | some f =>
      have hframes := frames_of_carries h
      obtain ⟨buffer, rfl, -⟩ := h
      simp only [IsFarewell, IsGoAway, hframes, reduceCtorEq, false_or, Option.some.injEq,
        List.mem_singleton]
      cases f with
      | goAway lastGoodStream status => exact ⟨fun _ => ⟨_, _, rfl⟩, fun _ => ⟨_, _, rfl⟩⟩
      | settings | ping | headers | windowUpdate | data | unknown => simp [Frame.arrival]

theorem not_isFarewell_of_carries (h : List.Forall₂ (Carries v) messages items)
    (hnone : ∀ message ∈ messages, message ≠ none ∧
      ∀ lastGoodStream status, message ≠ some (.goAway lastGoodStream status)) :
    ∀ item ∈ items, ¬item.IsFarewell := by
  induction h with
  | nil => simp
  | cons hfirst hrest ih =>
      obtain ⟨⟨hclose, hgoAway⟩, hlater⟩ := List.forall_mem_cons.mp hnone
      refine List.forall_mem_cons.mpr ⟨fun hfarewell => ?_, ih hlater⟩
      rcases (isFarewell_iff hfirst).mp hfarewell with rfl | ⟨lastGoodStream, status, rfl⟩
      · exact hclose rfl
      · exact hgoAway _ _ rfl

end

end Outbound

theorem forall₂_append_left {α β : Type} {r : α → β → Prop} {xs ys : List α} {zs : List β}
    (h : List.Forall₂ r (xs ++ ys) zs) :
    ∃ front rest, zs = front ++ rest ∧ List.Forall₂ r xs front ∧ List.Forall₂ r ys rest := by
  have hflip : List.Forall₂ (flip r) zs (xs ++ ys) := h.flip
  refine ⟨zs.take xs.length, zs.drop xs.length, (List.take_append_drop _ _).symm, ?_, ?_⟩
  · exact (List.forall₂_take_append zs xs ys hflip).flip
  · exact (List.forall₂_drop_append zs xs ys hflip).flip

namespace Endpoint

variable {codec : HeaderCodec} {e₀ e : Endpoint codec} {t : History} {past before after : List Event}

theorem not_farewell_of_queues {event : Event} (h : event.closes = false) :
    ∀ message ∈ event.queues, message ≠ none ∧
      ∀ lastGoodStream status, message ≠ some (.goAway lastGoodStream status) := by
  unfold Event.queues
  split
  · split <;> simp
  · simp
  · simp
  · simp [Event.closes] at h
  · simp

theorem beforeLoss_append_of_none (h : before.any Event.isLoss = false) :
    beforeLoss (before ++ after) = before ++ beforeLoss after := by
  rw [beforeLoss, List.takeWhile_append_of_pos, beforeLoss]
  simpa using h

theorem mem_of_mem_beforeLoss {event : Event} (h : event ∈ beforeLoss past) : event ∈ past :=
  (List.takeWhile_prefix _).subset h

/-- Where nobody says farewell, the queue gets none. -/
theorem not_farewell_of_not_closes {queued : List Outbound} {v : Version}
    (h : List.Forall₂ (Outbound.Carries v) ((beforeLoss past).flatMap Event.queues) queued)
    (hnone : ∀ event ∈ past, event.closes = false) : ∀ item ∈ queued, ¬item.IsFarewell := by
  refine Outbound.not_isFarewell_of_carries h fun message hmessage => ?_
  obtain ⟨event, hevent, hmem⟩ := List.mem_flatMap.mp hmessage
  exact not_farewell_of_queues (hnone event (mem_of_mem_beforeLoss hevent)) message hmem

theorem isFarewell_event {event : Event} :
    event.isFarewell = true ↔ ∃ reply, event = .called .goAway reply := by
  cases event with
  | called call reply => cases call <;> simp [Event.isFarewell]
  | told | lost => simp [Event.isFarewell]

theorem any_isFarewell : past.any Event.isFarewell = true ↔ ∃ reply, .called .goAway reply ∈ past := by
  rw [List.any_eq_true]
  constructor
  · rintro ⟨event, hevent, hfarewell⟩
    obtain ⟨reply, rfl⟩ := isFarewell_event.mp hfarewell
    exact ⟨reply, hevent⟩
  · rintro ⟨reply, hevent⟩
    exact ⟨_, hevent, by simp [Event.isFarewell]⟩

theorem not_closes_of_not_any (h : past.any Event.isFarewell = false) :
    ∀ event ∈ past, event.closes = false := by
  intro event hevent
  by_contra hcloses
  obtain rfl := closes_iff.mp (Bool.not_eq_false _ ▸ hcloses)
  rw [List.any_eq_false] at h
  exact h _ hevent (by simp [Event.isFarewell])

/-- Once a farewell was said, none is the first any more. -/
theorem not_closes_after {reply : Reply} (h : EachFits Fits past)
    (hpast : past = before ++ .called .goAway reply :: after) :
    ∀ event ∈ after, event.closes = false := by
  intro event hevent
  by_contra hcloses
  obtain rfl := closes_iff.mp (Bool.not_eq_false _ ▸ hcloses)
  obtain ⟨between, rest, -, hpast'⟩ := cut_after hpast hevent
  have hfits : Reply.goAway true = .goAway (!(before ++ .called .goAway reply :: between).any _) :=
    h _ _ rest hpast'
  simp [Event.isFarewell] at hfits

theorem any_hearsFarewell (h : EachFits Fits past) :
    past.any Event.hearsFarewell = true ↔
      ∃ lastGoodStream status, .goAway lastGoodStream status ∈ past.filterMap Event.delivered? := by
  simp only [List.any_eq_true, List.mem_filterMap]
  constructor
  · rintro ⟨event, hevent, hhears⟩
    cases event with
    | told notice view =>
        cases notice with
        | goAway lastGoodStream status =>
            exact ⟨lastGoodStream, status, _, hevent, by simp [Event.delivered?, Notice.delivered?]⟩
        | settings | ping | frame | closed => simp [Event.hearsFarewell] at hhears
    | called | lost => simp [Event.hearsFarewell] at hhears
  · rintro ⟨lastGoodStream, status, event, hevent, hdelivered⟩
    refine ⟨event, hevent, ?_⟩
    cases event with
    | told notice view =>
        obtain ⟨before, after, hpast⟩ := List.append_of_mem hevent
        obtain ⟨-, -, hproper⟩ := h before _ after hpast
        obtain rfl := hproper _ hdelivered
        simp [Frame.notice, Event.hearsFarewell]
    | called | lost => simp [Event.delivered?] at hdelivered

/-- What the queue gets of the first farewell. -/
theorem Recorded.farewell {queued : List Outbound} {reply : Reply} (h : Recorded e₀ past queued e)
    (hpast : past = before ++ .called .goAway reply :: after)
    (hfirst : before.any Event.isFarewell = false) :
    (before.any Event.isLoss = false → ∃ front goAway rest,
      queued = front ++ goAway :: .close :: rest ∧ goAway.frames = [.goAway 0 0] ∧
        ∀ item ∈ front ++ rest, ¬item.IsFarewell) ∧
    (before.any Event.isLoss = true → ∀ item ∈ queued, ¬item.IsFarewell) := by
  have hcarried := h.carried
  have hnone := not_closes_of_not_any hfirst
  refine ⟨fun halive => ?_, fun hlost => ?_⟩
  · have hreply : reply = .goAway true := by
      have hfits : reply = .goAway (!before.any Event.isFarewell) := h.fits before _ after hpast
      simpa [hfirst] using hfits
    have hafter : beforeLoss (.called .goAway reply :: after) =
        .called .goAway reply :: beforeLoss after := by
      simp [beforeLoss, Event.isLoss]
    rw [hpast, beforeLoss_append_of_none halive, hafter, hreply, List.flatMap_append,
      List.flatMap_cons] at hcarried
    obtain ⟨front, later, rfl, hfront, hlater⟩ := forall₂_append_left hcarried
    obtain ⟨said, rest, rfl, hsaid, hrest⟩ := forall₂_append_left hlater
    simp only [Event.queues, List.forall₂_cons_left_iff, List.forall₂_nil_left_iff] at hsaid
    obtain ⟨goAway, -, hgoAway, ⟨last, -, hlast, rfl, rfl⟩, rfl⟩ := hsaid
    obtain rfl : last = .close := hlast
    refine ⟨front, goAway, rest, rfl, ?_, List.forall_mem_append.mpr ⟨?_, ?_⟩⟩
    · rw [Outbound.frames_of_carries hgoAway]
      cases e₀.session.version <;> rfl
    · rw [← beforeLoss_of_none halive] at hfront
      exact not_farewell_of_not_closes hfront hnone
    · exact not_farewell_of_not_closes hrest (not_closes_after h.fits hpast)
  · rw [hpast, beforeLoss_append hlost] at hcarried
    exact not_farewell_of_not_closes hcarried hnone

/-- What is queued while nobody says farewell is none. -/
theorem Recorded.not_farewell_added {queued items : List Outbound} {more : List Event}
    {e' : Endpoint codec} (h : Recorded e₀ past queued e)
    (h' : Recorded e₀ (past ++ more) (queued ++ items) e') (hnone : more.any Event.isFarewell = false) :
    ∀ item ∈ items, ¬item.IsFarewell := by
  cases hlost : past.any Event.isLoss with
  | true =>
      have hcarried := h'.carried
      rw [beforeLoss_append hlost] at hcarried
      have hlength := h.carried.length_eq.symm.trans hcarried.length_eq
      obtain rfl : items = [] := by simpa using hlength
      simp
  | false =>
      have hcarried := h'.carried
      rw [beforeLoss_append_of_none hlost, List.flatMap_append] at hcarried
      obtain ⟨front, rest, hqueued, hfront, hrest⟩ := forall₂_append_left hcarried
      have hbefore := h.carried
      rw [beforeLoss_of_none hlost] at hbefore
      have hlength := hbefore.length_eq.symm.trans hfront.length_eq
      obtain ⟨rfl, rfl⟩ := List.append_inj hqueued hlength
      exact not_farewell_of_not_closes hrest (not_closes_of_not_any hnone)

theorem any_isFarewell_entries {entries : List Entry}
    (h : ∀ during reply, .called during .goAway reply ∉ entries) :
    (entries.map Entry.event).any Event.isFarewell = false := by
  rw [List.any_map, List.any_eq_false]
  intro entry hentry hfarewell
  obtain ⟨reply, hevent⟩ := isFarewell_event.mp hfarewell
  cases entry with
  | told notice view => simp [Entry.event] at hevent
  | called during call reply' =>
      simp only [Entry.event, Event.called.injEq] at hevent
      obtain ⟨rfl, rfl⟩ := hevent
      exact h during reply' hentry

/-- **Farewell is said once.** On every course of a new session: the first call that says farewell
answers true and every later one false, from wherever it is made. If the connection took from the
queue at the first one, the queue has got one farewell and right behind it the one wish to end; if it
did not, or if nobody says farewell, it has got neither. Farewell counts as sent from the first such
call on, and as received from the first farewell that comes in, for whoever looks and in every notice.
What comes in queues none of it, unless the listener says farewell. -/
theorem farewell_is_said_once (hnew : e₀.IsNew) (h : Course e₀ t e) :
    (∀ before reply after, t.events = before ++ .called .goAway reply :: after →
      (∃ first, reply = .goAway first ∧ (first = true ↔ ∀ earlier, .called .goAway earlier ∉ before)) ∧
      ((∀ earlier, .called .goAway earlier ∉ before) →
        (.lost ∉ before → ∃ front goAway rest, t.queued = front ++ goAway :: .close :: rest ∧
          goAway.frames = [.goAway 0 0] ∧ ∀ item ∈ front ++ rest, ¬item.IsFarewell) ∧
        (.lost ∈ before → ∀ item ∈ t.queued, ¬item.IsFarewell))) ∧
    ((∀ reply, .called .goAway reply ∉ t.events) → ∀ item ∈ t.queued, ¬item.IsFarewell) ∧
    (e.session.goAwaySent = true ↔ ∃ reply, .called .goAway reply ∈ t.events) ∧
    (e.session.goAwayReceived = true ↔
      ∃ lastGoodStream status, .goAway lastGoodStream status ∈ t.inbound) ∧
    (∀ before notice view after, t.events = before ++ .told notice view :: after →
      (view.goAwaySent = true ↔ ∃ reply, .called .goAway reply ∈ before) ∧
      (view.goAwayReceived = true ↔ ∃ lastGoodStream status, .goAway lastGoodStream status ∈
        (before ++ [.told notice view]).filterMap Event.delivered?)) ∧
    (∀ listener (d : Delivery),
      (∀ during reply, .called during .goAway reply ∉ (e.receive listener d.frame).1) →
      ∀ item ∈ added e (e.receive listener d.frame).2, ¬item.IsFarewell) ∧
    (∀ listener bytes, (∀ during reply, .called during .goAway reply ∉ (e.feed listener bytes).1) →
      ∀ item ∈ added e (e.feed listener bytes).2.2.2, ¬item.IsFarewell) := by
  have hrecorded := h.trace.recorded hnew
  have hsaid : ∀ past : List Event, past.any Event.isFarewell = false ↔
      ∀ reply, .called .goAway reply ∉ past := fun past => by
    rw [← not_exists, ← any_isFarewell, Bool.not_eq_true]
  refine ⟨fun before reply after hpast => ⟨?_, fun hfirst => ?_⟩, fun hnone => ?_, ?_, ?_,
    fun before notice view after hpast => ?_, fun listener d hnone => ?_, fun listener bytes hnone => ?_⟩
  · have hfits : reply = .goAway (!before.any Event.isFarewell) := hrecorded.fits before _ after hpast
    refine ⟨!before.any Event.isFarewell, hfits, ?_⟩
    rw [Bool.not_eq_true', hsaid]
  · obtain ⟨hqueued, hlost⟩ := hrecorded.farewell hpast ((hsaid before).mpr hfirst)
    refine ⟨fun halive => hqueued (not_any_isLoss.mpr halive), fun hmem => hlost ?_⟩
    exact List.any_eq_true.mpr ⟨.lost, hmem, by simp [Event.isLoss]⟩
  · exact not_farewell_of_not_closes hrecorded.carried
      (not_closes_of_not_any ((hsaid t.events).mpr hnone))
  · rw [hrecorded.goAwaySent, any_isFarewell]
  · rw [hrecorded.goAwayReceived, any_hearsFarewell hrecorded.fits, h.inbound_eq]
  · obtain ⟨hsent, hreceived, -⟩ := hrecorded.fits before _ after hpast
    have hsplit : t.events = (before ++ [.told notice view]) ++ after := by simp [hpast]
    have hfits : EachFits Fits (before ++ [.told notice view]) := (hsplit ▸ hrecorded.fits).left
    rw [hsent, any_isFarewell, hreceived, any_hearsFarewell hfits]
    exact ⟨Iff.rfl, Iff.rfl⟩
  · have hlater := (h.receive listener d).trace.recorded hnew
    exact hrecorded.not_farewell_added hlater (any_isFarewell_entries hnone)
  · have hlater := (h.feed listener bytes).trace.recorded hnew
    exact hrecorded.not_farewell_added hlater (any_isFarewell_entries hnone)

/-- A listener that answers a farewell with one. -/
def polite : Listener
  | .goAway _ _, _ => [.goAway]
  | _, _ => []

/-- The farewell is said in answer to the peer's; twice more it is asked for, the last time when nobody
takes from the queue any more. -/
theorem newcomer_farewell_is_said_once :
    ∃ t e, newcomer.IsNew ∧ Course newcomer t e ∧ t.events.countP Event.isFarewell = 3 ∧
      e.session.goAwaySent = true ∧ e.session.goAwayReceived = true ∧
      ∃ front goAway rest, t.queued = front ++ goAway :: .close :: rest ∧
        goAway.frames = [.goAway 0 0] ∧ ∀ item ∈ front ++ rest, ¬item.IsFarewell := by
  have hstart : Course newcomer _ newcomer := .start
  have hanswered := hstart.receive polite ⟨some .v2, .goAway 0 0⟩
  have hcourse := ((hanswered.call .goAway).disconnect).call .goAway
  obtain ⟨hsaid, -, hsent, hreceived, -⟩ := farewell_is_said_once isNew_newcomer hcourse
  obtain ⟨-, hqueued⟩ := hsaid [.told (.goAway 0 0) _] (.goAway true) _ rfl
  exact ⟨_, _, isNew_newcomer, hcourse, rfl, hsent.mpr ⟨.goAway true, .tail _ (.head _)⟩,
    hreceived.mpr ⟨0, 0, .head _⟩, (hqueued (by simp)).1 (by simp)⟩

end Endpoint

end SpdySessions
