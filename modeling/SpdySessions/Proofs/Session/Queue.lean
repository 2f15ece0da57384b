import Mathlib.Data.List.ReduceOption
import SpdySessions.Proofs.Session.History

/-! A session queues what it did. Each item of the queue carries what one answered call or one echoed
ping says, in order, so a peer that reads the bytes of all of them has the history of the session in
front of it. The pool hands out empty buffers, whatever was in them before, and a frame that cannot be
written leaves nothing behind; the rest is the induction over the items. -/

namespace SpdySessions

open Session (Event Reply)

/-- A call that says farewell for the first time. -/
def Session.Event.closes : Event → Bool
  | .called .goAway (.goAway true) => true
  | _ => false

/-- The frames that were sent when all this happened. -/
def Endpoint.sent (past : List Event) : List Frame :=
  (past.flatMap Event.queues).reduceOption

namespace Outbound

variable {v : Version} {messages : List (Option Frame)} {items : List Outbound}

/-- The bytes of the items are the frames that they carry. -/
theorem readsAll_of_carries (h : List.Forall₂ (Carries v) messages items) {codec : HeaderCodec}
    (d : codec.Decompressor) :
    (∀ w ∈ (items.filterMap frame?).map Buffer.content, Grammar.IsFrame w) ∧
      Grammar.ReadsAll d ((items.filterMap frame?).map Buffer.content)
        (messages.reduceOption.map (Delivery.arrival v)) d := by
  induction h with
  | nil => exact ⟨by simp, .nil d⟩
  | @cons message item messages items hfirst hrest ih =>
      obtain ⟨hframes, hall⟩ := ih
      cases message with
      | none =>
          obtain rfl : item = .close := hfirst
          rw [List.filterMap_cons_none (show frame? .close = none from rfl), List.reduceOption_cons_of_none]
          exact ⟨hframes, hall⟩
      | some f =>
          obtain ⟨buffer, rfl, hframe, hreads⟩ := hfirst
          rw [List.filterMap_cons_some (show frame? (.frame buffer) = some buffer from rfl),
            List.reduceOption_cons_of_some, List.map_cons, List.map_cons]
          exact ⟨List.forall_mem_cons.mpr ⟨hframe, hframes⟩, .cons (hreads codec d) hall⟩

theorem count_close_of_carries (h : List.Forall₂ (Carries v) messages items) :
    items.count .close = messages.count none := by
  induction h with
  | nil => simp
  | @cons message item messages items hfirst hrest ih =>
      cases message with
      | none =>
          obtain rfl : item = .close := hfirst
          simp [ih]
      | some f =>
          obtain ⟨buffer, rfl, -⟩ := hfirst
          simp [ih]

theorem length_frames_of_carries (h : List.Forall₂ (Carries v) messages items) :
    (items.filterMap frame?).length = messages.reduceOption.length := by
  have hall := (readsAll_of_carries h (HeaderCodec.identity.decompressor)).2.length_eq
  simpa using hall.symm

end Outbound

namespace Endpoint

variable {codec : HeaderCodec} {e₀ e : Endpoint codec} {t : History}

theorem count_none_queues (past : List Event) :
    (past.flatMap Event.queues).count none = past.countP Event.closes := by
  induction past with
  | nil => simp
  | cons first rest ih =>
      have hfirst : first.queues.count none = if first.closes then 1 else 0 := by
        unfold Event.queues Event.closes
        split <;> simp
        split <;> simp
      rw [List.flatMap_cons, List.count_append, hfirst, ih, List.countP_cons, Nat.add_comm]

theorem closes_iff {event : Event} : event.closes = true ↔ event = .called .goAway (.goAway true) := by
  constructor
  · intro h
    unfold Event.closes at h
    split at h
    · rfl
    · simp at h
  · rintro rfl
    simp [Event.closes]

/-- A farewell is said for the first time once at most. -/
theorem countP_closes_le_one {past : List Event} (h : EachFits Fits past) :
    past.countP Event.closes ≤ 1 := by
  refine countP_le_one fun before event after hpast hcloses other hother hother' => ?_
  obtain rfl := closes_iff.mp hcloses
  obtain rfl := closes_iff.mp hother'
  have hfits : Reply.goAway true = .goAway (!before.any Event.isFarewell) := h before _ after hpast
  have hnone : before.any Event.isFarewell = false := by simpa using hfits
  rw [List.any_eq_false] at hnone
  exact hnone _ hother (by simp [Event.isFarewell])

/-- **What a session queues is exactly what it did, as the peer reads it.** On every course of a new
session whose connection takes from the queue, with listeners that make any calls in any notice: the
bytes of all frames ever queued, in any chunks, are read by a fresh reader of any codec without a
fault and with nothing pending, as exactly the frames of the calls that succeeded and of the peer's
pings that came in, in the order in which they happened, each in the version of the session. The
listener was told of the frames that came in, each once and in order. Besides those frames the queue
got one wish to end for the farewell that was the first one, if there was one, and nothing else. -/
theorem queued_is_what_was_done (hnew : e₀.IsNew) (h : Course e₀ t e) (halive : .lost ∉ t.events) :
    (∀ (codec' : HeaderCodec) (listeners : Nat) (chunks : List Bytes),
      chunks.flatten = Outbound.bytes t.queued →
      (FrameReader.fresh codec').parseAll listeners chunks =
        (.ok (sent t.events).length,
          ((sent t.events).map (Delivery.arrival e₀.session.version)).flatMap fun x =>
            (List.range listeners).map fun i => (i, x),
          .fresh codec')) ∧
    t.inbound = t.events.filterMap Event.delivered? ∧
    (t.queued.filterMap Outbound.frame?).length = (sent t.events).length ∧
    t.queued.count .close = t.events.countP Event.closes ∧ t.events.countP Event.closes ≤ 1 := by
  have hrecorded := h.trace.recorded hnew
  have hlost : t.events.any Event.isLoss = false := not_any_isLoss.mpr halive
  have hcarried := hrecorded.carried
  rw [beforeLoss_of_none hlost] at hcarried
  refine ⟨fun codec' listeners chunks hchunks => ?_, h.inbound_eq,
    Outbound.length_frames_of_carries hcarried, ?_, countP_closes_le_one hrecorded.fits⟩
  · obtain ⟨hframes, hall⟩ := Outbound.readsAll_of_carries hcarried codec'.decompressor
    have hsettled : (FrameReader.fresh codec').Settled := rfl
    have hscan := hall.scan_eq hframes (show FrameReader.cut? [] = none from rfl)
    have hbytes : chunks.flatten =
        ((t.queued.filterMap Outbound.frame?).map Buffer.content).flatten := by
      rw [hchunks, Outbound.bytes, List.flatMap_def]
    rw [List.append_nil, ← hbytes] at hscan
    rw [hsettled.parseAll_eq, FrameReader.parse_of_scan listeners hscan, List.length_map]
    rfl
  · rw [Outbound.count_close_of_carries hcarried, count_none_queues]

/-- A new session of version 2, with a pool that has an old buffer in it. -/
def newcomer : Endpoint .identity where
  session :=
    { id := 1, version := .v2, window := Session.defaultWindow, idleTimeout := .zero
      remote := ⟨.v4 127 0 0 1, 6121, 0⟩
      secure := false, writer := .fresh .identity }
  reader := .fresh .identity
  pool := BufferPool.release ⟨16, 4, []⟩ ⟨[1, 2, 3], 64⟩

/-- It is what a factory makes for an attempt whose socket is connected. -/
theorem isNew_newcomer : newcomer.IsNew :=
  let peer : Address := ⟨.v4 127 0 0 1, 6121, 0⟩
  isNew_newSession { clients := [{ version := .v2 }] } { channel := ⟨0, peer, true⟩, client := 0, run := 0 }
    (.fresh .identity) (.release (.empty 16 4) _)

/-- A listener that answers a ping with a ping and settings. -/
def talkative : Session.Listener
  | .ping _, _ => [.ping, .settings true [⟨0x02000007, 1, 9⟩]]
  | _, _ => []

/-- The bytes of an echo, a ping, settings and a farewell, cut inside the header of the second frame. -/
def overheard : List Bytes :=
  [[128, 2, 0, 6, 0, 0, 0, 4, 0, 0, 0, 4, 128, 2, 0, 6, 0, 0],
    [0, 4, 0, 0, 0, 1, 128, 2, 0, 4, 1, 0, 0, 12, 0, 0, 0, 1, 7, 0, 0, 1, 0, 0, 0, 9,
      128, 2, 0, 7, 0, 0, 0, 4, 0, 0, 0, 0]]

/-- A ping of the peer's comes in, in version 3. The buffer of the echo is given back before the
farewell, which is written into it. -/
theorem newcomer_queued_what_was_done :
    ∃ t e, newcomer.IsNew ∧ Course newcomer t e ∧ .lost ∉ t.events ∧
      overheard.flatten = Outbound.bytes t.queued ∧
      (FrameReader.fresh .rolling).parseAll 1 overheard =
        (.ok 4,
          [(0, ⟨some .v2, .ping 4⟩), (0, ⟨some .v2, .ping 1⟩),
            (0, ⟨some .v2, .settings true [⟨7, 1, 9⟩]⟩), (0, ⟨some .v2, .goAway 0 0⟩)],
          .fresh .rolling) := by
  have hstart : Course newcomer _ newcomer := .start
  have hpinged := hstart.receive talkative ⟨some .v3, .ping 4⟩
  have hreturned := (hpinged.take rfl).usePool (.giveBack ⟨[128, 2, 0, 6, 0, 0, 0, 4, 0, 0, 0, 4], 64⟩)
  have hcourse := hreturned.call .goAway
  obtain ⟨hread, -⟩ := queued_is_what_was_done isNew_newcomer hcourse (not_any_isLoss.mp rfl)
  exact ⟨_, _, isNew_newcomer, hcourse, not_any_isLoss.mp rfl, rfl, hread .rolling 1 overheard rfl⟩

end Endpoint

end SpdySessions
