import SpdySessions.Proofs.Connection.Traffic

/-! Queues are written in order. Calls put frames at the end of the queue, by anybody and between any two
turns, or by the listener while the connection reads; the turns take them out at the head and write
them. So what has been written is a front part of what was queued, and how long it is depends on how the
connection ends. What the socket brings goes to the session as if it had come at once. -/

namespace SpdySessions.Connection

open Session (Listener Call Notice Entry)

variable {codec : HeaderCodec}

/-! ### The invariant -/

/-- What has been written is a front part of what was queued, less what could not be written; what was
told is what one reading of everything would deliver. -/
structure Flows (c₀ : Connection codec) (t : Traffic) (c : Connection codec) : Prop where
  queue : (∀ result, c.progress ≠ .ended result) → t.queued = t.taken ++ c.endpoint.session.queue
  front : t.taken <+: t.queued
  written : ∃ sent, t.taken.filterMap Outbound.frame? = sent ++ t.lost ∧
    c.written = sent.flatMap Buffer.content
  lost : Progress.IsWorking c.progress → t.lost = []
  reader : c.endpoint.reader = ((FrameReader.fresh codec).feed t.brought).2.2
  fine : c.progress = .running → ((FrameReader.fresh codec).feed t.brought).2.1 = none
  told : t.entries.filterMap Entry.told? =
    ((FrameReader.fresh codec).feed t.brought).1.map (·.frame.notice)
  ended : ∀ result, c.progress = .ended result → c.endpoint.channelOpen = false ∧
    c.endpoint.session.connected = false ∧ c.endpoint.session.queue = []
  pool : Ledger c₀.endpoint.pool c.endpoint.pool (t.taken.filterMap Outbound.frame?) t.elsewhere

section

variable {c c₀ c' : Connection codec} {t : Traffic} {socket : Socket} {listener : Listener}
  {item : Outbound} {rest : List Outbound} {entries : List Entry}

theorem not_ended_of_writes (h : c.Writes) (result : Except Fault Unit) :
    c.progress ≠ .ended result := by
  rcases h with ⟨hrunning, -⟩ | hdraining
  · rw [hrunning]
    nofun
  · rw [hdraining]
    nofun

theorem working_of_writes (h : c.Writes) : Progress.IsWorking c.progress := by
  rcases h with ⟨hrunning, -⟩ | hdraining
  · rw [hrunning]
    trivial
  · rw [hdraining]
    trivial

/-- The head of the queue is taken, and written or lost with the socket if it is a frame. -/
theorem Flows.taken (h : Flows c₀ t c) {progress : Progress} {written : Bytes}
    (sent lost : List Buffer) (hwrites : c.Writes)
    (hqueue : c.endpoint.session.queue = item :: rest)
    (hitem : [item].filterMap Outbound.frame? = sent ++ lost)
    (hlost : (if socket.write.toOption.isSome then [] else [item].filterMap Outbound.frame?) = lost)
    (hwritten : written = c.written ++ sent.flatMap Buffer.content)
    (hprogress : (progress = c.progress ∧ lost = []) ∨ ∃ result, progress = .leaving result) :
    Flows c₀ (t.after c socket [] { c.dequeue item rest with progress := progress, written := written })
      { c.dequeue item rest with progress := progress, written := written } := by
  have hqueued := h.queue (not_ended_of_writes hwrites)
  rw [hqueue] at hqueued
  have hqueued' : t.queued = (t.taken ++ [item]) ++ rest := by
    rw [hqueued, List.append_assoc]
    rfl
  have hnone := h.lost (working_of_writes hwrites)
  rw [after_of_taken hwrites hqueue rfl, hlost, hnone, List.nil_append]
  refine
    { queue := fun _ => hqueued', front := ⟨rest, hqueued'.symm⟩, written := ?_,
      lost := fun hworking => ?_, reader := h.reader, fine := fun hrunning => ?_, told := h.told,
      ended := fun result hover => ?_, pool := ?_ }
  · obtain ⟨before, htaken, hbefore⟩ := h.written
    rw [hnone, List.append_nil] at htaken
    refine ⟨before ++ sent, ?_, ?_⟩
    · rw [List.filterMap_append, htaken, hitem, List.append_assoc]
    · rw [hwritten, hbefore, List.flatMap_append]
  · rcases hprogress with ⟨-, hnone⟩ | ⟨result, rfl⟩
    · exact hnone
    · cases hworking
  · rcases hprogress with ⟨rfl, -⟩ | ⟨result, rfl⟩
    · exact h.fine hrunning
    · cases hrunning
  · rcases hprogress with ⟨rfl, -⟩ | ⟨result, rfl⟩
    · exact absurd hover (not_ended_of_writes hwrites result)
    · cases hover
  · rw [List.filterMap_append]
    exact h.pool.release item

/-- Bytes are taken in by a connection that has had no fault so far. -/
theorem Flows.fed (h : Flows c₀ t c) (listener : Listener) (hrunning : c.progress = .running)
    (hqueue : c.endpoint.session.queue = []) {bytes : Bytes} {progress : Progress}
    (hprogress : (progress = .running ∧ (c.endpoint.reader.feed bytes).2.1 = none) ∨
      ∃ result, progress = .leaving result) :
    Flows c₀ { t with
      queued := t.queued ++ (c.fed listener bytes).endpoint.session.queue
      brought := t.brought ++ bytes
      entries := t.entries ++ (c.endpoint.feed listener bytes).1 }
      { c.fed listener bytes with progress := progress } := by
  have hserves := serves_feed c.endpoint listener bytes
  have hworking : Progress.IsWorking c.progress := by rw [hrunning]; trivial
  have hfeed : (FrameReader.fresh codec).feed (t.brought ++ bytes) =
      (((FrameReader.fresh codec).feed t.brought).1 ++ (c.endpoint.reader.feed bytes).1,
        (c.endpoint.reader.feed bytes).2) := by
    rw [h.reader]
    exact FrameReader.feed_append (h.fine hrunning) bytes
  have hqueued : t.queued = t.taken := by
    have hqueued := h.queue fun result hended => by cases hrunning.symm.trans hended
    rwa [hqueue, List.append_nil] at hqueued
  refine
    { queue := fun _ => by rw [hqueued]
      front := hqueued ▸ List.prefix_append _ _
      written := h.written
      lost := fun _ => h.lost hworking
      reader := by rw [hfeed]; exact hserves.reader
      fine := fun hr => ?_
      told := ?_
      ended := fun result hover => ?_
      pool := ?_ }
  · rw [hfeed]
    rcases hprogress with ⟨-, hfine⟩ | ⟨result, rfl⟩
    · exact hfine
    · cases hr
  · rw [hfeed, List.filterMap_append, h.told, List.map_append]
    congr 1
    exact told_receiveAll _ listener _
  · rcases hprogress with ⟨rfl, -⟩ | ⟨result, rfl⟩
    · cases hover
    · cases hover
  · obtain ⟨sizes, hsizes⟩ := hserves.pool
    show Ledger _ (c.endpoint.feed listener bytes).2.2.2.pool _ _
    rw [hsizes]
    exact h.pool.borrow sizes

/-- Nothing is moved, and the connection is where it was or nearer to its end. -/
theorem Flows.idle (h : Flows c₀ t c) {progress : Progress} (htakes : c.takes = none)
    (hbrings : c.brings socket = []) (hbefore : Progress.IsWorking c.progress)
    (hprogress : progress = .draining ∨ ∃ result, progress = .leaving result) :
    Flows c₀ (t.after c socket [] { c with progress := progress }) { c with progress := progress } := by
  have hsame : t.after c socket [] { c with progress := progress } = t :=
    after_of_idle htakes hbrings (Nat.le_refl _)
  have hnot : ∀ result, c.progress ≠ .ended result := by
    intro result hended
    rw [hended] at hbefore
    exact hbefore
  rw [hsame]
  refine
    { h with
      queue := fun _ => h.queue hnot
      lost := fun _ => h.lost hbefore
      fine := fun hrunning => ?_
      ended := fun result hover => ?_ }
  · rcases hprogress with rfl | ⟨result, rfl⟩
    · cases hrunning
    · cases hrunning
  · rcases hprogress with rfl | ⟨result, rfl⟩
    · cases hover
    · cases hover

/-- **What one turn keeps.** -/
theorem Flows.turned (h : Flows c₀ t c) (hturned : Turned c listener socket entries c') :
    Flows c₀ (t.after c socket entries c') c' := by
  cases hturned with
  | noticed hrunning hclosed =>
      refine h.idle ?_ ?_ (by rw [hrunning]; trivial) (Or.inl rfl)
      · simp [takes, hrunning, hclosed]
      · unfold brings
        rw [hrunning, hclosed]
        cases c.endpoint.session.queue <;> rfl
  | @wrote buffer _ hwrites hqueue hwrite =>
      refine h.taken [buffer] [] hwrites hqueue rfl ?_ ?_ (Or.inl ⟨rfl, rfl⟩)
      · rw [hwrite]
        rfl
      · rw [List.flatMap_singleton]
  | @lost buffer _ _ hwrites hqueue hwrite =>
      refine h.taken [] [buffer] hwrites hqueue rfl ?_ ?_ (Or.inr ⟨_, rfl⟩)
      · rw [hwrite]
        rfl
      · exact (List.append_nil _).symm
  | asked hrunning hopen hqueue =>
      refine h.taken [] [] (Or.inl ⟨hrunning, hopen⟩) hqueue rfl ?_ ?_ (Or.inr ⟨_, rfl⟩)
      · exact ite_self _
      · exact (List.append_nil _).symm
  | skipped hdraining hqueue =>
      refine h.taken [] [] (Or.inr hdraining) hqueue rfl ?_ ?_ (Or.inl ⟨rfl, rfl⟩)
      · exact ite_self _
      · exact (List.append_nil _).symm
  | drained hdraining hqueue =>
      refine h.idle ?_ ?_ (by rw [hdraining]; trivial) (Or.inr ⟨_, rfl⟩)
      · rw [takes_of_writes (Or.inr hdraining), hqueue]
        rfl
      · simp [brings, hdraining]
  | brokeOff hrunning hopen hqueue hread =>
      refine h.idle ?_ ?_ (by rw [hrunning]; trivial) (Or.inr ⟨_, rfl⟩)
      · rw [takes_of_writes (Or.inl ⟨hrunning, hopen⟩), hqueue]
        rfl
      · simp [brings, hrunning, hqueue, hread]
  | fed hrunning hopen hqueue hread hfine =>
      rw [after_of_fed hrunning hopen hqueue hread]
      have hfed := h.fed listener hrunning hqueue (Or.inl ⟨rfl, hfine⟩)
      rw [← hrunning] at hfed
      exact hfed
  | fedLast hrunning hopen hqueue hread =>
      rw [after_of_fed hrunning hopen hqueue hread]
      exact h.fed listener hrunning hqueue (Or.inr ⟨_, rfl⟩)
  | @left result hleaving =>
      have hsame : t.after c socket [] (c.finish result) = t := by
        refine after_of_idle ?_ ?_ (Nat.zero_le _)
        · simp [takes, hleaving]
        · simp [brings, hleaving]
      rw [hsame]
      exact { h with
        queue := fun hnot => absurd rfl (hnot _)
        lost := fun hworking => by cases hworking
        fine := fun hrunning => by cases hrunning
        ended := fun _ _ => ⟨rfl, rfl, rfl⟩ }
  | stayed hended =>
      have hsame : t.after c socket [] c = t := by
        refine after_of_idle ?_ ?_ (Nat.le_refl _)
        · simp [takes, hended]
        · simp [brings, hended]
      rw [hsame]
      exact h

theorem Flows.call (h : Flows c₀ t c) (k : Call) :
    Flows c₀ { t with queued := t.queued ++ Traffic.added c (c.call k) 0 } (c.call k) := by
  have hserves := Endpoint.serves_call c.endpoint k
  obtain ⟨items, hitems⟩ := hserves.queue
  have hadded : Traffic.added c (c.call k) 0 = items := by
    show List.drop _ (c.endpoint.call k).2.session.queue = items
    rw [hitems, Nat.sub_zero, List.drop_left]
  rw [hadded]
  refine
    { h with
      queue := fun hnot => ?_
      front := h.front.trans (List.prefix_append _ _)
      reader := hserves.reader.trans h.reader
      ended := fun result hover => ?_
      pool := ?_ }
  · show _ = t.taken ++ (c.endpoint.call k).2.session.queue
    rw [hitems, h.queue hnot, List.append_assoc]
  · obtain ⟨hclosed, hgone, hqueue⟩ := h.ended result hover
    exact ⟨hserves.channel hclosed, hserves.connected.trans hgone,
      (hserves.refused hgone).trans hqueue⟩
  · obtain ⟨sizes, hsizes⟩ := hserves.pool
    show Ledger _ (c.endpoint.call k).2.pool _ _
    rw [hsizes]
    exact h.pool.borrow sizes

theorem Flows.elsewhere (h : Flows c₀ t c) (u : PoolUse) :
    Flows c₀ { t with elsewhere := t.elsewhere ++ [u] } (c.usePool u) := by
  have hpool : Ledger c₀.endpoint.pool (c.endpoint.pool.use u)
      (t.taken.filterMap Outbound.frame? ++ []) (t.elsewhere ++ [u]) := h.pool.append [.inr u] rfl
  rw [List.append_nil] at hpool
  exact { h with pool := hpool }

theorem flows_start (hrunning : c₀.progress = .running) (hwritten : c₀.written = [])
    (hreader : c₀.endpoint.reader = .fresh codec) :
    Flows c₀ { queued := c₀.endpoint.session.queue } c₀ := by
  have hfeed : (FrameReader.fresh codec).feed [] = ([], none, .fresh codec) := FrameReader.feed_nil rfl
  exact
    { queue := fun _ => rfl
      front := List.nil_prefix
      written := ⟨[], rfl, hwritten⟩
      lost := fun _ => rfl
      reader := by rw [hfeed]; exact hreader
      fine := fun _ => by rw [hfeed]
      told := by rw [hfeed]; rfl
      ended := fun result hover => by cases hrunning.symm.trans hover
      pool := ledger_refl _ }

theorem Course.flows (h : Course c₀ t c) (hrunning : c₀.progress = .running)
    (hwritten : c₀.written = []) (hreader : c₀.endpoint.reader = .fresh codec) : Flows c₀ t c := by
  induction h with
  | refl => exact flows_start hrunning hwritten hreader
  | @turn _ c h listener socket ih => exact ih.turned (turned c listener socket)
  | call h k ih => exact ih.call k
  | elsewhere h u ih => exact ih.elsewhere u

/-! ### How the loop ends -/

/-- A connection that has left its loop stays out of it and writes nothing any more. -/
theorem Turned.stays (h : Turned c listener socket entries c')
    (hover : ¬Progress.IsWorking c.progress) :
    ¬Progress.IsWorking c'.progress ∧ c'.written = c.written := by
  cases h with
  | noticed hrunning _ => exact absurd (by rw [hrunning]; trivial) hover
  | wrote hwrites _ _ => exact absurd (working_of_writes hwrites) hover
  | lost hwrites _ _ => exact absurd (working_of_writes hwrites) hover
  | asked hrunning hopen _ => exact absurd (working_of_writes (Or.inl ⟨hrunning, hopen⟩)) hover
  | skipped hdraining _ => exact absurd (working_of_writes (Or.inr hdraining)) hover
  | drained hdraining _ => exact absurd (working_of_writes (Or.inr hdraining)) hover
  | brokeOff hrunning hopen _ _ => exact absurd (working_of_writes (Or.inl ⟨hrunning, hopen⟩)) hover
  | fed hrunning hopen _ _ _ => exact absurd (working_of_writes (Or.inl ⟨hrunning, hopen⟩)) hover
  | fedLast hrunning hopen _ _ => exact absurd (working_of_writes (Or.inl ⟨hrunning, hopen⟩)) hover
  | left _ => exact ⟨id, rfl⟩
  | stayed _ => exact ⟨hover, rfl⟩

theorem Course.written_of_left (h : Course c₀ t c) (hover : ¬Progress.IsWorking c₀.progress) :
    ¬Progress.IsWorking c.progress ∧ c.written = c₀.written := by
  induction h with
  | refl => exact ⟨hover, rfl⟩
  | @turn _ c h listener socket ih =>
      obtain ⟨hstays, hsame⟩ := (turned c listener socket).stays ih.1
      exact ⟨hstays, hsame.trans ih.2⟩
  | call h k ih => exact ih
  | elsewhere h u ih => exact ih

/-- The loop is left through the closed channel without a fault only if nothing is queued any more. -/
theorem Turned.drained_of_fine (h : Turned c listener socket entries c')
    (hdraining : c.progress = .draining) (hleaving : c'.progress = .leaving (.ok ())) :
    c.endpoint.session.queue = [] ∧ c'.written = c.written := by
  cases h with
  | drained _ hqueue => exact ⟨hqueue, rfl⟩
  | wrote _ _ _ => cases hdraining.symm.trans hleaving
  | lost _ _ _ => cases hleaving
  | skipped _ _ => cases hdraining.symm.trans hleaving
  | noticed hrunning _ => cases hdraining.symm.trans hrunning
  | asked hrunning _ _ => cases hdraining.symm.trans hrunning
  | brokeOff hrunning _ _ _ => cases hdraining.symm.trans hrunning
  | fed hrunning _ _ _ _ => cases hdraining.symm.trans hrunning
  | fedLast hrunning _ _ _ => cases hdraining.symm.trans hrunning
  | left hleft => cases hdraining.symm.trans hleft
  | stayed hended => cases hdraining.symm.trans hended

/-- Taking the wish to end out of the queue of an open channel leaves the loop. -/
theorem Turned.left_of_close (h : Turned c listener socket entries c')
    (hrunning : c.progress = .running) (hopen : c.endpoint.channelOpen = true)
    (hqueue : c.endpoint.session.queue = .close :: rest) :
    ¬Progress.IsWorking c'.progress ∧ c'.written = c.written := by
  cases h with
  | asked _ _ _ => exact ⟨id, rfl⟩
  | noticed _ hclosed => cases hopen.symm.trans hclosed
  | wrote _ hqueue' _ => cases hqueue.symm.trans hqueue'
  | lost _ hqueue' _ => cases hqueue.symm.trans hqueue'
  | skipped hdraining _ => cases hrunning.symm.trans hdraining
  | drained hdraining _ => cases hrunning.symm.trans hdraining
  | brokeOff _ _ hqueue' _ => cases hqueue.symm.trans hqueue'
  | fed _ _ hqueue' _ _ => cases hqueue.symm.trans hqueue'
  | fedLast _ _ hqueue' _ => cases hqueue.symm.trans hqueue'
  | left hleft => cases hrunning.symm.trans hleft
  | stayed hended => cases hrunning.symm.trans hended

/-- What is taken goes back to the pool in the same turn, written or not. -/
theorem Turned.released (h : Turned c listener socket entries c') (htakes : c.takes = some item) :
    c'.endpoint.pool = Endpoint.release c.endpoint.pool item := by
  cases h with
  | wrote hwrites hqueue _ =>
      obtain rfl := Option.some.inj (htakes.symm.trans (takes_cons hwrites hqueue))
      rfl
  | lost hwrites hqueue _ =>
      obtain rfl := Option.some.inj (htakes.symm.trans (takes_cons hwrites hqueue))
      rfl
  | asked hrunning hopen hqueue =>
      obtain rfl := Option.some.inj
        (htakes.symm.trans (takes_cons (Or.inl ⟨hrunning, hopen⟩) hqueue))
      rfl
  | skipped hdraining hqueue =>
      obtain rfl := Option.some.inj (htakes.symm.trans (takes_cons (Or.inr hdraining) hqueue))
      rfl
  | noticed hrunning hclosed => simp [takes, hrunning, hclosed] at htakes
  | drained hdraining hqueue => simp [takes, hdraining, hqueue] at htakes
  | brokeOff hrunning _ hqueue _ => simp [takes, hrunning, hqueue] at htakes
  | fed hrunning _ hqueue _ _ => simp [takes, hrunning, hqueue] at htakes
  | fedLast hrunning _ hqueue _ => simp [takes, hrunning, hqueue] at htakes
  | left hleaving => simp [takes, hleaving] at htakes
  | stayed hended => simp [takes, hended] at htakes

theorem Flows.delivered (h : Flows c₀ t c) :
    (t.entries.filterMap Entry.told?).filterMap Notice.delivered? =
      ((FrameReader.fresh codec).feed t.brought).1.map (·.frame) := by
  have hall : Notice.delivered? ∘ (fun d : Delivery => d.frame.notice) = some ∘ (·.frame) :=
    funext fun d => d.frame.delivered?_notice
  rw [h.told, List.filterMap_map, hall, List.filterMap_eq_map]

theorem Flows.written_of_none (h : Flows c₀ t c) (hlost : t.lost = []) :
    c.written = Outbound.bytes t.taken := by
  obtain ⟨sent, htaken, hwritten⟩ := h.written
  rw [hlost, List.append_nil] at htaken
  rw [Outbound.bytes, htaken, hwritten]

end

/-- **The queue is written in order and drained on close.** On every course of a connection that starts
with nothing written: what was taken from the queue is a front part of all that was ever queued, and as
long as no write has failed it is what has been written. Every frame that was taken has been given back to
the pool once, in the turn that took it, written or not. A connection that leaves through its closed
channel without a fault has written every frame queued up to then; one that takes the wish to end has
written what was queued before it; and neither writes anything later. The listener has been told of the
frames that one reading of all bytes delivers, and at the end the channel is closed and the queue gone. -/
theorem writes_in_order {c₀ c : Connection codec} {t : Traffic} (hrunning : c₀.progress = .running)
    (hwritten : c₀.written = []) (hreader : c₀.endpoint.reader = .fresh codec) (h : Course c₀ t c) :
    (t.taken <+: t.queued ∧ (t.lost = [] → c.written = Outbound.bytes t.taken)) ∧
    (Ledger c₀.endpoint.pool c.endpoint.pool (t.taken.filterMap Outbound.frame?) t.elsewhere ∧
      ∀ listener socket item, c.takes = some item →
        (c.turn listener socket).2.endpoint.pool = Endpoint.release c.endpoint.pool item) ∧
    (∀ listener socket t' c', c.progress = .draining →
      (c.turn listener socket).2.progress = .leaving (.ok ()) →
      Course (c.turn listener socket).2 t' c' → c'.written = Outbound.bytes t.queued) ∧
    (∀ listener socket t' c' rest, c.progress = .running → c.endpoint.channelOpen = true →
      c.endpoint.session.queue = .close :: rest → Course (c.turn listener socket).2 t' c' →
      t.queued = t.taken ++ .close :: rest ∧ c'.written = Outbound.bytes t.taken) ∧
    (t.entries.filterMap Entry.told?).filterMap Notice.delivered? =
      ((FrameReader.fresh codec).feed t.brought).1.map (·.frame) ∧
    ∀ result, c.progress = .ended result → c.endpoint.channelOpen = false ∧
      c.endpoint.session.connected = false ∧ c.endpoint.session.queue = [] := by
  have hflows := h.flows hrunning hwritten hreader
  refine ⟨⟨hflows.front, hflows.written_of_none⟩,
    ⟨hflows.pool, fun listener socket item => (turned c listener socket).released⟩, ?_, ?_,
    hflows.delivered, hflows.ended⟩
  · intro listener socket t' c' hdraining hleaving hlater
    obtain ⟨hqueue, hsame⟩ := (turned c listener socket).drained_of_fine hdraining hleaving
    have hleft : ¬Progress.IsWorking (c.turn listener socket).2.progress := by
      rw [hleaving]
      exact id
    have hqueued := hflows.queue (not_ended_of_writes (Or.inr hdraining))
    rw [hqueue, List.append_nil] at hqueued
    rw [(hlater.written_of_left hleft).2, hsame, hqueued]
    exact hflows.written_of_none (hflows.lost (working_of_writes (Or.inr hdraining)))
  · intro listener socket t' c' rest hrunning hopen hqueue hlater
    have hwrites : c.Writes := Or.inl ⟨hrunning, hopen⟩
    obtain ⟨hleft, hsame⟩ := (turned c listener socket).left_of_close hrunning hopen hqueue
    refine ⟨hqueue ▸ hflows.queue (not_ended_of_writes hwrites), ?_⟩
    rw [(hlater.written_of_left hleft).2, hsame]
    exact hflows.written_of_none (hflows.lost (working_of_writes hwrites))

def opened : Connection .identity where
  endpoint := {
    session := {
      id := 1, version := .v3, window := Session.defaultWindow, idleTimeout := .zero
      remote := ⟨.v4 127 0 0 1, 6121, 0⟩, secure := false, writer := .fresh .identity }
    reader := .fresh .identity
    pool := .standard }

/-- A ping, a farewell and another ping are queued, the channel is closed and all is written: the wish to
end stands between the frames and stops nothing. -/
def spent : Connection .identity :=
  let asked := (((opened.call .ping).call .goAway).call .ping).call .close
  (List.range 5).foldl (fun c _ => (c.turn .silent {}).2) asked

theorem spent_in_order :
    ∃ t, Course opened t spent ∧ t.queued.length = 4 ∧
      (spent.turn .silent {}).2.written = Outbound.bytes t.queued := by
  have hstart : Course opened _ opened := .refl
  have hasked := (((hstart.call .ping).call .goAway).call .ping).call .close
  have hturn := fun t c (h : Course opened t c) => h.turn .silent {}
  have hcourse := hturn _ _ (hturn _ _ (hturn _ _ (hturn _ _ (hturn _ _ hasked))))
  obtain ⟨-, -, hdrained, -⟩ := writes_in_order rfl rfl rfl hcourse
  exact ⟨_, hcourse, rfl, hdrained .silent {} _ _ rfl rfl .refl⟩

end SpdySessions.Connection
