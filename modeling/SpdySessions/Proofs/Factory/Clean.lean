import SpdySessions.Proofs.Factory.Tidy

/-! What an attempt has at each of its stages. One that waits has no session, one that carries a connection
has one, and one that is over has an outcome, a closed channel and a listener that was told of the end once
if there was a session. Every step keeps this; one attempt at a time may be in the middle of a step and have
something else. -/

namespace SpdySessions

namespace Attempt

variable {codec : HeaderCodec} {a a' : Attempt codec}

/-- Whether the session knows that its connection has ended, if there is one. -/
def closed? (a : Attempt codec) : Option Bool :=
  a.link.map (·.session.closed)

/-- An attempt that waits has no session, one that carries a connection has one that is not closed, and
one that is over has told its listener of the end if there was a session. -/
structure Orderly (a : Attempt codec) : Prop where
  session : a.session?.isSome = a.promise.isCompleted
  waiting : a.stage.isWaiting = true → a.session? = none
  carrying : a.stage.isWaiting = false → a.stage.isEnded = false → a.session?.isSome = true
  ends : a.ends = if a.stage.isEnded && a.promise.isCompleted then 1 else 0
  closed : a.stage.isEnded = false → a.closed? ≠ some true

/-- An attempt that is over is so for everybody. -/
def Settled (a : Attempt codec) : Prop :=
  a.stage.isEnded = true → a.promise.isDone = true ∧ a.channel.isOpen = false

/-- An attempt that may be brought to its end: the listener has been told already. -/
structure Ready (a : Attempt codec) : Prop where
  session : a.session?.isSome = a.promise.isCompleted
  ends : a.ends = if a.promise.isCompleted then 1 else 0
  done : a.promise.isDone = true

theorem Orderly.quiet (h : a.Orderly) (hq : a.Quiet a') : a'.Orderly where
  session := by rw [hq.session, hq.completed, h.session]
  waiting := fun hwaiting => hq.session.trans (h.waiting (hq.waiting ▸ hwaiting))
  carrying := fun hwaiting hended => by
    rw [hq.session]
    exact h.carrying (hq.waiting ▸ hwaiting) (hq.ended ▸ hended)
  ends := by rw [hq.ends, hq.ended, hq.completed, h.ends]
  closed := fun hended => by
    have hclosed : a'.closed? = a.closed? := hq.closed
    rw [hclosed]
    exact h.closed (hq.ended ▸ hended)

theorem Settled.quiet (h : a.Settled) (hq : a.Quiet a') : a'.Settled := by
  intro hended
  obtain ⟨hdone, hclosed⟩ := h (hq.ended ▸ hended)
  exact ⟨hq.done hdone, hq.channel hclosed⟩

theorem Ready.orderly (h : a.Ready) : ({ a.close with stage := .ended } : Attempt codec).Orderly where
  session := h.session
  waiting := fun hwaiting => by cases hwaiting
  carrying := fun _ hended => by cases hended
  ends := h.ends
  closed := fun hended => by cases hended

/-- A session has begun, and nobody was told of an end. -/
theorem orderly_carrying (hsession : a.session?.isSome = true) (hcompleted : a.promise.isCompleted = true)
    (hends : a.ends = 0) (hclosed : a.closed? = some false) (progress : Progress) :
    ({ a with stage := .carrying progress } : Attempt codec).Orderly where
  session := hsession.trans hcompleted.symm
  waiting := nofun
  carrying := fun _ _ => hsession
  ends := hends
  closed := fun _ h => by cases hclosed.symm.trans h

theorem isDone_of_isCompleted {σ β : Type} {p : Promise σ β} (h : p.isCompleted = true) :
    p.isDone = true := by
  cases houtcome : p.outcome with
  | none => simp [Promise.isCompleted, houtcome] at h
  | some o => simp [Promise.isDone, houtcome]

end Attempt

namespace Factory

variable {codec : HeaderCodec} {f f' : Factory codec} {id : ChannelId}
  {accepted : List ChannelId} {busy : Option ChannelId}

/-- The factory is tidy, and all attempts are in order but for the one that is in the middle of a step. -/
structure Clean (accepted : List ChannelId) (busy : Option ChannelId) (f : Factory codec) : Prop where
  tidy : f.Tidy
  known : ∀ id ∈ accepted, ∃ a, f.attempts[id]? = some a
  attempts : ∀ (id : ChannelId) (a : Attempt codec), busy ≠ some id → f.attempts[id]? = some a →
    a.Orderly ∧ (id ∈ accepted → a.Settled)

theorem Clean.quiet (h : Clean accepted busy f) (hq : f.Quiet f') : Clean accepted busy f' where
  tidy := h.tidy.quiet hq
  known := fun id hid => by
    obtain ⟨a, ha⟩ := h.known id hid
    obtain ⟨a', ha', -⟩ := hq.attempt ha
    exact ⟨a', ha'⟩
  attempts := fun id a' hbusy ha' => by
    obtain ⟨a, ha, hquiet⟩ := hq.before ha'
    obtain ⟨horderly, hsettled⟩ := h.attempts id a hbusy ha
    exact ⟨horderly.quiet hquiet, fun hid => (hsettled hid).quiet hquiet⟩

/-- What is no attempt may change as long as it stays tidy. -/
theorem Clean.of_tidy (h : Clean accepted busy f) (htidy : f'.Tidy) (hattempts : f'.attempts = f.attempts) :
    Clean accepted busy f' where
  tidy := htidy
  known := hattempts ▸ h.known
  attempts := hattempts ▸ h.attempts

theorem Clean.attempt (h : Clean accepted none f) {a : Attempt codec} (ha : f.attempts[id]? = some a) :
    a.Orderly ∧ (id ∈ accepted → a.Settled) :=
  h.attempts id a nofun ha

theorem Clean.begin (h : Clean accepted none f) (id : ChannelId) : Clean accepted (some id) f :=
  { h with attempts := fun other a _ => h.attempts other a nofun }

/-- The attempt in the middle of a step changes, with what is no attempt. -/
theorem Clean.modify (h : Clean accepted (some id) f) {change : Attempt codec → Attempt codec}
    (htidy : (f'.modify id change).Tidy) (hattempts : f'.attempts = f.attempts := by rfl) :
    Clean accepted (some id) (f'.modify id change) where
  tidy := htidy
  known := fun other hother => by
    obtain ⟨a, ha⟩ := h.known other hother
    rw [← hattempts] at ha
    exact ⟨_, (attempts_modify f' id other change).trans (by rw [ha, Option.map_some])⟩
  attempts := fun other a hbusy ha => by
    have hne : id ≠ other := fun heq => hbusy (congrArg some heq)
    rw [attempts_modify, hattempts] at ha
    obtain ⟨b, hb, rfl⟩ := Option.map_eq_some_iff.mp ha
    rw [if_neg hne]
    exact h.attempts other b hbusy hb

/-- The step is over. -/
theorem Clean.complete (h : Clean accepted (some id) f)
    (hid : ∀ a : Attempt codec, f.attempts[id]? = some a → a.Orderly ∧ (id ∈ accepted → a.Settled)) :
    Clean accepted none f where
  tidy := h.tidy
  known := h.known
  attempts := fun other a _ ha => by
    by_cases hother : id = other
    · exact hother ▸ hid a (hother ▸ ha)
    · exact h.attempts other a (fun heq => hother (Option.some.inj heq)) ha

/-! ### Ends -/

theorem Clean.finish (h : Clean accepted (some id) f) {a : Attempt codec}
    (ha : f.attempts[id]? = some a) (hready : a.Ready)
    (hsession : ∀ session, a.session? = some session → session ∉ f.sessions) :
    Clean accepted none (f.finish id) where
  tidy := h.tidy.finish ha hsession
  known := fun other hother => by
    obtain ⟨b, hb⟩ := h.known other hother
    exact ⟨_, (attempts_finish f id other).trans (by rw [hb, Option.map_some])⟩
  attempts := fun other b _ hb => by
    rw [attempts_finish] at hb
    obtain ⟨b', hb', rfl⟩ := Option.map_eq_some_iff.mp hb
    by_cases hother : id = other
    · subst hother
      obtain rfl := Option.some.inj (ha.symm.trans hb')
      rw [if_pos rfl]
      exact ⟨hready.orderly, fun _ _ => ⟨hready.done, rfl⟩⟩
    · rw [if_neg hother]
      exact h.attempts other b' (fun heq => hother (Option.some.inj heq)) hb'

/-- An attempt that waits fails: there is no session, and nobody is told of an end. -/
theorem Clean.abort (h : Clean accepted none f) {a : Attempt codec} (ha : f.attempts[id]? = some a)
    (hwaiting : a.stage.isWaiting = true) (cause : Fault) : Clean accepted none (f.abort id cause) := by
  have hq := quiet_fail f id cause
  obtain ⟨a', ha', hdone⟩ := done_fail ha cause
  obtain ⟨b, hb, hquiet⟩ := hq.attempt ha
  obtain rfl := Option.some.inj (ha'.symm.trans hb)
  have horderly := (h.attempt ha).1.quiet hquiet
  have hnone := horderly.waiting (hquiet.waiting.trans hwaiting)
  have hincomplete : a'.promise.isCompleted = false := by rw [← horderly.session, hnone]; rfl
  refine ((h.quiet hq).begin id).finish ha' ⟨horderly.session, ?_, hdone⟩ fun session hsession => ?_
  · rw [horderly.ends, hincomplete, Bool.and_false]
  · cases hnone.symm.trans hsession

theorem Clean.noticeClosed (h : Clean accepted none f) (id : ChannelId) :
    Clean accepted none (f.noticeClosed id) := by
  unfold Factory.noticeClosed
  split
  · exact h
  · rename_i a ha
    split
    · rename_i hclosed
      exact h.abort ha hclosed.1 _
    · exact h

/-- The session hears of the end of its connection and tells its listener, once. -/
theorem connectionClosed_once {e : Endpoint codec} (hopen : e.session.closed = false)
    (listener : Session.Listener) :
    (e.connectionClosed listener).1.countP Session.Entry.isEnd = 1 ∧
      (e.connectionClosed listener).2.session.id = e.session.id := by
  simp only [Endpoint.connectionClosed, hopen, Bool.false_eq_true, if_false]
  exact ⟨Endpoint.countP_isEnd_notify _ listener .closed,
    (Endpoint.serves_notify _ listener .closed).id⟩

theorem attempts_sessionClosed (f : Factory codec) (session : SessionId) :
    (f.sessionClosed session).2.attempts = f.attempts := by
  unfold sessionClosed
  split <;> rfl

/-- The listener hears of the end, and the attempt is ready to be over. -/
theorem Clean.tell (h : Clean accepted none f) {a : Attempt codec} (ha : f.attempts[id]? = some a)
    (hended : a.stage.isEnded = false) {e : Endpoint codec} {entries : List Session.Entry}
    (hsession : a.session? = some e.session.id) (honce : entries.countP Session.Entry.isEnd = 1) :
    Clean accepted (some id)
      ((f.setEndpoint id e).modify id fun a => { a with told := a.told ++ entries }) ∧
    ∃ a', ((f.setEndpoint id e).modify id fun a =>
        { a with told := a.told ++ entries }).attempts[id]? = some a' ∧
      a'.Ready ∧ a'.session? = some e.session.id := by
  have horderly := (h.attempt ha).1
  have hcompleted : a.promise.isCompleted = true := by rw [← horderly.session, hsession]; rfl
  have hpool := (h.quiet (quiet_of_same rfl rfl rfl rfl rfl rfl : f.Quiet { f with pool := e.pool })).begin id
  have hset : Clean accepted (some id) (f.setEndpoint id e) := by
    refine hpool.modify (hpool.tidy.modify fun b hb => ⟨rfl, ?_, rfl⟩)
    obtain rfl := Option.some.inj (ha.symm.trans hb)
    exact hsession.symm
  refine ⟨hset.modify (hset.tidy.modify fun _ _ => ⟨rfl, rfl, rfl⟩), _,
    attempts_modify_self (attempts_modify_self ha _) _,
    ⟨hcompleted.symm, ?_, Attempt.isDone_of_isCompleted hcompleted⟩, rfl⟩
  show (a.told ++ entries).countP _ = if a.promise.isCompleted then 1 else 0
  have hnone : a.told.countP Session.Entry.isEnd = 0 := by
    have hends := horderly.ends
    rwa [hended, Bool.false_and, if_neg Bool.false_ne_true] at hends
  rw [List.countP_append, hnone, honce, hcompleted]
  rfl

/-- The session is struck before the attempt is over, and nothing that fails in between enters it again. -/
theorem Clean.strike (h : Clean accepted (some id) f) {a : Attempt codec}
    (ha : f.attempts[id]? = some a) (hready : a.Ready) {session : SessionId}
    (hsession : a.session? = some session) (result : Except Fault Unit) :
    Clean accepted none (match result with
      | .error fault => (f.sessionClosed session).2.abort id fault
      | .ok () => (f.sessionClosed session).2.finish id) := by
  obtain ⟨htidy, hgone⟩ := h.tidy.sessionClosed session
  have hstruck := h.of_tidy htidy (attempts_sessionClosed f session)
  have hleft : (f.sessionClosed session).2.attempts[id]? = some a := by
    rw [attempts_sessionClosed]
    exact ha
  cases result with
  | ok _ =>
      refine hstruck.finish hleft hready fun session' hs => ?_
      obtain rfl := Option.some.inj (hsession.symm.trans hs)
      exact hgone
  | error fault =>
      have hq := quiet_fail (f.sessionClosed session).2 id fault
      obtain ⟨b, hb, hquiet⟩ := hq.attempt hleft
      refine (hstruck.quiet hq).finish hb ⟨?_, ?_, hquiet.done hready.done⟩ fun session' hs => ?_
      · rw [hquiet.session, hquiet.completed, hready.session]
      · rw [hquiet.ends, hquiet.completed, hready.ends]
      · rw [hquiet.session, hsession] at hs
        obtain rfl := Option.some.inj hs
        rcases hq.sessions with hnone | ⟨hsame, -⟩
        · rw [hnone]
          exact List.not_mem_nil
        · rw [hsame]
          exact hgone

/-- The connection of an attempt has ended. -/
theorem Clean.windUp (h : Clean accepted none f) {a : Attempt codec} (ha : f.attempts[id]? = some a)
    (hended : a.stage.isEnded = false) {e : Endpoint codec}
    (hsession : a.session? = some e.session.id) (hopen : e.session.closed = false)
    (listener : Session.Listener) (result : Except Fault Unit) :
    Clean accepted none (f.windUp id listener e result) := by
  obtain ⟨honce, hid⟩ := connectionClosed_once hopen listener
  obtain ⟨htold, a', ha', hready, hsession'⟩ := h.tell ha hended (hid ▸ hsession) honce
  exact htold.strike ha' hready hsession' result

/-! ### Connections -/

theorem endpoint?_touch (f : Factory codec) (id : ChannelId) :
    (f.touch id).endpoint? id = f.endpoint? id := by
  unfold touch
  cases ha : f.attempts[id]? with
  | none => rfl
  | some a =>
      simp only [endpoint?, attempts_modify_self ha, ha]
      rfl

theorem endpoint?_touched (f : Factory codec) (id : ChannelId) (moved : Bool) :
    (if moved then f.touch id else f).endpoint? id = f.endpoint? id := by
  split
  · exact endpoint?_touch f id
  · rfl

/-- A turn of the connection of an attempt that ends nothing. -/
theorem quiet_moved {e : Endpoint codec} {c : Connection codec} {entries : List Session.Entry}
    (he : f.endpoint? id = some e)
    (hcarrying : ∀ a : Attempt codec, f.attempts[id]? = some a →
      a.stage.isWaiting = false ∧ a.stage.isEnded = false)
    (hid : c.endpoint.session.id = e.session.id)
    (hclosed : c.endpoint.session.closed = e.session.closed)
    (hchannel : e.channelOpen = false → c.endpoint.channelOpen = false)
    (hends : entries.countP Session.Entry.isEnd = 0) :
    f.Quiet ((f.setEndpoint id c.endpoint).modify id fun a => { a with
      stage := .carrying c.progress, written := c.written, told := a.told ++ entries }) := by
  have hput := quiet_setEndpoint he hid hclosed hchannel
  refine hput.trans (quiet_modify fun b hb => ?_)
  obtain ⟨a, ha, hquiet⟩ := hput.before hb
  obtain ⟨hwaiting, hended⟩ := hcarrying a ha
  refine { Attempt.Quiet.refl b with waiting := ?_, ended := ?_, ends := ?_ }
  · exact (hquiet.waiting.trans hwaiting).symm
  · exact (hquiet.ended.trans hended).symm
  · show (b.told ++ entries).countP _ = b.told.countP _
    rw [List.countP_append, hends, Nat.add_zero]

theorem Clean.turn (h : Clean accepted none f) (id : ChannelId) (socket : Socket) :
    Clean accepted none (f.turn id socket) := by
  unfold Factory.turn
  split
  · rename_i a e ha he
    split
    · rename_i progress hstage
      dsimp only
      obtain ⟨hid, hclosed, hchannel, hends⟩ := (Connection.turned
        { endpoint := e, progress := progress, written := a.written } a.listener socket).same
      generalize (Connection.turn _ a.listener socket).1 = entries at hends ⊢
      generalize (Connection.turn _ a.listener socket).2 = c at hid hclosed hchannel ⊢
      generalize Connection.moves _ socket = moved
      have htouch : f.Quiet (if moved then f.touch id else f) := by
        split
        · exact quiet_touch f id
        · exact .refl f
      have he' := (endpoint?_touched f id moved).trans he
      generalize (if moved then f.touch id else f) = f₁ at htouch he' ⊢
      have hmoved := quiet_moved he' (fun a₁ ha₁ => ?_) hid hclosed hchannel hends
      · have hclean := (h.quiet htouch).quiet hmoved
        obtain ⟨a₁, ha₁, hlink, -⟩ := endpoint?_eq_some he'
        split
        · rename_i result hresult
          refine hclean.windUp (attempts_modify_self (attempts_modify_self ha₁ _) _) rfl rfl ?_ _ _
          have horderly := (hclean.attempt (attempts_modify_self (attempts_modify_self ha₁ _) _)).1
          simpa [Attempt.closed?] using horderly.closed rfl
        · exact hclean
      · obtain ⟨b, hb, hquiet⟩ := htouch.before ha₁
        obtain rfl := Option.some.inj (ha.symm.trans hb)
        rw [hquiet.waiting, hquiet.ended, hstage]
        exact ⟨rfl, rfl⟩
    · exact h
  · exact h

/-! ### Sessions begin -/

/-- What comes of making a session whose number is new: nothing but that the number is used up, or the
promise has it and its callbacks run. -/
theorem openSession_eq (hnew : f.sessionsMade + 1 ∉ f.sessions) (id : ChannelId) (a : Attempt codec) :
    f.openSession id a =
      if f.isRunning then
        if a.promise.isDone then (.error .cancelled, { f with sessionsMade := f.sessionsMade + 1 })
        else (.ok (f.sessionsMade + 1), a.promise.callbacks.foldl (runCallback id) (f.opened id a
          { outcome := some (.completed (f.sessionsMade + 1)), done := true, callbacks := [] }))
      else (.error .notRunning, { f with sessionsMade := f.sessionsMade + 1 }) := by
  cases hrunning : f.isRunning with
  | false =>
      have hclosed : isRunning { f with sessionsMade := (f.newSession a).id } = false := hrunning
      rw [openSession, sessionOpened, hclosed]
      rfl
  | true =>
      have hopen : isRunning { f with sessionsMade := (f.newSession a).id } = true := hrunning
      rw [openSession, sessionOpened, hopen]
      dsimp only
      rw [settle?_eq]
      cases a.promise.isDone with
      | false => rfl
      | true =>
          -- The number is new, so striking it again leaves the set as it was.
          have hstruck := Connector.strike_enter hnew
          let counted : Factory codec := { f with
            sessionsMade := f.sessionsMade + 1
            sessions := Connector.enter (f.sessionsMade + 1) f.sessions }
          have hstill : counted.isRunning = true := hrunning
          show (Except.error Fault.cancelled, (counted.sessionClosed (f.sessionsMade + 1)).2) = _
          rw [sessionClosed, if_pos hstill]
          exact congrArg (fun sessions => (Except.error Fault.cancelled,
            { f with sessionsMade := f.sessionsMade + 1, sessions := sessions })) hstruck

theorem Tidy.not_mem_sessions (h : f.Tidy) : f.sessionsMade + 1 ∉ f.sessions := by
  intro hmem
  obtain ⟨other, b, hb, hsession, -⟩ := h.sessions _ hmem
  exact absurd (h.made other b _ hb hsession) (Nat.not_succ_le_self _)

theorem openSession_cases (h : f.Tidy) (id : ChannelId) (a : Attempt codec) :
    (∃ cause, f.openSession id a =
      (.error cause, { f with sessionsMade := f.sessionsMade + 1 })) ∨
    (f.isRunning = true ∧ ∃ (callbacks : List Callback) (promise : Promise SessionId Callback),
      promise.outcome = some (.completed (f.newSession a).id) ∧
      f.openSession id a =
        (.ok (f.newSession a).id, callbacks.foldl (runCallback id) (f.opened id a promise))) := by
  rw [openSession_eq h.not_mem_sessions]
  cases hrunning : f.isRunning with
  | false => exact Or.inl ⟨_, rfl⟩
  | true =>
      cases a.promise.isDone with
      | true => exact Or.inl ⟨_, rfl⟩
      | false => exact Or.inr ⟨rfl, a.promise.callbacks, _, rfl, rfl⟩

theorem Clean.construct (h : Clean accepted none f) {a : Attempt codec} (ha : f.attempts[id]? = some a)
    (hwaiting : a.stage.isWaiting = true) : Clean accepted none (f.construct id) := by
  have horderly := (h.attempt ha).1
  have hnone := horderly.waiting hwaiting
  have hended : a.stage.isEnded = false := by
    cases hstage : a.stage <;> simp_all [Stage.isWaiting, Stage.isEnded]
  simp only [Factory.construct, ha]
  rcases openSession_cases h.tidy id a with ⟨cause, hopen⟩ | ⟨hrunning, callbacks, promise, hsome, hopen⟩
  · rw [hopen]
    exact (h.of_tidy (h.tidy.skip (Nat.le_succ _)) rfl).abort ha hwaiting cause
  · rw [hopen]
    dsimp only
    have hopened : Clean accepted (some id) (f.opened id a promise) := by
      have htidy := h.tidy.opened hrunning ha hnone hended promise
      exact (h.begin id).modify htidy
    have hrun := Quiet.foldl (quiet_runCallback id) callbacks (f.opened id a promise)
    have hleft : (f.opened id a promise).attempts[id]? =
        some { a with promise := promise, link := some ⟨f.newSession a, .fresh codec⟩ } :=
      attempts_modify_self ha _
    obtain ⟨b, hb, hquiet⟩ := hrun.attempt hleft
    have hcalled := hopened.quiet hrun
    generalize callbacks.foldl (runCallback id) (f.opened id a promise) = g at hb hcalled
    have hlive : g.Lives id a.run := ⟨b, hb, hquiet.run, hquiet.ended.trans hended⟩
    have hmarked := hcalled.of_tidy (hcalled.tidy.markOpened hlive) rfl
    have hsame : ∀ c : Attempt codec, g.attempts[id]? = some c → c = b :=
      fun c hc => Option.some.inj (hc.symm.trans hb)
    have htidy : ((g.modifyConnector a.run (·.markOpened id)).modify id fun a =>
        { a with stage := .carrying .running }).Tidy := by
      refine hmarked.tidy.modify fun c hc => ⟨rfl, rfl, ?_⟩
      rw [hsame c hc]
      exact (hquiet.ended.trans hended).symm
    have hset := hmarked.modify htidy
    have hb' : (g.modifyConnector a.run (·.markOpened id)).attempts[id]? = some b := hb
    refine hset.complete fun c hc => ?_
    obtain rfl := Option.some.inj ((attempts_modify_self hb' _).symm.trans hc)
    have hsession : b.session? = some (f.newSession a).id := hquiet.session
    have hcompleted : b.promise.isCompleted = true := by
      rw [hquiet.completed]
      simp [Promise.isCompleted, hsome, Outcome.isCompleted]
    have hends : b.ends = 0 := by
      have hbefore := horderly.ends
      rw [hended, Bool.false_and, if_neg Bool.false_ne_true] at hbefore
      exact hquiet.ends.trans hbefore
    exact ⟨Attempt.orderly_carrying (congrArg Option.isSome hsession) hcompleted hends hquiet.closed _,
      fun _ hover => by cases hover⟩

theorem Clean.establish (h : Clean accepted none f) (id : ChannelId) (engine : Except Fault Unit) :
    Clean accepted none (f.establish id engine) := by
  unfold Factory.establish
  split
  · exact h
  · rename_i a ha
    split
    · rename_i hstage _
      exact h.construct ha (by rw [hstage]; rfl)
    · rename_i hstage _
      exact h.abort ha (by rw [hstage]; rfl) _
    · rename_i hstage _
      have hput : Tidy { f with
          negotiations := f.negotiations.put id (f.clientOf a).negotiator } := by
        refine h.tidy.negotiate fun handler hhandler => ?_
        rcases List.mem_append.mp hhandler with hhandler | hhandler
        · exact Or.inl (List.mem_filter.mp hhandler).1
        · obtain rfl := List.mem_singleton.mp hhandler
          exact Or.inr ⟨a.run, a, ha, rfl, by rw [hstage]; rfl⟩
      refine (h.of_tidy hput rfl).quiet (quiet_modify fun b hb => ?_)
      obtain rfl := Option.some.inj (ha.symm.trans hb)
      exact { Attempt.Quiet.refl a with
        waiting := by rw [hstage]; rfl
        ended := by rw [hstage]; rfl }
    · exact h

theorem Clean.secured (h : Clean accepted none f) (id : ChannelId)
    (handshake : Except Fault (Option Bytes)) : Clean accepted none (f.secured id handshake) := by
  unfold Factory.secured
  split
  · exact h
  · rename_i a ha
    split
    · rename_i hstage
      exact h.abort ha (by rw [hstage]; rfl) _
    · rename_i hstage
      dsimp only
      obtain ⟨b, hb, hquiet⟩ := (quiet_touch f id).attempt ha
      have htouched := h.quiet (quiet_touch f id)
      have herased : Tidy { f.touch id with negotiations := ((f.touch id).negotiations.take id).2 } :=
        htouched.tidy.negotiate fun handler hhandler => Or.inl (List.mem_filter.mp hhandler).1
      have htaken := htouched.of_tidy herased rfl
      have hwaiting : b.stage.isWaiting = true := by rw [hquiet.waiting, hstage]; rfl
      split
      · exact htaken.abort hb hwaiting _
      · split
        · exact htaken.abort hb hwaiting _
        · exact htaken.construct hb hwaiting
    · exact h

theorem Clean.dialed (h : Clean accepted none f) (id : ChannelId) (answer : Except Fault Address) :
    Clean accepted none (f.dialed id answer) := by
  unfold Factory.dialed
  split
  · exact h
  · rename_i a ha
    split
    · rename_i hdialing
      have hstage : a.stage = .dialing := by
        cases hstage : a.stage <;> simp_all [Stage.isDialing]
      split
      · exact h.abort ha (by rw [hstage]; rfl) _
      · dsimp only
        refine ((h.quiet (quiet_modify fun b hb => ?_)).quiet (quiet_touch _ id)).quiet
          (quiet_arm _ id)
        obtain rfl := Option.some.inj (ha.symm.trans hb)
        exact { Attempt.Quiet.refl a with
          waiting := by rw [hstage]; rfl
          ended := by rw [hstage]; rfl }
    · exact h

/-! ### Attempts begin -/

theorem Clean.start (h : Clean accepted none f) (executor : Except Fault Unit) :
    Clean accepted none (f.start executor).2 := by
  refine h.of_tidy (h.tidy.start executor) ?_
  unfold Factory.start
  split <;> rfl

theorem orderly_newcomer (f : Factory codec) (run client : Nat) (peer : Address)
    (listener : Session.Listener) {stage : Stage} (hstage : stage = .dialing ∨ stage = .ended) :
    ({ f.newcomer run client peer listener with stage := stage } : Attempt codec).Orderly := by
  rcases hstage with rfl | rfl
  · exact ⟨rfl, fun _ => rfl, nofun, rfl, fun _ => nofun⟩
  · exact ⟨rfl, nofun, fun _ => nofun, rfl, nofun⟩

/-- An attempt begins, or was refused and is over. -/
theorem Clean.register (h : Clean accepted none f) {run client : Nat} {peer : Address}
    {listener : Session.Listener} {result : Except Fault Unit} {new : List ChannelId}
    (heq : f.register run client peer listener = (result, f'))
    (hnew : ∀ id ∈ new, result = .ok () ∧ id = f.attempts.length) :
    Clean (accepted ++ new) none f' := by
  have htidy := h.tidy.register heq
  obtain ⟨stage, connectors, rfl, hstage, -⟩ := register_eq heq
  have hknown : ∀ id ∈ accepted, id < f.attempts.length := by
    intro id hid
    obtain ⟨a, ha⟩ := h.known id hid
    exact (List.getElem?_eq_some_iff.mp ha).1
  refine ⟨htidy, fun id hid => ?_, fun id a _ ha => ?_⟩
  · rcases List.mem_append.mp hid with hid | hid
    · exact ⟨_, List.getElem?_eq_getElem (by
        rw [List.length_append]
        exact Nat.lt_add_right _ (hknown id hid))⟩
    · obtain ⟨-, rfl⟩ := hnew id hid
      exact ⟨_, List.getElem?_concat_length⟩
  · rcases Nat.lt_or_ge id f.attempts.length with hlt | hge
    · have hold : f.attempts[id]? = some a := (List.getElem?_append_left hlt).symm.trans ha
      obtain ⟨horderly, hsettled⟩ := h.attempt hold
      refine ⟨horderly, fun hid => ?_⟩
      rcases List.mem_append.mp hid with hid | hid
      · exact hsettled hid
      · exact absurd (hnew id hid).2 (Nat.ne_of_lt hlt)
    · have hlast := (List.getElem?_append_right hge).symm.trans ha
      obtain rfl := List.mem_singleton.mp (List.mem_of_getElem? hlast)
      refine ⟨orderly_newcomer f run client peer listener ?_, fun hid hended => ?_⟩
      · exact hstage.imp And.right And.right
      · rcases List.mem_append.mp hid with hid | hid
        · exact absurd (hknown id hid) (Nat.not_lt.mpr hge)
        · obtain ⟨hok, -⟩ := hnew id hid
          rcases hstage with ⟨-, rfl⟩ | ⟨⟨cause, hcause⟩, -⟩
          · cases hended
          · cases hok.symm.trans hcause

end Factory

end SpdySessions
