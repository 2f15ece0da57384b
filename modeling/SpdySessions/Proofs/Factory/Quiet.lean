import SpdySessions.Proofs.Factory.Stopping
import SpdySessions.Proofs.Factory.Steps

/-! Quiet changes. Most of what happens to a factory neither begins nor ends an attempt, nor a session:
channels close, promises fail, calls are made, time passes, and a stop empties the books and the set of
sessions. A quiet change is one of these; it is shown of every operation from those that it is made of. -/

namespace SpdySessions

namespace Stage

def isEnded : Stage → Bool
  | ended => true
  | _ => false

end Stage

/-- The channel stands in the books. -/
def Connector.Tracks (c : Connector) (id : ChannelId) : Prop :=
  id ∈ c.channels ∨ id ∈ c.pending ∨ id ∈ c.opened

namespace Attempt

variable {codec : HeaderCodec}

/-- How often the listener was told that the connection has ended. -/
def ends (a : Attempt codec) : Nat :=
  a.told.countP Session.Entry.isEnd

/-- A change of an attempt that goes on as it does, or is over already. -/
structure Quiet (a a' : Attempt codec) : Prop where
  run : a'.run = a.run
  waiting : a'.stage.isWaiting = a.stage.isWaiting
  ended : a'.stage.isEnded = a.stage.isEnded
  ends : a'.ends = a.ends
  session : a'.session? = a.session?
  closed : a'.link.map (·.session.closed) = a.link.map (·.session.closed)
  completed : a'.promise.isCompleted = a.promise.isCompleted
  done : a.promise.isDone = true → a'.promise.isDone = true
  channel : a.channel.isOpen = false → a'.channel.isOpen = false

variable {a a' a'' : Attempt codec}

theorem Quiet.refl (a : Attempt codec) : a.Quiet a :=
  ⟨rfl, rfl, rfl, rfl, rfl, rfl, rfl, fun h => h, fun h => h⟩

theorem Quiet.trans (h : a.Quiet a') (h' : a'.Quiet a'') : a.Quiet a'' where
  run := h'.run.trans h.run
  waiting := h'.waiting.trans h.waiting
  ended := h'.ended.trans h.ended
  ends := h'.ends.trans h.ends
  session := h'.session.trans h.session
  closed := h'.closed.trans h.closed
  completed := h'.completed.trans h.completed
  done := fun hdone => h'.done (h.done hdone)
  channel := fun hclosed => h'.channel (h.channel hclosed)

/-- Callbacks that are told that there is no session can only close the channel. -/
theorem quiet_disappoint (a : Attempt codec) (callbacks : List Callback) (sessions : Nat) :
    a.Quiet (a.disappoint callbacks sessions) := by
  refine { Quiet.refl a with channel := fun hclosed => ?_ }
  rw [disappoint]
  split
  · rfl
  · exact hclosed

end Attempt

namespace Factory

variable {codec : HeaderCodec} {f f' f'' : Factory codec} {id : ChannelId}

/-- No attempt and no session begins or ends, except that all sessions may be forgotten at once. The
books may lose entries. -/
structure Quiet (f f' : Factory codec) : Prop where
  attempts : ∀ id : ChannelId, (f.attempts[id]? = none ∧ f'.attempts[id]? = none) ∨
    ∃ a a' : Attempt codec, f.attempts[id]? = some a ∧ f'.attempts[id]? = some a' ∧ a.Quiet a'
  books : ∀ (run : Nat) (c' : Connector) (id : ChannelId), f'.connectors[run]? = some c' →
    c'.Tracks id → ∃ c, f.connectors[run]? = some c ∧ c.Tracks id
  negotiations : f'.negotiations = f.negotiations
  made : f'.sessionsMade = f.sessionsMade
  sessions : f'.sessions = [] ∨ (f'.sessions = f.sessions ∧ f'.isRunning = f.isRunning)

theorem Quiet.refl (f : Factory codec) : f.Quiet f where
  attempts := by
    intro id
    cases ha : f.attempts[id]? with
    | none => exact Or.inl ⟨rfl, rfl⟩
    | some a => exact Or.inr ⟨a, a, rfl, rfl, .refl a⟩
  books := fun _ c _ hc htracks => ⟨c, hc, htracks⟩
  negotiations := rfl
  made := rfl
  sessions := Or.inr ⟨rfl, rfl⟩

theorem Quiet.trans (h : f.Quiet f') (h' : f'.Quiet f'') : f.Quiet f'' where
  attempts := by
    intro id
    rcases h.attempts id with ⟨ha, ha'⟩ | ⟨a, a', ha, ha', hq⟩
    · rcases h'.attempts id with ⟨-, ha''⟩ | ⟨b, -, hb, -⟩
      · exact Or.inl ⟨ha, ha''⟩
      · cases ha'.symm.trans hb
    · rcases h'.attempts id with ⟨hb, -⟩ | ⟨b, a'', hb, ha'', hq'⟩
      · cases ha'.symm.trans hb
      · obtain rfl := Option.some.inj (ha'.symm.trans hb)
        exact Or.inr ⟨a, a'', ha, ha'', hq.trans hq'⟩
  books := by
    intro run c'' id hc'' htracks
    obtain ⟨c', hc', htracks'⟩ := h'.books run c'' id hc'' htracks
    exact h.books run c' id hc' htracks'
  negotiations := h'.negotiations.trans h.negotiations
  made := h'.made.trans h.made
  sessions := by
    rcases h'.sessions with hnone | ⟨hsame, hrunning⟩
    · exact Or.inl hnone
    · rcases h.sessions with hnone | ⟨hsame', hrunning'⟩
      · exact Or.inl (hsame.trans hnone)
      · exact Or.inr ⟨hsame.trans hsame', hrunning.trans hrunning'⟩

theorem Quiet.foldl {α : Type} {g : Factory codec → α → Factory codec}
    (h : ∀ (f : Factory codec) (x : α), f.Quiet (g f x)) (xs : List α) (f : Factory codec) :
    f.Quiet (xs.foldl g f) := by
  induction xs generalizing f with
  | nil => exact .refl f
  | cons x xs ih => exact (h f x).trans (ih (g f x))

theorem Quiet.attempt (h : f.Quiet f') {a : Attempt codec} (ha : f.attempts[id]? = some a) :
    ∃ a', f'.attempts[id]? = some a' ∧ a.Quiet a' := by
  rcases h.attempts id with ⟨hnone, -⟩ | ⟨b, a', hb, ha', hq⟩
  · cases ha.symm.trans hnone
  · obtain rfl := Option.some.inj (ha.symm.trans hb)
    exact ⟨a', ha', hq⟩

theorem Quiet.before (h : f.Quiet f') {a' : Attempt codec} (ha' : f'.attempts[id]? = some a') :
    ∃ a, f.attempts[id]? = some a ∧ a.Quiet a' := by
  rcases h.attempts id with ⟨-, hnone⟩ | ⟨a, b, ha, hb, hq⟩
  · cases ha'.symm.trans hnone
  · obtain rfl := Option.some.inj (ha'.symm.trans hb)
    exact ⟨a, ha, hq⟩

/-! ### Changes in one place -/

/-- Clients, schedulers, the pool and the configuration are nobody's attempt. -/
theorem quiet_of_same (hattempts : f'.attempts = f.attempts) (hconnectors : f'.connectors = f.connectors)
    (hnegotiations : f'.negotiations = f.negotiations) (hmade : f'.sessionsMade = f.sessionsMade)
    (hsessions : f'.sessions = f.sessions) (hrunning : f'.isRunning = f.isRunning) : f.Quiet f' where
  attempts := by
    rw [hattempts]
    exact (Quiet.refl f).attempts
  books := by
    rw [hconnectors]
    exact (Quiet.refl f).books
  negotiations := hnegotiations
  made := hmade
  sessions := Or.inr ⟨hsessions, hrunning⟩

theorem quiet_modify {change : Attempt codec → Attempt codec}
    (h : ∀ a : Attempt codec, f.attempts[id]? = some a → a.Quiet (change a)) :
    f.Quiet (f.modify id change) where
  attempts := by
    intro other
    rw [attempts_modify]
    cases ha : f.attempts[other]? with
    | none => exact Or.inl ⟨rfl, rfl⟩
    | some a =>
        refine Or.inr ⟨a, _, rfl, rfl, ?_⟩
        show a.Quiet (if id = other then change a else a)
        by_cases hid : id = other
        · rw [if_pos hid]
          exact h a (hid ▸ ha)
        · rw [if_neg hid]
          exact .refl a
  books := (Quiet.refl f).books
  negotiations := rfl
  made := rfl
  sessions := Or.inr ⟨rfl, rfl⟩

theorem quiet_modifyConnector {run : Nat} {change : Connector → Connector}
    (h : ∀ c id, (change c).Tracks id → c.Tracks id) : f.Quiet (f.modifyConnector run change) where
  attempts := (Quiet.refl f).attempts
  books := by
    intro other c' id hc' htracks
    rw [connectors_modifyConnector] at hc'
    obtain ⟨c, hc, rfl⟩ := Option.map_eq_some_iff.mp hc'
    refine ⟨c, hc, ?_⟩
    by_cases hother : run = other
    · rw [if_pos hother] at htracks
      exact h c id htracks
    · rwa [if_neg hother] at htracks
  negotiations := rfl
  made := rfl
  sessions := Or.inr ⟨rfl, rfl⟩

/-! ### Channels, promises and calls -/

theorem quiet_close (f : Factory codec) (id : ChannelId) : f.Quiet (f.close id).2 :=
  quiet_modify fun a _ => { Attempt.Quiet.refl a with channel := fun _ => rfl }

theorem quiet_note (f : Factory codec) (id : ChannelId) (entry : Callback.Entry) :
    f.Quiet (f.note id entry) :=
  quiet_modify fun a _ => { Attempt.Quiet.refl a with }

theorem endpoint?_eq_some {e : Endpoint codec} (h : f.endpoint? id = some e) :
    ∃ a, f.attempts[id]? = some a ∧ a.link = some e.toLink ∧ a.channel.isOpen = e.channelOpen := by
  unfold endpoint? at h
  split at h
  · cases h
  · rename_i a ha
    obtain ⟨link, hlink, rfl⟩ := Option.map_eq_some_iff.mp h
    exact ⟨a, ha, hlink, rfl⟩

/-- An endpoint is put back whose session is the same and has not been told of its end. -/
theorem quiet_setEndpoint {e e' : Endpoint codec} (he : f.endpoint? id = some e)
    (hid : e'.session.id = e.session.id) (hclosed : e'.session.closed = e.session.closed)
    (hchannel : e.channelOpen = false → e'.channelOpen = false) : f.Quiet (f.setEndpoint id e') := by
  obtain ⟨a, ha, hlink, hopen⟩ := endpoint?_eq_some he
  have hpool : f.Quiet { f with pool := e'.pool } := quiet_of_same rfl rfl rfl rfl rfl rfl
  refine hpool.trans (quiet_modify fun b hb => ?_)
  obtain rfl := Option.some.inj (ha.symm.trans hb)
  refine
    { Attempt.Quiet.refl a with session := ?_, closed := ?_, channel := fun h => hchannel (hopen ▸ h) }
  · simp [Attempt.session?, hlink, hid]
  · simp [hlink, hclosed]

theorem quiet_call (f : Factory codec) (id : ChannelId) (c : Session.Call) :
    f.Quiet (f.call id c).2 := by
  unfold call
  split
  · exact .refl f
  · rename_i e he
    have hserves := e.serves_call c
    exact quiet_setEndpoint he hserves.id hserves.closed hserves.channel

/-- Without a session there is no completed promise, before or after. -/
theorem quiet_refuse (f : Factory codec) (id : ChannelId) {outcome : Outcome SessionId}
    (hnone : outcome.isCompleted = false) : f.Quiet (f.refuse id outcome).2 := by
  unfold refuse
  split
  · exact .refl f
  · rename_i a ha
    split
    · exact .refl f
    · rename_i callbacks promise hsettle
      obtain ⟨hpending, hsome⟩ := of_settle? hsettle
      refine quiet_modify fun b hb => ?_
      obtain rfl := Option.some.inj (ha.symm.trans hb)
      have hsettled : a.Quiet { a with promise := promise } := by
        refine { Attempt.Quiet.refl a with completed := ?_, done := fun _ => ?_ }
        · simp [Promise.isCompleted, hpending, hsome, hnone]
        · simp [Promise.isDone, hsome]
      exact hsettled.trans (Attempt.quiet_disappoint _ callbacks f.sessionCount)

theorem quiet_fail (f : Factory codec) (id : ChannelId) (cause : Fault) : f.Quiet (f.fail id cause) :=
  quiet_refuse f id rfl

theorem quiet_cancel (f : Factory codec) (id : ChannelId) : f.Quiet (f.cancel id).2 := by
  have hrefuse : f.Quiet (f.refuse id .cancelled).2 := quiet_refuse f id rfl
  unfold cancel
  dsimp only
  split
  · exact hrefuse
  · exact hrefuse.trans (quiet_close _ id)

/-! ### Stops -/

theorem quiet_farewell (f : Factory codec) (session : SessionId) : f.Quiet (f.farewell session) := by
  unfold farewell
  split
  · exact .refl f
  · exact quiet_call f _ .goAway

theorem quiet_retire (f : Factory codec) : f.Quiet f.retire :=
  { Quiet.foldl quiet_farewell f.sessions f with sessions := Or.inl rfl }

theorem farewell_markStopping (f : Factory codec) (session : SessionId) :
    f.markStopping.farewell session = (f.farewell session).markStopping := by
  have hholder : f.markStopping.holder? session = f.holder? session := rfl
  unfold farewell
  rw [hholder]
  cases f.holder? session with
  | none => rfl
  | some id =>
      have hendpoint : f.markStopping.endpoint? id = f.endpoint? id := rfl
      simp only [call, hendpoint]
      cases f.endpoint? id with
      | none => rfl
      | some e => rfl

/-- Nobody who says farewell looks at the lifecycle. -/
theorem retire_markStopping (f : Factory codec) : f.markStopping.retire = f.retire.markStopping := by
  have hfold : ∀ (sessions : List SessionId) (f : Factory codec),
      sessions.foldl farewell f.markStopping = (sessions.foldl farewell f).markStopping := by
    intro sessions
    induction sessions with
    | nil => exact fun _ => rfl
    | cons session rest ih => exact fun f => by rw [List.foldl_cons, farewell_markStopping, ih]; rfl
  have hsessions : f.markStopping.sessions = f.sessions := rfl
  unfold retire
  rw [hsessions, hfold]
  rfl

/-- Once there are no sessions, the lifecycle may change as it likes. -/
theorem quiet_lifecycle (hnone : f.sessions = []) (lifecycle : Lifecycle) :
    f.Quiet { f with lifecycle := lifecycle } :=
  { Quiet.refl f with sessions := Or.inl hnone }

theorem quiet_stopConnector (f : Factory codec) (run : Nat) : f.Quiet (f.stopConnector run) := by
  cases hc : f.connectors[run]? with
  | none =>
      simp only [stopConnector, hc]
      exact .refl f
  | some c =>
      by_cases hrunning : c.running = true
      · rw [stopConnector_eq hc hrunning]
        refine ((Quiet.foldl (fun f id => quiet_fail f id .notRunning) c.pending f).trans
          (Quiet.foldl quiet_close c.channels _)).trans (quiet_modifyConnector fun _ id htracks => ?_)
        rcases htracks with h | h | h <;> cases h
      · simp only [stopConnector, hc, hrunning]
        exact .refl f

theorem quiet_takeDown (f : Factory codec) (component : Component) :
    f.Quiet (f.takeDown component) := by
  unfold takeDown
  split
  · exact quiet_modifyConnector fun _ _ h => h
  · exact quiet_of_same rfl rfl rfl rfl rfl rfl
  · exact quiet_stopConnector f component.run

theorem quiet_takeAllDown (f : Factory codec) : f.Quiet f.takeAllDown.2 := by
  have hlifecycle : f.Quiet { f with lifecycle := f.lifecycle.takeDown.2 } :=
    quiet_of_same rfl rfl rfl rfl rfl rfl
  exact hlifecycle.trans (Quiet.foldl quiet_takeDown f.lifecycle.takeDown.1 _)

/-- A whole stop is quiet, though its first moment is not: there are sessions then, and the factory does
not run. -/
theorem quiet_stop (f : Factory codec) : f.Quiet f.stop.2 := by
  unfold stop
  split
  · rw [retire_markStopping]
    have hretired : f.Quiet f.retire.markStopping :=
      (quiet_retire f).trans (quiet_lifecycle rfl _)
    have hdown := quiet_takeAllDown f.retire.markStopping
    have hnone : f.retire.markStopping.takeAllDown.2.sessions = [] := by
      rcases hdown.sessions with hnone | ⟨hsame, -⟩
      · exact hnone
      · exact hsame
    exact (hretired.trans hdown).trans (quiet_lifecycle hnone _)
  · exact .refl f

/-! ### Callbacks -/

theorem quiet_perform (f : Factory codec) (id : ChannelId) (deed : Deed) :
    f.Quiet (f.perform id deed).2 := by
  cases deed with
  | call c =>
      have hcall := quiet_call f id c
      unfold perform
      dsimp only
      split
      · rename_i heq
        rw [heq] at hcall
        exact hcall
      · rename_i heq
        rw [heq] at hcall
        exact hcall
  | cancel => exact quiet_cancel f id
  | count => exact .refl f
  | stop => exact quiet_stop f

theorem quiet_runCallback (id : ChannelId) (f : Factory codec) (callback : Callback) :
    f.Quiet (runCallback id f callback) := by
  refine (quiet_note f id _).trans (Quiet.foldl (fun f deed => ?_) callback.deeds _)
  exact (quiet_perform f id deed).trans (quiet_note _ id _)

theorem quiet_onComplete (f : Factory codec) (id : ChannelId) (callback : Callback) :
    f.Quiet (f.onComplete id callback.toProgram callback.retreats) := by
  unfold onComplete
  split
  · exact .refl f
  · rename_i a ha
    dsimp only
    split
    · rename_i promise hregister
      refine quiet_modify fun b hb => ?_
      obtain rfl := Option.some.inj (ha.symm.trans hb)
      have hsame : promise.outcome = a.promise.outcome := by
        unfold Promise.register at hregister
        split at hregister
        · cases hregister
        · obtain rfl := (Prod.mk.inj hregister).2
          rfl
      refine { Attempt.Quiet.refl a with completed := ?_, done := ?_ }
      · simp [Promise.isCompleted, hsame]
      · simp [Promise.isDone, hsame]
    · exact quiet_runCallback id f callback
    · exact quiet_modify fun b _ => b.quiet_disappoint [callback] f.sessionCount

/-! ### Time -/

theorem quiet_touch (f : Factory codec) (id : ChannelId) : f.Quiet (f.touch id) := by
  unfold touch
  cases f.attempts[id]? with
  | none => exact .refl f
  | some a => exact quiet_modify fun b _ => { Attempt.Quiet.refl b with }

theorem quiet_schedulers (f : Factory codec) (schedulers : List (Scheduler ChannelId)) :
    f.Quiet { f with schedulers := schedulers } :=
  quiet_of_same rfl rfl rfl rfl rfl rfl

theorem quiet_plans (h : f.Plans id f') : f.Quiet f' := by
  cases h with
  | nothing => exact .refl f
  | look => exact quiet_schedulers f _

theorem quiet_arm (f : Factory codec) (id : ChannelId) : f.Quiet (f.arm id) :=
  quiet_plans (plans_arm f id)

theorem quiet_look (f : Factory codec) (id : ChannelId) (now : Nat) : f.Quiet (f.look id now) := by
  cases hidles : f.idles id now with
  | true => exact look_of_idles hidles ▸ quiet_close f id
  | false => exact quiet_plans (plans_look hidles)

theorem quiet_fire (f : Factory codec) (run : Nat) : f.Quiet (f.fire run) := by
  unfold fire
  split
  · exact .refl f
  · split
    · exact .refl f
    · apply Quiet.trans (quiet_schedulers f _)
      exact quiet_look _ _ _

end Factory

end SpdySessions
