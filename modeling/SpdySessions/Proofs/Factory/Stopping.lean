import SpdySessions.Proofs.Factory.Keeping
import SpdySessions.Proofs.Session.Calls

/-! Starting and stopping. A start changes nobody's session. A stop lets the open ones say farewell: the
session of an attempt is found by its number, and a farewell changes the attempt that has it and no
number, so one farewell after the other reaches each session that somebody holds once, and no other. -/

namespace SpdySessions

/-- The session of a link has been asked for its farewell once; the buffer may come from any pool. -/
def Link.Farewelled {codec : HeaderCodec} (link link' : Link codec) : Prop :=
  ∃ pool channelOpen, link' = (Endpoint.goAway { link with pool, channelOpen }).2.toLink

namespace Attempt

variable {codec : HeaderCodec}

/-- The number of the session, if there is one. -/
def session? (a : Attempt codec) : Option SessionId :=
  a.link.map (·.session.id)

/-- An attempt that was asked for its farewell once. -/
def Farewelled (a a' : Attempt codec) : Prop :=
  ∃ link link', a.link = some link ∧ a'.link = some link' ∧ link.Farewelled link'

end Attempt

namespace Factory

variable {codec : HeaderCodec} {f : Factory codec} {id : ChannelId} {session : SessionId}

/-- What one step of a fold leaves alone, the fold leaves alone. -/
theorem foldl_same {α γ : Type} {g : Factory codec → α → Factory codec} (part : Factory codec → γ)
    (h : ∀ f x, part (g f x) = part f) (xs : List α) (f : Factory codec) :
    part (xs.foldl g f) = part f := by
  induction xs generalizing f with
  | nil => rfl
  | cons x xs ih => rw [List.foldl_cons, ih, h]

/-! ### Starts -/

variable {f' : Factory codec}

theorem start_of_running (h : f.isRunning = true) (executor : Except Fault Unit) :
    f.start executor = (.ok [], f) := by
  have hrunning : f.lifecycle.isRunning = true := h
  simp only [start, Lifecycle.start, hrunning, if_true]

theorem stop_of_not_running (h : f.isRunning = false) : f.stop = ([], f) := by
  simp [stop, h]

theorem stop_of_running (h : f.isRunning = true) :
    f.stop.2 = f.markStopping.retire.takeAllDown.2.markStopped := by
  simp [stop, h]

theorem sessions_start (f : Factory codec) (executor : Except Fault Unit) :
    (f.start executor).2.sessions = f.sessions := by
  unfold start
  split <;> rfl

theorem not_running_of_start_error {executor : Except Fault Unit} {fault : Fault}
    (h : f.start executor = (.error fault, f')) : f'.isRunning = false := by
  unfold start at h
  split at h
  · rename_i lifecycle hstart
    obtain rfl := (Prod.mk.inj h).2
    unfold Lifecycle.start at hstart
    split at hstart
    · cases hstart
    · unfold Lifecycle.setUp at hstart
      split at hstart
      · obtain rfl := (Prod.mk.inj hstart).2
        rfl
      · cases hstart
  · cases h
  · cases h

/-! ### Who holds a session -/

theorem session?_of_holder? (h : f.holder? session = some id) :
    ∃ a, f.attempts[id]? = some a ∧ a.session? = some session := by
  obtain ⟨hid, hholds, -⟩ := List.findIdx?_eq_some_iff_getElem.mp h
  refine ⟨f.attempts[id], List.getElem?_eq_getElem hid, ?_⟩
  cases hlink : f.attempts[id].link with
  | none => simp [hlink] at hholds
  | some link => simpa [Attempt.session?, hlink] using hholds

/-- Who holds a session depends on nothing but the numbers of the sessions. -/
theorem holder?_congr {f' : Factory codec}
    (h : f'.attempts.map Attempt.session? = f.attempts.map Attempt.session?) (session : SessionId) :
    f'.holder? session = f.holder? session := by
  have hholder : ∀ f : Factory codec, f.holder? session =
      (f.attempts.map Attempt.session?).findIdx? (·.any (· = session)) := by
    intro f
    rw [List.findIdx?_map]
    unfold holder?
    congr 1
    funext a
    cases hlink : a.link <;> simp [Attempt.session?, hlink]
  rw [hholder, hholder, h]

/-! ### One farewell -/

/-- A farewell reaches the attempt that has the session and leaves the others as they are. -/
theorem attempts_farewell {a : Attempt codec} (ha : f.attempts[id]? = some a) (session : SessionId) :
    ∃ a', (f.farewell session).attempts[id]? = some a' ∧ a'.session? = a.session? ∧
      (f.holder? session = some id → a.Farewelled a') ∧ (f.holder? session ≠ some id → a' = a) := by
  cases hholder : f.holder? session with
  | none =>
      refine ⟨a, ?_, rfl, fun h => ?_, fun _ => rfl⟩
      · simpa only [farewell, hholder] using ha
      · cases h
  | some holder =>
      obtain ⟨b, hb, hsession⟩ := session?_of_holder? hholder
      obtain ⟨link, hlink, -⟩ := Option.map_eq_some_iff.mp hsession
      have hendpoint : f.endpoint? holder =
          some { link with pool := f.pool, channelOpen := b.channel.isOpen } := by
        simp only [endpoint?, hb, hlink, Option.map_some]
      simp only [farewell, hholder, call, hendpoint, Endpoint.call, setEndpoint, attempts_modify, ha,
        Option.map_some]
      by_cases hid : holder = id
      · subst hid
        obtain rfl := Option.some.inj (ha.symm.trans hb)
        refine ⟨_, rfl, ?_, fun _ => ?_, fun h => absurd rfl h⟩
        · rw [if_pos rfl, hsession, Attempt.session?, Option.map_some, (Endpoint.serves_goAway _).id]
          simpa [Attempt.session?, hlink] using hsession
        · rw [if_pos rfl]
          exact ⟨link, _, hlink, rfl, f.pool, a.channel.isOpen, rfl⟩
      · refine ⟨a, ?_, rfl, fun h => absurd (Option.some.inj h) hid, fun _ => rfl⟩
        rw [if_neg hid]

theorem attempts_farewell_none (ha : f.attempts[id]? = none) (session : SessionId) :
    (f.farewell session).attempts[id]? = none := by
  unfold farewell
  split
  · exact ha
  · unfold call
    split
    · exact ha
    · simp only [setEndpoint, attempts_modify, ha, Option.map_none]

theorem holder?_farewell (f : Factory codec) (session other : SessionId) :
    (f.farewell session).holder? other = f.holder? other := by
  refine holder?_congr (List.ext_getElem? fun id => ?_) other
  rw [List.getElem?_map, List.getElem?_map]
  cases ha : f.attempts[id]? with
  | none => rw [attempts_farewell_none ha]
  | some a =>
      obtain ⟨a', ha', hsession, -⟩ := attempts_farewell ha session
      rw [ha', Option.map_some, Option.map_some, hsession]

/-! ### All farewells -/

/-- Different sessions have different holders, so nobody is asked twice. -/
theorem attempts_farewells {sessions : List SessionId} (hnodup : sessions.Nodup) {a : Attempt codec}
    (ha : f.attempts[id]? = some a) :
    ∃ a', (sessions.foldl farewell f).attempts[id]? = some a' ∧
      ((∃ session ∈ sessions, f.holder? session = some id) → a.Farewelled a') ∧
      ((∀ session ∈ sessions, f.holder? session ≠ some id) → a' = a) := by
  induction sessions generalizing f a with
  | nil =>
      refine ⟨a, ha, ?_, fun _ => rfl⟩
      rintro ⟨session, hsession, -⟩
      cases hsession
  | cons first rest ih =>
      obtain ⟨hfirst, hrest⟩ := List.nodup_cons.mp hnodup
      obtain ⟨a', ha', -, htold, hleft⟩ := attempts_farewell ha first
      obtain ⟨a'', ha'', htold', hleft'⟩ := ih hrest ha'
      simp only [holder?_farewell] at htold' hleft'
      refine ⟨a'', ha'', ?_, fun hnone => ?_⟩
      · rintro ⟨session, hsession, hholder⟩
        by_cases hnow : f.holder? first = some id
        · -- Nobody later in the list has this holder: it has one session.
          have hothers : ∀ other ∈ rest, f.holder? other ≠ some id := by
            intro other hother hholds
            obtain ⟨b, hb, hfirst'⟩ := session?_of_holder? hnow
            obtain ⟨b', hb', hother'⟩ := session?_of_holder? hholds
            obtain rfl := Option.some.inj (hb.symm.trans hb')
            exact hfirst (Option.some.inj (hfirst'.symm.trans hother') ▸ hother)
          rw [hleft' hothers]
          exact htold hnow
        · rcases List.mem_cons.mp hsession with rfl | hsession
          · exact absurd hholder hnow
          · rw [← hleft hnow]
            exact htold' ⟨session, hsession, hholder⟩
      · rw [hleft' fun session hsession => hnone session (List.mem_cons_of_mem first hsession)]
        exact hleft (hnone first List.mem_cons_self)

/-! ### Components -/

section

variable {γ : Type} (part : Factory codec → γ)

theorem refuse_same
    (h : ∀ f id promise callbacks sessions, part (modify f id fun a =>
      { a with promise := promise }.disappoint callbacks sessions) = part f)
    (f : Factory codec) (id : ChannelId) (outcome : Outcome SessionId) :
    part (f.refuse id outcome).2 = part f := by
  unfold refuse
  split
  · rfl
  · split
    · rfl
    · exact h f id _ _ _

theorem call_same (h : ∀ f id e, part (setEndpoint f id e) = part f) (f : Factory codec)
    (id : ChannelId) (c : Session.Call) : part (f.call id c).2 = part f := by
  unfold call
  split
  · rfl
  · exact h f id _

theorem cancel_same (hrefuse : ∀ f id, part (refuse f id .cancelled).2 = part f)
    (hclose : ∀ f id, part (close f id).2 = part f) (f : Factory codec) (id : ChannelId) :
    part (f.cancel id).2 = part f := by
  unfold cancel
  dsimp only
  split
  · exact hrefuse f id
  · exact (hclose _ id).trans (hrefuse f id)

theorem farewell_same (h : ∀ f id c, part (call f id c).2 = part f) (f : Factory codec)
    (session : SessionId) : part (f.farewell session) = part f := by
  unfold farewell
  split
  · rfl
  · exact h f _ _

theorem stopConnector_same (hconnector : ∀ f run change, part (modifyConnector f run change) = part f)
    (hfail : ∀ f id cause, part (fail f id cause) = part f)
    (hclose : ∀ f id, part (close f id).2 = part f) (f : Factory codec) (run : Nat) :
    part (f.stopConnector run) = part f := by
  unfold stopConnector
  split
  · rfl
  · rename_i connector _
    split
    · exact (foldl_same part hclose connector.channels _).trans
        ((foldl_same part (fun f id => hfail f id .notRunning) connector.pending _).trans
          (hconnector f run Connector.stop))
    · rfl

end

section

variable {γ : Type} {part : Factory codec → γ}

/-- A part of a factory that stays when components are taken down: the switches of components change
then, promises fail and channels close. -/
structure Outlasts (part : Factory codec → γ) : Prop where
  connector : ∀ f run change, part (modifyConnector f run change) = part f
  scheduler : ∀ f run, part { f with schedulers := f.schedulers.modify run Scheduler.stop } = part f
  fail : ∀ f id cause, part (fail f id cause) = part f
  close : ∀ f id, part (close f id).2 = part f

theorem Outlasts.takeDown (h : Outlasts part) (f : Factory codec) (component : Component) :
    part (f.takeDown component) = part f := by
  unfold Factory.takeDown
  split
  · exact h.connector f _ _
  · exact h.scheduler f _
  · exact stopConnector_same part h.connector h.fail h.close f _

theorem Outlasts.takeAllDown (h : Outlasts part) (f : Factory codec) :
    part f.takeAllDown.2 = part { f with lifecycle := f.lifecycle.takeDown.2 } :=
  foldl_same part h.takeDown f.lifecycle.takeDown.1 _

/-- What also stays when sessions say farewell, stays when the factory stops. -/
theorem Outlasts.stop (h : Outlasts part) (hcall : ∀ f id c, part (call f id c).2 = part f)
    (hown : ∀ f lifecycle sessions,
      part { f with lifecycle := lifecycle, sessions := sessions } = part f) (f : Factory codec) :
    part f.stop.2 = part f := by
  rcases Bool.eq_false_or_eq_true f.isRunning with hrunning | hrunning
  · rw [stop_of_running hrunning]
    calc part f.markStopping.retire.takeAllDown.2.markStopped
        = part f.markStopping.retire.takeAllDown.2 := hown f.markStopping.retire.takeAllDown.2 _ _
      _ = part f.markStopping.retire := (h.takeAllDown _).trans (hown f.markStopping.retire _ _)
      _ = part (f.sessions.foldl farewell f.markStopping) :=
          hown (f.sessions.foldl farewell f.markStopping) _ _
      _ = part f.markStopping := foldl_same part (farewell_same part hcall) f.sessions _
      _ = part f := hown f _ _
  · rw [stop_of_not_running hrunning]

end

/-! ### Callbacks -/

section

variable {γ : Type} {part : Factory codec → γ}

/-- A part of a factory that no callback changes, whatever it does. -/
structure Unmoved (part : Factory codec → γ) : Prop extends Outlasts part where
  call : ∀ f id c, part (call f id c).2 = part f
  own : ∀ f lifecycle sessions,
    part { f with lifecycle := lifecycle, sessions := sessions } = part f
  cancel : ∀ f id, part (cancel f id).2 = part f
  note : ∀ f id entry, part (note f id entry) = part f

theorem Unmoved.perform (h : Unmoved part) (f : Factory codec) (id : ChannelId) (deed : Deed) :
    part (f.perform id deed).2 = part f := by
  cases deed with
  | call c =>
      have hcall := h.call f id c
      unfold Factory.perform
      dsimp only
      split
      · rename_i heq
        rw [heq] at hcall
        exact hcall
      · rename_i heq
        rw [heq] at hcall
        exact hcall
  | cancel => exact h.cancel f id
  | count => rfl
  | stop => exact h.stop h.call h.own f

theorem Unmoved.runCallback (h : Unmoved part) (id : ChannelId) (f : Factory codec)
    (callback : Callback) : part (runCallback id f callback) = part f := by
  refine (foldl_same part (fun f deed => ?_) callback.deeds _).trans (h.note f id _)
  exact (h.note _ id _).trans (h.perform f id deed)

end

theorem retire_same (f : Factory codec) : f.retire.lifecycle = f.lifecycle ∧ f.retire.sessions = [] :=
  ⟨foldl_same lifecycle (farewell_same lifecycle (call_same lifecycle fun _ _ _ => rfl)) f.sessions f,
    rfl⟩

theorem takeAllDown_same (f : Factory codec) :
    f.takeAllDown.2.isRunning = f.isRunning ∧ f.takeAllDown.2.sessions = f.sessions := by
  let part := fun f : Factory codec => (f.isRunning, f.sessions)
  have hpart : Outlasts part :=
    { connector := fun _ _ _ => rfl
      scheduler := fun _ _ => rfl
      fail := fun f id cause => refuse_same part (fun _ _ _ _ _ => rfl) f id (.failed cause)
      close := fun _ _ => rfl }
  exact Prod.mk.inj (hpart.takeAllDown f)

end Factory

end SpdySessions
