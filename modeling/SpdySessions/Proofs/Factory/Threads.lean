import SpdySessions.Proofs.Factory.Ends
import SpdySessions.Proofs.Factory.Regular
import SpdySessions.Proofs.Factory.Sessions

/-! Steps and threads. A step of a factory is whole, as if nobody else were there. Taken apart it is a run
of the moves that threads make: a session is made first, then it is entered, then it is delivered, and only
then do the callbacks run, of which each may stop the factory; and where nobody wants the session, it is
struck before it is given up. So whatever is so between any two moves of threads, is so on every course. -/

namespace SpdySessions.Factory

variable {codec : HeaderCodec} {f f' f'' : Factory codec} {id : ChannelId} {session : SessionId}

/-! ### Whether a factory runs, and its sessions -/

/-- What can only change with a lock. -/
def registry (f : Factory codec) : Bool × List SessionId :=
  (f.isRunning, f.sessions)

theorem registry_refuse (f : Factory codec) (id : ChannelId) (outcome : Outcome SessionId) :
    (f.refuse id outcome).2.registry = f.registry :=
  refuse_same registry (fun _ _ _ _ _ => rfl) f id outcome

theorem registry_cancel (f : Factory codec) (id : ChannelId) : (f.cancel id).2.registry = f.registry :=
  cancel_same registry (fun f id => registry_refuse f id .cancelled) (fun _ _ => rfl) f id

theorem registry_call (f : Factory codec) (id : ChannelId) (c : Session.Call) :
    (f.call id c).2.registry = f.registry :=
  call_same registry (fun _ _ _ => rfl) f id c

theorem registry_finish (f : Factory codec) (id : ChannelId) : (f.finish id).registry = f.registry := by
  unfold finish
  dsimp only
  split <;> rfl

theorem registry_abort (f : Factory codec) (id : ChannelId) (cause : Fault) :
    (f.abort id cause).registry = f.registry :=
  (registry_finish _ id).trans (registry_refuse f id _)

theorem registry_noticeClosed (f : Factory codec) (id : ChannelId) :
    (f.noticeClosed id).registry = f.registry := by
  unfold noticeClosed
  split
  · rfl
  · split
    · exact registry_abort f id _
    · rfl

theorem registry_touch (f : Factory codec) (id : ChannelId) : (f.touch id).registry = f.registry := by
  unfold touch
  split <;> rfl

theorem registry_plans (h : f.Plans id f') : f'.registry = f.registry := by
  cases h <;> rfl

theorem registry_dialed (f : Factory codec) (id : ChannelId) (answer : Except Fault Address) :
    (f.dialed id answer).registry = f.registry := by
  unfold dialed
  split
  · rfl
  · split
    · split
      · exact registry_abort f id _
      · exact (registry_plans (plans_arm _ id)).trans (registry_touch _ id)
    · rfl

theorem registry_fire (f : Factory codec) (run : Nat) : (f.fire run).registry = f.registry := by
  have hlook : ∀ (f : Factory codec) id now, (f.look id now).registry = f.registry := by
    intro f id now
    cases hidles : f.idles id now with
    | true => rw [look_of_idles hidles]; rfl
    | false => exact registry_plans (plans_look hidles)
  unfold fire
  split
  · rfl
  · split
    · rfl
    · exact hlook _ _ _

theorem registry_register {run client : Nat} {peer : Address} {listener : Session.Listener}
    {result : Except Fault Unit} (h : f.register run client peer listener = (result, f')) :
    f'.registry = f.registry := by
  obtain ⟨stage, connectors, rfl, -, -⟩ := register_eq h
  rfl

theorem registry_connect (f : Factory codec) (client : Nat) (peer : Address)
    (listener : Session.Listener) (socket : Except Fault Unit) :
    (f.connect client peer listener socket).2.registry = f.registry := by
  unfold connect
  split
  · split
    · rfl
    · dsimp only
      split
      · rename_i fault f' heq
        have hsame : f'.registry = f.registry := registry_register heq
        exact hsame
      · rename_i f' heq
        exact registry_register heq
  · rfl

theorem registry_takeAllDown (f : Factory codec) : f.takeAllDown.2.registry = f.registry := by
  obtain ⟨hrunning, hsessions⟩ := takeAllDown_same f
  exact Prod.ext hrunning hsessions

/-! ### Who has a session -/

theorem held_iff : f.Held session ↔ ∃ id, f.sessionOf id = some session := by
  constructor
  · intro h
    obtain ⟨id, hholder⟩ := Option.isSome_iff_exists.mp h
    obtain ⟨a, ha, hsession⟩ := session?_of_holder? hholder
    exact ⟨id, by rw [sessionOf, ha, Option.bind_some, hsession]⟩
  · rintro ⟨id, hid⟩
    obtain ⟨a, ha, hsession⟩ := Option.bind_eq_some_iff.mp hid
    obtain ⟨link, hlink, hnumber⟩ := Option.map_eq_some_iff.mp hsession
    rw [Held, holder?, List.findIdx?_isSome, List.any_eq_true]
    refine ⟨a, List.mem_of_getElem? ha, ?_⟩
    rw [hlink, Option.any_some, hnumber, decide_eq_true_iff]

theorem Tidy.held (h : f.Tidy) (hs : session ∈ f.sessions) : f.Held session := by
  obtain ⟨id, a, ha, hsession, -⟩ := h.sessions session hs
  exact held_iff.mpr ⟨id, by rw [sessionOf, ha, Option.bind_some, hsession]⟩

/-! ### Steps taken apart -/

open Shared

theorem Shared.Run.trans {x₀ x x' : Shared codec} {marks more : List Mark} (h : Run x₀ marks x)
    (h' : Run x more x') : Run x₀ (marks ++ more) x' := by
  induction h' with
  | refl => rwa [List.append_nil]
  | move _ hmove ih => exact List.append_assoc marks _ _ ▸ ih.move hmove

/-- What happens at once may happen move by move, if nobody holds a lock. -/
def Unrolls (f f' : Factory codec) : Prop :=
  ∃ marks, Run { factory := f } marks { factory := f' }

theorem Unrolls.refl (f : Factory codec) : f.Unrolls f :=
  ⟨[], .refl⟩

theorem Unrolls.trans (h : f.Unrolls f') (h' : f'.Unrolls f'') : f.Unrolls f'' := by
  obtain ⟨marks, hrun⟩ := h
  obtain ⟨more, hmore⟩ := h'
  exact ⟨marks ++ more, hrun.trans hmore⟩

theorem Unrolls.foldl {α : Type} {g : Factory codec → α → Factory codec}
    (h : ∀ (f : Factory codec) (x : α), f.Unrolls (g f x)) (xs : List α) (f : Factory codec) :
    f.Unrolls (xs.foldl g f) := by
  induction xs generalizing f with
  | nil => exact .refl f
  | cons x xs ih => exact (h f x).trans (ih (g f x))

theorem unrolls_aside (hregistry : f'.registry = f.registry)
    (hheld : ∀ s ∈ f.sessions, f.Held s → f'.Held s) : f.Unrolls f' := by
  obtain ⟨hrunning, hsessions⟩ := Prod.mk.inj hregistry
  refine ⟨_, Run.refl.move (.aside hrunning hsessions ?_)⟩
  rintro s (hs | ⟨seen, hv⟩)
  · exact hheld s hs
  · cases hv

/-- Nobody loses his session, and the set is left alone. -/
theorem unrolls_of_same (hholders : f'.sessionOf = f.sessionOf) (hregistry : f'.registry = f.registry) :
    f.Unrolls f' := by
  refine unrolls_aside hregistry fun s _ hheld => ?_
  rw [held_iff, hholders]
  exact held_iff.mp hheld

/-- With nothing in between, a visitor that looks first does what the call does. -/
theorem visitSeeing_self (f : Factory codec) (v : Visit) : f.visitSeeing f.lifecycle v = f.visit v := by
  cases v with
  | opening s =>
      rw [visitSeeing_opening, visit, sessionOpened, isRunning]
      cases f.lifecycle.isRunning <;> rfl
  | closing s =>
      rw [visitSeeing_closing, visit, sessionClosed, isRunning]
      cases f.lifecycle.isRunning <;> rfl

theorem unrolls_visit (v : Visit) (hheld : ∀ s, v = .opening s → f.Held s) :
    f.Unrolls (f.visit v).2 := by
  let entered : Shared codec := { factory := f, visitor := some (v, f.lifecycle) }
  have hentered : Move { factory := f } [] entered := .enter v rfl hheld
  have hleft : Move entered _ { factory := (f.visitSeeing f.lifecycle v).2 } := .leave rfl
  rw [visitSeeing_self] at hleft
  exact ⟨_, (Run.refl.move hentered).move hleft⟩

theorem unrolls_sessionOpened (hheld : f.Held session) : f.Unrolls (f.sessionOpened session).2 :=
  unrolls_visit (.opening session) fun s hs => by
    obtain rfl := Visit.opening.inj hs
    exact hheld

theorem unrolls_sessionClosed (f : Factory codec) (session : SessionId) :
    f.Unrolls (f.sessionClosed session).2 :=
  unrolls_visit (.closing session) nofun

theorem unrolls_start (f : Factory codec) (executor : Except Fault Unit) :
    f.Unrolls (f.start executor).2 := by
  rcases Bool.eq_false_or_eq_true f.isRunning with hrunning | hrunning
  · exact ⟨_, Run.refl.move (.startRunning executor rfl hrunning)⟩
  · have hmarked : Run { factory := f } [] { factory := _, duty := .starting } :=
      Run.refl.move (.markStarting rfl hrunning)
    have hsame : start { f with lifecycle := f.lifecycle.markStarting } executor =
        f.start executor := by
      have hstopped : f.lifecycle.isRunning = false := hrunning
      simp only [start, Lifecycle.start, hstopped]
      rfl
    cases hstart : f.start executor with
    | mk result f' =>
        cases result with
        | ok made => exact ⟨_, hmarked.move (.started rfl (hsame.trans hstart))⟩
        | error fault => exact ⟨_, hmarked.move (.notStarted rfl (hsame.trans hstart))⟩

/-- A stop by someone who finds the locks free. -/
theorem unrolls_stop (f : Factory codec) : f.Unrolls f.stop.2 := by
  rcases Bool.eq_false_or_eq_true f.isRunning with hrunning | hrunning
  · let marked : Shared codec := { factory := f.markStopping, duty := .stopping }
    have hmarked : Move { factory := f } [] marked := .markStopping rfl hrunning
    have hretired : Move marked _ { factory := f.markStopping.retireCalling.2, duty := .retired } :=
      .retire rfl rfl
    have hcalls : f.markStopping.retireCalling.2 = f.markStopping.retire := by rw [retireCalling_eq]
    rw [hcalls] at hretired
    rw [stop_of_running hrunning]
    have hrun := (Run.refl.move hmarked).move hretired
    exact ⟨_, (hrun.move (.takeAllDown rfl)).move (.markStopped rfl)⟩
  · have hidle : Move { factory := f } [] { factory := f.stop.2 } := .stopIdle rfl hrunning
    exact ⟨_, Run.refl.move hidle⟩

/-! ### Callbacks -/

theorem unrolls_call (f : Factory codec) (id : ChannelId) (c : Session.Call) :
    f.Unrolls (f.call id c).2 :=
  unrolls_of_same (quiet_call f id c).sessionOf (registry_call f id c)

theorem unrolls_cancel (f : Factory codec) (id : ChannelId) : f.Unrolls (f.cancel id).2 :=
  unrolls_of_same (quiet_cancel f id).sessionOf (registry_cancel f id)

theorem unrolls_perform (f : Factory codec) (id : ChannelId) (deed : Deed) :
    f.Unrolls (f.perform id deed).2 := by
  cases deed with
  | call c =>
      have hcall := unrolls_call f id c
      unfold perform
      dsimp only
      split
      · rename_i heq
        rw [heq] at hcall
        exact hcall
      · rename_i heq
        rw [heq] at hcall
        exact hcall
  | cancel => exact unrolls_cancel f id
  | count => exact .refl f
  | stop => exact unrolls_stop f

theorem unrolls_note (f : Factory codec) (id : ChannelId) (entry : Callback.Entry) :
    f.Unrolls (f.note id entry) :=
  unrolls_of_same (quiet_note f id entry).sessionOf rfl

theorem unrolls_runCallback (id : ChannelId) (f : Factory codec) (callback : Callback) :
    f.Unrolls (runCallback id f callback) := by
  refine (unrolls_note f id _).trans (Unrolls.foldl (fun f deed => ?_) callback.deeds _)
  exact (unrolls_perform f id deed).trans (unrolls_note _ id _)

theorem unrolls_onComplete (f : Factory codec) (id : ChannelId) (callback : Callback) :
    f.Unrolls (f.onComplete id callback.toProgram callback.retreats) := by
  have hquiet := quiet_onComplete f id callback
  unfold onComplete at hquiet ⊢
  split at hquiet
  · exact .refl f
  · dsimp only at hquiet ⊢
    split at hquiet
    · exact unrolls_of_same hquiet.sessionOf rfl
    · exact unrolls_runCallback id f callback
    · exact unrolls_of_same hquiet.sessionOf rfl

/-! ### Sessions begin and end -/

/-- The session is there, and nobody has heard of it. -/
def made (f : Factory codec) (id : ChannelId) (a : Attempt codec) : Factory codec :=
  modify { f with sessionsMade := f.sessionsMade + 1 } id
    fun a' => { a' with link := some ⟨f.newSession a, .fresh codec⟩ }

theorem sessionOf_made (f : Factory codec) (id other : ChannelId) (a : Attempt codec) :
    (f.made id a).sessionOf other =
      if id = other then (f.attempts[other]?).map fun _ => f.sessionsMade + 1 else f.sessionOf other := by
  rw [sessionOf, made, attempts_modify]
  by_cases hid : id = other
  · subst hid
    cases f.attempts[id]? <;> simp [Attempt.session?, newSession]
  · simp [hid, sessionOf]

/-- A session is made for an attempt that has none, so nobody loses one. -/
theorem held_made {a : Attempt codec} (ha : f.attempts[id]? = some a) (hnone : a.session? = none)
    (hheld : f.Held session) : (f.made id a).Held session := by
  obtain ⟨other, hother⟩ := held_iff.mp hheld
  refine held_iff.mpr ⟨other, ?_⟩
  rw [sessionOf_made, if_neg, hother]
  rintro rfl
  rw [sessionOf, ha, Option.bind_some, hnone] at hother
  cases hother

theorem made_held {a : Attempt codec} (ha : f.attempts[id]? = some a) :
    (f.made id a).Held (f.sessionsMade + 1) :=
  held_iff.mpr ⟨id, by rw [sessionOf_made, if_pos rfl, ha, Option.map_some]⟩

/-- The session of an attempt is made, entered and then handed over; or else it is refused, or struck
again because nobody wants it, and is nobody's after that. -/
theorem unrolls_openSession (h : f.Tidy) {a : Attempt codec} (ha : f.attempts[id]? = some a)
    (hnone : a.session? = none) : f.Unrolls (f.openSession id a).2 := by
  let entered : Factory codec :=
    { f.made id a with sessions := Connector.enter (f.sessionsMade + 1) f.sessions }
  have hmade : f.Unrolls (f.made id a) :=
    unrolls_aside rfl fun _ _ hheld => held_made ha hnone hheld
  have hopened := hmade.trans (unrolls_sessionOpened (made_held ha))
  rw [openSession_eq h.not_mem_sessions]
  cases hrunning : f.isRunning with
  | false => exact hmade.trans (unrolls_aside rfl fun s hs _ => h.held hs)
  | true =>
      have hrunning' : (f.made id a).isRunning = true := hrunning
      rw [sessionOpened, if_pos hrunning'] at hopened
      have hentered : f.Unrolls entered := hopened
      cases a.promise.isDone with
      | true =>
          have hstruck := hentered.trans (unrolls_sessionClosed entered (f.sessionsMade + 1))
          have hrunning'' : entered.isRunning = true := hrunning
          rw [sessionClosed, if_pos hrunning''] at hstruck
          have hback : entered.sessions.filter (· ≠ f.sessionsMade + 1) = f.sessions :=
            Connector.strike_enter h.not_mem_sessions
          refine hstruck.trans (unrolls_aside (Prod.ext rfl hback.symm) fun s hs _ => h.held ?_)
          exact hback ▸ hs
      | false =>
          have hgiven : entered.Unrolls (f.opened id a
              { outcome := some (.completed (f.sessionsMade + 1)), done := true, callbacks := [] }) := by
            refine unrolls_of_same (funext fun other => ?_) rfl
            exact (sessionOf_opened f id other a _).trans (sessionOf_made f id other a).symm
          exact (hentered.trans hgiven).trans
            (Unrolls.foldl (unrolls_runCallback id) a.promise.callbacks _)

theorem unrolls_abort (f : Factory codec) (id : ChannelId) (cause : Fault) :
    f.Unrolls (f.abort id cause) :=
  unrolls_of_same (steady_abort f id cause).sessionOf (registry_abort f id cause)

theorem unrolls_construct (h : f.Tidy) (hwaiting : ∀ a : Attempt codec, f.attempts[id]? = some a →
    a.session? = none) : f.Unrolls (f.construct id) := by
  unfold construct
  split
  · exact .refl f
  · rename_i a ha
    have hopened := unrolls_openSession h ha (hwaiting a ha)
    split
    · rename_i fault f' heq
      rw [heq] at hopened
      exact hopened.trans (unrolls_abort f' id fault)
    · rename_i session f' heq
      rw [heq] at hopened
      have hset := steady_modify (f := f'.modifyConnector a.run (·.markOpened id)) id
        (fun a => { a with stage := .carrying .running }) fun _ => rfl
      exact hopened.trans (unrolls_of_same hset.sessionOf rfl)

theorem unrolls_windUp {e e' : Endpoint codec} (he : f.endpoint? id = some e)
    (hid : e'.session.id = e.session.id) (hpool : f.pool.Reachable → e'.pool.Reachable)
    (listener : Session.Listener) (result : Except Fault Unit) :
    f.Unrolls (f.windUp id listener e' result) := by
  have htold := (unrolls_of_same (steady_told he hid hpool listener).sessionOf rfl).trans
    (unrolls_sessionClosed _ (e'.connectionClosed listener).2.session.id)
  unfold windUp
  dsimp only
  cases result with
  | error fault => exact htold.trans (unrolls_abort _ id fault)
  | ok _ => exact htold.trans (unrolls_of_same (steady_finish _ id).sessionOf (registry_finish _ id))

theorem registry_turned (f : Factory codec) (id : ChannelId) (moved : Bool) (last : Endpoint codec)
    (progress : Progress) (written : Bytes) (entries : List Session.Entry) :
    (f.turned id moved last progress written entries).registry = f.registry := by
  have htouched : (if moved then f.touch id else f).registry = f.registry := by
    split
    · exact registry_touch f id
    · rfl
  exact htouched

theorem unrolls_turn (f : Factory codec) (id : ChannelId) (socket : Socket) :
    f.Unrolls (f.turn id socket) := by
  obtain heq | ⟨e, moved, last, progress, written, entries, he, hid, hpool, hturn⟩ := f.turn_cases id socket
  · rw [heq]
    exact .refl f
  · have hturned := steady_turned he hid hpool moved progress written entries
    have hlast := endpoint?_turned he moved last progress written entries
    have hmoved := unrolls_of_same hturned.sessionOf (registry_turned f id moved last progress written entries)
    obtain heq | ⟨listener, result, heq⟩ := hturn
    · rwa [heq]
    · rw [heq]
      exact hmoved.trans (unrolls_windUp hlast rfl (fun hreached => pool_endpoint? hlast ▸ hreached) _ _)

/-! ### Steps -/

section

variable {accepted new : List ChannelId}

theorem Clean.sessionless (h : Clean accepted none f) {a : Attempt codec} (ha : f.attempts[id]? = some a)
    (hwaiting : a.stage.isWaiting = true) : a.session? = none :=
  (h.attempt ha).1.waiting hwaiting

theorem Clean.unrolls_establish (h : Clean accepted none f) (id : ChannelId)
    (engine : Except Fault Unit) : f.Unrolls (f.establish id engine) := by
  unfold Factory.establish
  split
  · exact .refl f
  · rename_i a ha
    split
    · rename_i hstage _
      exact unrolls_construct h.tidy fun b hb => by
        obtain rfl := Option.some.inj (ha.symm.trans hb)
        exact h.sessionless ha (by rw [hstage]; rfl)
    · exact unrolls_abort f id _
    · have hput : f.Steady { f with negotiations := f.negotiations.put id (f.clientOf a).negotiator } :=
        steady_of_same rfl rfl
      refine unrolls_of_same (Eq.trans (Steady.sessionOf ?_) hput.sessionOf) rfl
      exact steady_modify id _ fun _ => rfl
    · exact .refl f

theorem unrolls_heard (f : Factory codec) (id : ChannelId) : f.Unrolls (f.heard id) :=
  unrolls_of_same ((steady_touch f id).trans (steady_of_same rfl rfl)).sessionOf (registry_touch f id)

theorem Clean.unrolls_secured (h : Clean accepted none f) (id : ChannelId)
    (handshake : Except Fault (Option Bytes)) : f.Unrolls (f.secured id handshake) := by
  unfold Factory.secured
  split
  · exact .refl f
  · rename_i a ha
    split
    · exact unrolls_abort f id _
    · rename_i hstage
      dsimp only
      obtain ⟨b, hb, hquiet⟩ := (quiet_touch f id).attempt ha
      have htidy : (f.heard id).Tidy := (h.tidy.quiet (quiet_touch f id)).negotiate
        fun handler hhandler => Or.inl (List.mem_filter.mp hhandler).1
      split
      · exact (unrolls_heard f id).trans (unrolls_abort _ id _)
      · split
        · exact (unrolls_heard f id).trans (unrolls_abort _ id _)
        · refine (unrolls_heard f id).trans (unrolls_construct htidy fun c hc => ?_)
          obtain rfl := Option.some.inj (hb.symm.trans hc)
          exact hquiet.session.trans (h.sessionless ha (by rw [hstage]; rfl))
    · exact .refl f

theorem Clean.unrolls_after (h : Clean accepted none f) {e : Event} (hwhole : e.isWhole = true) :
    f.Unrolls (f.after e) := by
  cases e with
  | newClient number =>
      show f.Unrolls (f.newClient number).2
      unfold newClient
      split
      · exact .refl f
      · exact unrolls_of_same rfl rfl
  | configure client change => exact unrolls_of_same rfl rfl
  | start executor => exact unrolls_start f executor
  | markStopping => cases hwhole
  | retire => cases hwhole
  | takeDown component => cases hwhole
  | stopConnector run => cases hwhole
  | markStopped => cases hwhole
  | stop => exact unrolls_stop f
  | drop => exact unrolls_of_same (quiet_takeAllDown f).sessionOf (registry_takeAllDown f)
  | onComplete id callback => exact unrolls_onComplete f id callback
  | call id c => exact unrolls_call f id c
  | cancel id => exact unrolls_cancel f id
  | close id => exact unrolls_of_same (quiet_close f id).sessionOf rfl
  | noticeClosed id =>
      exact unrolls_of_same (steady_noticeClosed f id).sessionOf (registry_noticeClosed f id)
  | dialed id answer =>
      exact unrolls_of_same (steady_dialed f id answer).sessionOf (registry_dialed f id answer)
  | establish id engine => exact h.unrolls_establish id engine
  | secured id handshake => exact h.unrolls_secured id handshake
  | turn id socket => exact unrolls_turn f id socket
  | pass span => exact unrolls_of_same rfl rfl
  | fire run => exact unrolls_of_same (steady_fire f run).sessionOf (registry_fire f run)

theorem WholeStep.unrolls (hstep : WholeStep f new f') (h : Clean accepted none f) : f.Unrolls f' := by
  have hconnect := fun client peer listener socket =>
    unrolls_of_same (steady_connect f client peer listener socket).sessionOf
      (registry_connect f client peer listener socket)
  cases hstep with
  | registered heq => exact unrolls_of_same (steady_register heq).sessionOf (registry_register heq)
  | refused heq => exact unrolls_of_same (steady_register heq).sessionOf (registry_register heq)
  | @connected client peer listener socket id f' heq =>
      have hconnected := hconnect client peer listener socket
      rwa [heq] at hconnected
  | @unconnected client peer listener socket cause f' heq =>
      have hconnected := hconnect client peer listener socket
      rwa [heq] at hconnected
  | event e hwhole => exact h.unrolls_after hwhole

theorem WholeCourse.unrolls (h : WholeCourse f accepted f') (hnew : Clean [] none f) : f.Unrolls f' := by
  induction h with
  | refl => exact .refl f
  | step h hstep ih => exact ih.trans (hstep.unrolls (h.clean hnew))

end

/-- **Any order.** Threads that start and stop a factory, make sessions, and enter and strike them in its
set, take turns at the locks as they like; each session is there before it is entered. Whatever they have
done so far, the set is in order. And there are no other ways: the steps of a course, callbacks that stop
the factory included, are such turns one after the other. -/
theorem Shared.session_set_in_order {f₀ : Factory codec} (hstopped : f₀.isRunning = false)
    (hnone : f₀.sessions = []) :
    (∀ marks x, Run { factory := f₀ } marks x → InOrder marks x) ∧
    (f₀.attempts = [] → f₀.connectors = [] → f₀.negotiations.handlers = [] →
      ∀ accepted f, WholeCourse f₀ accepted f → f₀.Unrolls f) := by
  refine ⟨fun marks x hrun => ?_, fun hattempts hconnectors hnegotiations accepted f hcourse => ?_⟩
  · exact (hrun.ordered (ordered_new hstopped hnone)).inOrder
  · exact hcourse.unrolls (clean_new hattempts hconnectors hnegotiations hnone)

/-- Two sockets are connected and their sessions are made; neither is entered. -/
def making : Factory .identity :=
  let connected := (registeredTwice.after (.dialed 0 (.ok host))).after (.dialed 1 (.ok host))
  (List.range 2).foldl (fun f id => (f.attempts[id]?).elim f (f.made id)) connected

/-- A stop begins while the first session is on its way into the set. -/
def crossing : Shared .identity :=
  { factory := making.markStopping, visitor := some (.opening 1, making.lifecycle), duty := .stopping }

/-- The first session is entered before the farewells and called; the second comes too late. -/
theorem Shared.crossing_in_order : unused.isRunning = false ∧ unused.sessions = [] ∧
    (∃ marks x, Run { factory := unused } marks x ∧ InOrder marks x ∧
      marks = [.started, .visited (.opening 1) true true, .retired [1],
        .visited (.opening 2) false false, .stopped] ∧
      x.factory.attempts.map (fun a => a.link.map (·.session.goAwaySent)) = [some true, some false]) ∧
    unused.Unrolls busy := by
  obtain ⟨hinOrder, hunrolls⟩ := @session_set_in_order _ unused rfl rfl
  have hheld : ∀ s, s = 1 ∨ s = 2 → making.Held s := by
    rintro s (rfl | rfl) <;> decide +kernel
  have hstarting : Run { factory := unused } [] { factory := _, duty := .starting } :=
    Run.refl.move (.markStarting rfl rfl)
  have hstarted : Run { factory := unused } [.started] { factory := started } :=
    hstarting.move (@Move.started _ _ (.ok ()) _ _ rfl rfl)
  have hmade : Run { factory := unused } [.started] { factory := making } := by
    refine hstarted.move (.aside (by decide +kernel) (by decide +kernel) ?_)
    rintro s (hs | ⟨seen, hv⟩)
    · cases hs
    · cases hv
  have hcrossing : Run { factory := unused } [.started] crossing := by
    have hentering := hmade.move (.enter (.opening 1) rfl fun s hs => hheld s (Or.inl ?_))
    · exact hentering.move (.markStopping rfl (by decide +kernel))
    · exact (Visit.opening.inj hs).symm
  have hentered := hcrossing.move (.leave rfl)
  have hretired := hentered.move (.retire rfl rfl)
  have hlate := hretired.move (.enter (.opening 2) rfl fun s hs => ?_)
  · have hleft := hlate.move (.leave rfl)
    have hrun := (hleft.move (.takeAllDown rfl)).move (.markStopped rfl)
    have hregistered := ((WholeCourse.refl.step (.event (.start (.ok ())) rfl)).step
      (@WholeStep.registered _ started 0 0 host .silent registeredOnce rfl)).step
      (@WholeStep.registered _ registeredOnce 0 0 host .silent registeredTwice rfl)
    have hbusy := (hregistered.step (.event (.dialed 0 (.ok host)) rfl)).step
      (.event (.establish 0 (.ok ())) rfl)
    refine ⟨rfl, rfl, ⟨_, _, hrun, hinOrder _ _ hrun, ?_, ?_⟩, hunrolls rfl rfl rfl _ _ hbusy⟩
    · decide +kernel
    · decide +kernel
  · obtain rfl := Visit.opening.inj hs
    decide +kernel

end SpdySessions.Factory
