import SpdySessions.Proofs.Factory.Course
import SpdySessions.Proofs.Factory.Keeping

/-! Every step keeps what was accepted. One lemma for each operation, from the ones that change a
single attempt to those of a whole stop; the steps that let go of a channel have to show that its
promise has an outcome by then. -/

namespace SpdySessions.Factory

variable {codec : HeaderCodec} {f f' : Factory codec} {id : ChannelId}

/-! ### Channels, sessions and outcomes -/

theorem leads_close (f : Factory codec) (id : ChannelId) : f.Leads (f.close id).2 :=
  leads_modify_of_same id _ fun _ => ⟨rfl, rfl, rfl⟩

theorem leads_note (f : Factory codec) (id : ChannelId) (entry : Callback.Entry) :
    f.Leads (f.note id entry) :=
  leads_modify_of_same id _ fun _ => ⟨rfl, rfl, rfl⟩

theorem leads_sessionClosed (f : Factory codec) (session : SessionId) :
    f.Leads (f.sessionClosed session).2 := by
  unfold sessionClosed
  split
  · exact leads_of_eq rfl rfl
  · exact .refl f

/-- An attempt that has an endpoint has a session. -/
theorem linked_of_endpoint? {e : Endpoint codec} (h : f.endpoint? id = some e) : f.Linked id := by
  unfold endpoint? at h
  split at h
  · cases h
  · rename_i a ha
    obtain ⟨link, hlink, -⟩ := Option.map_eq_some_iff.mp h
    exact ⟨a, ha, Option.isSome_iff_exists.mpr ⟨link, hlink⟩⟩

theorem leads_setEndpoint (h : f.Linked id) (e : Endpoint codec) : f.Leads (f.setEndpoint id e) := by
  obtain ⟨a, ha, hlink⟩ := h
  have hpool : f.Leads { f with pool := e.pool } := leads_of_eq rfl rfl
  refine hpool.trans (leads_modify fun a' ha' => ⟨rfl, fun _ ho => ho, fun _ => Or.inl ?_⟩)
  obtain rfl := Option.some.inj (ha.symm.trans ha')
  exact hlink

theorem Linked.setEndpoint (h : f.Linked id) (e : Endpoint codec) :
    (f.setEndpoint id e).Linked id := by
  have hpool : Linked { f with pool := e.pool } id := h
  exact hpool.modify fun _ _ => rfl

theorem leads_call (f : Factory codec) (id : ChannelId) (c : Session.Call) :
    f.Leads (f.call id c).2 := by
  unfold call
  split
  · exact .refl f
  · rename_i e he
    exact leads_setEndpoint (linked_of_endpoint? he) (e.call c).2

/-- A promise that settles had no outcome and has this one now. -/
theorem of_settle? {σ β : Type} {p p' : Promise σ β} {outcome : Outcome σ} {callbacks : List β}
    (h : p.settle? outcome = some (callbacks, p')) : p.outcome = none ∧ p'.outcome = some outcome := by
  obtain ⟨⟨callbacks', next⟩, hdecide, hnext⟩ := Option.map_eq_some_iff.mp h
  unfold Promise.decide? at hdecide
  split at hdecide
  · cases hdecide
  · rename_i hnone
    cases hdecide
    cases hnext
    exact ⟨hnone, rfl⟩

theorem settle?_eq {σ β : Type} (p : Promise σ β) (outcome : Outcome σ) :
    p.settle? outcome = if p.isDone then none
      else some (p.callbacks, { outcome := some outcome, done := true, callbacks := [] }) := by
  rw [Promise.settle?, Promise.decide?, Promise.isDone]
  cases p.outcome <;> rfl

theorem isDone_of_settle?_eq_none {σ β : Type} {p : Promise σ β} {outcome : Outcome σ}
    (h : p.settle? outcome = none) : p.isDone = true := by
  rw [settle?_eq] at h
  split at h
  · assumption
  · cases h

theorem leads_refuse (f : Factory codec) (id : ChannelId) (outcome : Outcome SessionId) :
    f.Leads (f.refuse id outcome).2 := by
  unfold refuse
  split
  · exact .refl f
  · rename_i a ha
    split
    · exact .refl f
    · rename_i callbacks promise hsettle
      obtain ⟨hnone, hsome⟩ := of_settle? hsettle
      refine leads_modify fun a' ha' => ⟨rfl, fun o ho => ?_, fun h => Or.inl h⟩
      obtain rfl := Option.some.inj (ha.symm.trans ha')
      rw [hnone] at ho
      cases ho

/-- After a refusal there is an outcome: the one refused with, unless there was one before. -/
theorem outcome_refuse {a : Attempt codec} (ha : f.attempts[id]? = some a)
    (outcome : Outcome SessionId) :
    ∃ a', (f.refuse id outcome).2.attempts[id]? = some a' ∧
      a'.promise.outcome = some (a.promise.outcome.getD outcome) := by
  simp only [refuse, ha]
  split
  · rename_i hsettle
    obtain ⟨o, ho⟩ := Option.isSome_iff_exists.mp (isDone_of_settle?_eq_none hsettle)
    refine ⟨a, ha, ?_⟩
    rw [ho, Option.getD_some]
  · rename_i callbacks promise hsettle
    obtain ⟨hnone, hsome⟩ := of_settle? hsettle
    rw [hnone, Option.getD_none]
    exact ⟨_, attempts_modify_self ha _, hsome⟩

theorem leads_fail (f : Factory codec) (id : ChannelId) (cause : Fault) : f.Leads (f.fail id cause) :=
  leads_refuse f id (.failed cause)

theorem done_fail {a : Attempt codec} (ha : f.attempts[id]? = some a) (cause : Fault) :
    (f.fail id cause).Done id := by
  obtain ⟨a', ha', houtcome⟩ := outcome_refuse ha (.failed cause)
  exact ⟨a', ha', Option.isSome_iff_exists.mpr ⟨_, houtcome⟩⟩

theorem leads_cancel (f : Factory codec) (id : ChannelId) : f.Leads (f.cancel id).2 := by
  have hrefuse := leads_refuse f id .cancelled
  unfold cancel
  dsimp only
  split
  · exact hrefuse
  · exact hrefuse.trans (leads_close _ id)

/-! ### Ends -/

/-- A channel may be forgotten once its promise has an outcome. -/
theorem leads_forget (h : f.Done id) (run : Nat) : f.Leads (f.modifyConnector run (·.forget id)) := by
  refine leads_modifyConnector (fun c _ hb => hb.forget id) (fun _ _ h => h) fun c other _ hwaits => ?_
  by_cases hid : other = id
  · exact Or.inr (hid ▸ h)
  · exact Or.inl (hwaits.forget hid)

/-- A channel may be taken for opened once its promise has an outcome. -/
theorem leads_markOpened (h : f.Done id) (run : Nat) :
    f.Leads (f.modifyConnector run (·.markOpened id)) := by
  have hid : id < f.attempts.length := by
    obtain ⟨a, ha, -⟩ := h
    exact (List.getElem?_eq_some_iff.mp ha).1
  refine leads_modifyConnector (fun c _ hb => hb.markOpened hid) (fun _ _ h => h)
    fun c other _ hwaits => ?_
  by_cases hid : other = id
  · exact Or.inr (hid ▸ h)
  · exact Or.inl (hwaits.markOpened hid)

/-- The end of an attempt lets go of its channel. -/
theorem leads_finish (h : ∀ a, f.attempts[id]? = some a → f.Done id) : f.Leads (f.finish id) := by
  unfold finish
  dsimp only
  have hclose : f.Leads { (f.close id).2 with negotiations := (f.close id).2.negotiations.erase id } :=
    (leads_close f id).trans (leads_of_eq rfl rfl)
  refine hclose.andThen fun _ honward => ?_
  split
  · exact leads_modify_of_same id _ fun _ => ⟨rfl, rfl, rfl⟩
  · rename_i a ha
    have hdone : f.Done id := by
      cases hold : f.attempts[id]? with
      | none =>
          have hclosed : (f.modify id Attempt.close).attempts[id]? = some a := ha
          rw [attempts_modify, hold] at hclosed
          cases hclosed
      | some a' => exact h a' hold
    refine (leads_forget (honward.done hdone) a.run).trans ?_
    exact leads_modify_of_same id _ fun _ => ⟨rfl, rfl, rfl⟩

theorem leads_abort (f : Factory codec) (id : ChannelId) (cause : Fault) :
    f.Leads (f.abort id cause) := by
  refine (leads_fail f id cause).andThen fun _ _ => leads_finish fun a' ha' => ?_
  cases ha : f.attempts[id]? with
  | none =>
      simp only [fail, refuse, ha] at ha'
      cases ha'
  | some a => exact done_fail ha cause

/-! ### Starting and stopping -/

/-- A run begins with empty books of its own. -/
theorem leads_start (f : Factory codec) (executor : Except Fault Unit) :
    f.Leads (f.start executor).2 := by
  unfold start
  split
  · exact leads_of_eq rfl rfl
  · exact leads_of_eq rfl rfl
  · intro hs
    refine ⟨⟨?_, hs.links⟩, ⟨(Onward.refl f).attempts, ?_, ?_⟩⟩
    · intro run c hc
      rcases Nat.lt_or_ge run f.connectors.length with hrun | hrun
      · rw [List.getElem?_append_left hrun] at hc
        exact hs.books run c hc
      · rw [List.getElem?_append_right hrun] at hc
        obtain rfl := List.mem_singleton.mp (List.mem_of_getElem? hc)
        exact Connector.balanced_new _
    · intro run c hc
      exact ⟨c, List.getElem?_append_left (List.getElem?_eq_some_iff.mp hc).1 ▸ hc, fun h => h⟩
    · rintro other ⟨a, c, ha, hc, hwaits⟩
      exact Or.inr ⟨a, c, ha,
        List.getElem?_append_left (List.getElem?_eq_some_iff.mp hc).1 ▸ hc, hwaits⟩

theorem leads_farewell (f : Factory codec) (session : SessionId) : f.Leads (f.farewell session) := by
  unfold farewell
  split
  · exact .refl f
  · exact leads_call f _ .goAway

theorem leads_retire (f : Factory codec) : f.Leads f.retire :=
  (Leads.foldl leads_farewell f.sessions f).trans (leads_of_eq rfl rfl)

/-! A connector that is taken down clears its books first and settles what was in them afterwards.
Nobody looks at the books in between, so this is the same as settling first; and then whoever is let
go of has an outcome. -/

theorem fail_modifyConnector (f : Factory codec) (run : Nat) (change : Connector → Connector)
    (id : ChannelId) (cause : Fault) :
    (f.modifyConnector run change).fail id cause = (f.fail id cause).modifyConnector run change := by
  have hattempts : (f.modifyConnector run change).attempts = f.attempts := rfl
  unfold fail refuse
  rw [hattempts]
  cases f.attempts[id]? with
  | none => rfl
  | some a =>
      dsimp only
      cases a.promise.settle? (.failed cause) with
      | none => rfl
      | some settled => rfl

theorem foldl_modifyConnector {α : Type} {g : Factory codec → α → Factory codec} (run : Nat)
    (change : Connector → Connector)
    (h : ∀ (f : Factory codec) (x : α),
      g (f.modifyConnector run change) x = (g f x).modifyConnector run change)
    (xs : List α) (f : Factory codec) :
    xs.foldl g (f.modifyConnector run change) = (xs.foldl g f).modifyConnector run change := by
  induction xs generalizing f with
  | nil => rfl
  | cons x xs ih => rw [List.foldl_cons, List.foldl_cons, h, ih]

/-- The promises that wait in the books fail and the channels in the books are closed. -/
def drain (f : Factory codec) (c : Connector) : Factory codec :=
  c.channels.foldl (fun f id => (f.close id).2)
    (c.pending.foldl (fun f id => f.fail id .notRunning) f)

theorem stopConnector_eq {run : Nat} {c : Connector} (hc : f.connectors[run]? = some c)
    (hrunning : c.running = true) :
    f.stopConnector run = (f.drain c).modifyConnector run Connector.stop := by
  simp only [stopConnector, hc, hrunning, if_true]
  rw [foldl_modifyConnector run Connector.stop
      (fun f id => fail_modifyConnector f run Connector.stop id .notRunning),
    foldl_modifyConnector run Connector.stop (fun _ _ => rfl)]
  rfl

theorem leads_drain (f : Factory codec) (c : Connector) : f.Leads (f.drain c) :=
  (Leads.foldl (fun f id => leads_fail f id .notRunning) c.pending f).trans
    (Leads.foldl leads_close c.channels _)

theorem connectors_fail (f : Factory codec) (id : ChannelId) (cause : Fault) :
    (f.fail id cause).connectors = f.connectors := by
  unfold fail refuse
  split
  · rfl
  · split <;> rfl

theorem connectors_foldl {α : Type} {g : Factory codec → α → Factory codec}
    (h : ∀ (f : Factory codec) (x : α), (g f x).connectors = f.connectors) (xs : List α)
    (f : Factory codec) : (xs.foldl g f).connectors = f.connectors := by
  induction xs generalizing f with
  | nil => rfl
  | cons x xs ih => rw [List.foldl_cons, ih, h]

theorem connectors_drain (f : Factory codec) (c : Connector) :
    (f.drain c).connectors = f.connectors := by
  have hclose : ∀ (f : Factory codec) (id : ChannelId), (f.close id).2.connectors = f.connectors :=
    fun _ _ => rfl
  rw [drain, connectors_foldl hclose, connectors_foldl fun f id => connectors_fail f id .notRunning]

theorem attempts_fail_of_ne {other : ChannelId} (h : other ≠ id) (cause : Fault) :
    (f.fail other cause).attempts[id]? = f.attempts[id]? := by
  unfold fail refuse
  split
  · rfl
  · split
    · rfl
    · dsimp only
      rw [attempts_modify]
      simp only [if_neg h]
      exact Option.map_id_apply

/-- Failing some promises gives an outcome to those of them that have none. -/
theorem outcome_failAll (cause : Fault) (ids : List ChannelId) {a : Attempt codec}
    (ha : f.attempts[id]? = some a) :
    ∃ a', (ids.foldl (fun f id => f.fail id cause) f).attempts[id]? = some a' ∧
      a'.promise.outcome = (if id ∈ ids then some (a.promise.outcome.getD (.failed cause))
        else a.promise.outcome) := by
  induction ids generalizing f a with
  | nil => exact ⟨a, ha, rfl⟩
  | cons other ids ih =>
      rw [List.foldl_cons]
      by_cases hother : other = id
      · subst hother
        obtain ⟨a', ha', houtcome⟩ := outcome_refuse ha (.failed cause)
        obtain ⟨a'', ha'', houtcome'⟩ := ih (f := f.fail other cause) ha'
        refine ⟨a'', ha'', ?_⟩
        rw [if_pos List.mem_cons_self, houtcome', houtcome, Option.getD_some, ite_self]
      · obtain ⟨a', ha', houtcome⟩ := ih ((attempts_fail_of_ne hother cause).trans ha)
        refine ⟨a', ha', ?_⟩
        rw [houtcome]
        simp only [List.mem_cons, Ne.symm hother, false_or]

/-- Closing some channels leaves the promises alone, and what is closed is closed for good. -/
theorem closed_closeAll (ids : List ChannelId) {a : Attempt codec} (ha : f.attempts[id]? = some a) :
    ∃ a', (ids.foldl (fun f id => (f.close id).2) f).attempts[id]? = some a' ∧
      a'.promise = a.promise ∧
      (id ∈ ids ∨ a.channel.isOpen = false → a'.channel.isOpen = false) := by
  induction ids generalizing f a with
  | nil =>
      refine ⟨a, ha, rfl, ?_⟩
      rintro (hid | hclosed)
      · cases hid
      · exact hclosed
  | cons other ids ih =>
      rw [List.foldl_cons]
      have hclose : (f.close other).2.attempts[id]? =
          some (if other = id then a.close else a) := by
        show (f.modify other Attempt.close).attempts[id]? = _
        rw [attempts_modify, ha, Option.map_some]
      obtain ⟨a', ha', hpromise, hclosed⟩ := ih hclose
      refine ⟨a', ha', ?_, ?_⟩
      · rw [hpromise]
        split <;> rfl
      · intro h
        by_cases hother : other = id
        · rw [if_pos hother] at hclosed
          exact hclosed (Or.inr rfl)
        · rw [if_neg hother] at hclosed
          rw [List.mem_cons] at h
          rcases h with (rfl | hid) | hold
          · exact absurd rfl hother
          · exact hclosed (Or.inl hid)
          · exact hclosed (Or.inr hold)

/-- What is left of an attempt after the drain of a connector. -/
theorem attempt_drain (c : Connector) {a : Attempt codec} (ha : f.attempts[id]? = some a) :
    ∃ a', (f.drain c).attempts[id]? = some a' ∧
      a'.promise.outcome = (if id ∈ c.pending then some (a.promise.outcome.getD (.failed .notRunning))
        else a.promise.outcome) ∧
      (id ∈ c.channels → a'.channel.isOpen = false) := by
  obtain ⟨a', ha', houtcome⟩ := outcome_failAll .notRunning c.pending ha
  obtain ⟨a'', ha'', hpromise, hclosed⟩ := closed_closeAll c.channels ha'
  exact ⟨a'', ha'', hpromise ▸ houtcome, fun hid => hclosed (Or.inl hid)⟩

theorem leads_stopConnector (f : Factory codec) (run : Nat) : f.Leads (f.stopConnector run) := by
  cases hc : f.connectors[run]? with
  | none =>
      simp only [stopConnector, hc]
      exact .refl f
  | some c =>
      by_cases hrunning : c.running = true
      · rw [stopConnector_eq hc hrunning]
        refine (leads_drain f c).andThen fun hs _ => ?_
        refine leads_modifyConnector (fun c _ _ => c.balanced_stop _) (fun _ _ _ => rfl) ?_
        intro c' other hc' hwaits
        rw [connectors_drain, hc] at hc'
        obtain rfl := Option.some.inj hc'
        have hknown := (hs.books run c hc).pending other hwaits.1
        obtain ⟨a', ha', houtcome, -⟩ := attempt_drain c (List.getElem?_eq_getElem hknown)
        rw [if_pos hwaits.1] at houtcome
        exact Or.inr ⟨a', ha', Option.isSome_iff_exists.mpr ⟨_, houtcome⟩⟩
      · simp only [stopConnector, hc, if_neg hrunning]
        exact .refl f

theorem leads_takeDown (f : Factory codec) (component : Component) :
    f.Leads (f.takeDown component) := by
  unfold takeDown
  split
  · exact leads_modifyConnector (fun c _ hb => hb.abandon) (fun _ _ h => h)
      fun _ _ _ hwaits => Or.inl hwaits
  · exact leads_of_eq rfl rfl
  · exact leads_stopConnector f component.run

theorem leads_takeAllDown (f : Factory codec) : f.Leads f.takeAllDown.2 := by
  have hlifecycle : f.Leads { f with lifecycle := f.lifecycle.takeDown.2 } := leads_of_eq rfl rfl
  exact hlifecycle.trans (Leads.foldl leads_takeDown f.lifecycle.takeDown.1 _)

theorem leads_stop (f : Factory codec) : f.Leads f.stop.2 := by
  unfold stop
  split
  · have hstopping : f.Leads f.markStopping := leads_of_eq rfl rfl
    exact hstopping.trans ((leads_retire _).trans ((leads_takeAllDown _).trans (leads_of_eq rfl rfl)))
  · exact .refl f

/-! ### Callbacks -/

theorem leads_perform (f : Factory codec) (id : ChannelId) (deed : Deed) :
    f.Leads (f.perform id deed).2 := by
  cases deed with
  | call c =>
      have hcall := leads_call f id c
      unfold perform
      dsimp only
      split
      · rename_i heq
        rw [heq] at hcall
        exact hcall
      · rename_i heq
        rw [heq] at hcall
        exact hcall
  | cancel => exact leads_cancel f id
  | count => exact .refl f
  | stop => exact leads_stop f

theorem leads_runCallback (id : ChannelId) (f : Factory codec) (callback : Callback) :
    f.Leads (runCallback id f callback) := by
  refine (leads_note f id _).trans (Leads.foldl (fun f deed => ?_) callback.deeds _)
  exact (leads_perform f id deed).trans (leads_note _ id _)

theorem leads_onComplete (f : Factory codec) (id : ChannelId) (callback : Callback) :
    f.Leads (f.onComplete id callback.toProgram callback.retreats) := by
  unfold onComplete
  split
  · exact .refl f
  · rename_i a ha
    dsimp only
    split
    · rename_i promise hregister
      refine leads_modify fun a' ha' => ⟨rfl, fun o ho => ?_, fun h => Or.inl h⟩
      obtain rfl := Option.some.inj (ha.symm.trans ha')
      rw [Promise.register, ho] at hregister
      cases hregister
    · exact leads_runCallback id f callback
    · exact leads_modify_of_same id _ fun _ => ⟨rfl, rfl, rfl⟩

/-! ### Steps of an attempt -/

theorem leads_touch (f : Factory codec) (id : ChannelId) : f.Leads (f.touch id) := by
  unfold touch
  cases f.attempts[id]? with
  | none => exact .refl f
  | some a => exact leads_modify_of_same id _ fun _ => ⟨rfl, rfl, rfl⟩

/-- At most a look at an attempt is scheduled, with the scheduler of its run. -/
inductive Plans (f : Factory codec) (id : ChannelId) : Factory codec → Prop
  | nothing : Plans f id f
  | look {a : Attempt codec} (ha : f.attempts[id]? = some a) (delay : Nat) : Plans f id { f with
      schedulers := f.schedulers.modify a.run fun s => (s.schedule delay id).2 }

/-- Setting a watchdog, whenever it is that it looks first: that is a count of nanoseconds, which nobody
should have to evaluate. -/
def armBy (firstCheck : Watchdog → Option Nat) (f : Factory codec) (id : ChannelId) : Factory codec :=
  match f.attempts[id]? with
  | none => f
  | some a =>
      match firstCheck a.watchdog with
      | none => f
      | some delay =>
          { f with schedulers := f.schedulers.modify a.run fun s => (s.schedule delay id).2 }

theorem plans_armBy (firstCheck : Watchdog → Option Nat) (f : Factory codec) (id : ChannelId) :
    f.Plans id (f.armBy firstCheck id) := by
  unfold armBy
  cases ha : f.attempts[id]? with
  | none => exact .nothing
  | some a =>
      dsimp only
      cases firstCheck a.watchdog with
      | none => exact .nothing
      | some delay => exact .look ha delay

theorem plans_arm (f : Factory codec) (id : ChannelId) : f.Plans id (f.arm id) :=
  plans_armBy Watchdog.firstCheck f id

theorem leads_plans (h : f.Plans id f') : f.Leads f' := by
  cases h with
  | nothing => exact .refl f
  | look => exact leads_of_eq rfl rfl

theorem leads_arm (f : Factory codec) (id : ChannelId) : f.Leads (f.arm id) :=
  leads_plans (plans_arm f id)

theorem leads_noticeClosed (f : Factory codec) (id : ChannelId) : f.Leads (f.noticeClosed id) := by
  unfold noticeClosed
  split
  · exact .refl f
  · split
    · exact leads_abort f id .connectionClosed
    · exact .refl f

theorem leads_dialed (f : Factory codec) (id : ChannelId) (answer : Except Fault Address) :
    f.Leads (f.dialed id answer) := by
  unfold dialed
  split
  · exact .refl f
  · split
    · split
      · exact leads_abort f id _
      · dsimp only
        refine Leads.trans (Leads.trans ?_ (leads_touch _ id)) (leads_arm _ id)
        exact leads_modify_of_same id _ fun _ => ⟨rfl, rfl, rfl⟩
    · exact .refl f

/-- Where a session is opened, the promise has it for its outcome before the callbacks run. -/
theorem leads_openSession {attempt : Attempt codec} (ha : f.attempts[id]? = some attempt) :
    f.Leads (f.openSession id attempt).2 ∧
      ∀ session, (f.openSession id attempt).1 = .ok session → f.Sound →
        (f.openSession id attempt).2.Done id := by
  unfold openSession sessionOpened
  dsimp only
  have hcounted : ∀ sessions made,
      f.Leads { f with sessionsMade := made, sessions := sessions } :=
    fun _ _ => leads_of_eq rfl rfl
  split
  · rename_i heq
    split at heq
    · cases heq
    · obtain rfl := (Prod.mk.inj heq).2
      refine ⟨hcounted f.sessions _, fun session h => ?_⟩
      cases h
  · rename_i heq
    split at heq
    · obtain rfl := (Prod.mk.inj heq).2
      split
      · refine ⟨(hcounted _ _).trans (leads_sessionClosed _ _), fun session h => ?_⟩
        cases h
      · rename_i callbacks promise hsettle
        obtain ⟨hnone, hsome⟩ := of_settle? hsettle
        have hdone : promise.isDone = true := Option.isSome_iff_exists.mpr ⟨_, hsome⟩
        have hmodify : f.Leads (modify
            { f with
              sessionsMade := (f.newSession attempt).id
              sessions := Connector.enter (f.newSession attempt).id f.sessions } id
            fun a => { a with promise := promise, link := some ⟨f.newSession attempt, .fresh codec⟩ }) := by
          refine (hcounted _ _).trans
            (leads_modify fun a' ha' => ⟨rfl, fun o ho => ?_, fun _ => Or.inr hdone⟩)
          obtain rfl := Option.some.inj (ha.symm.trans ha')
          rw [hnone] at ho
          cases ho
        have hcallbacks : ∀ f : Factory codec, f.Leads (callbacks.foldl (runCallback id) f) :=
          Leads.foldl (leads_runCallback id) callbacks
        refine ⟨hmodify.trans (hcallbacks _), fun session _ hs => ?_⟩
        obtain ⟨hs', -⟩ := hmodify hs
        exact ((hcallbacks _) hs').2.done ⟨_, attempts_modify_self ha _, hdone⟩
    · cases heq

theorem leads_construct (f : Factory codec) (id : ChannelId) : f.Leads (f.construct id) := by
  unfold construct
  split
  · exact .refl f
  · rename_i a ha
    obtain ⟨hopen, hdone⟩ := leads_openSession ha
    split
    · rename_i fault f' heq
      rw [heq] at hopen
      exact hopen.trans (leads_abort f' id fault)
    · rename_i session f' heq
      rw [heq] at hopen hdone
      refine hopen.andThen fun hs _ => ?_
      refine (leads_markOpened (hdone session rfl hs) a.run).trans ?_
      exact leads_modify_of_same id _ fun _ => ⟨rfl, rfl, rfl⟩

theorem leads_establish (f : Factory codec) (id : ChannelId) (engine : Except Fault Unit) :
    f.Leads (f.establish id engine) := by
  unfold establish
  split
  · exact .refl f
  · split
    · exact leads_construct f id
    · exact leads_abort f id _
    · have hput : ∀ negotiations, f.Leads { f with negotiations := negotiations } :=
        fun _ => leads_of_eq rfl rfl
      apply Leads.trans (hput _)
      exact leads_modify_of_same id _ fun _ => ⟨rfl, rfl, rfl⟩
    · exact .refl f

theorem leads_secured (f : Factory codec) (id : ChannelId) (handshake : Except Fault (Option Bytes)) :
    f.Leads (f.secured id handshake) := by
  unfold secured
  split
  · exact .refl f
  · split
    · exact leads_abort f id _
    · dsimp only
      have htouch : ∀ negotiations, f.Leads { f.touch id with negotiations := negotiations } :=
        fun _ => (leads_touch f id).trans (leads_of_eq rfl rfl)
      split
      · exact (htouch _).trans (leads_abort _ id _)
      · split
        · exact (htouch _).trans (leads_abort _ id _)
        · exact (htouch _).trans (leads_construct _ id)
    · exact .refl f

/-- A connection that has ended had a session, so its promise has an outcome. -/
theorem leads_windUp (h : f.Linked id) (listener : Session.Listener) (e : Endpoint codec)
    (result : Except Fault Unit) : f.Leads (f.windUp id listener e result) := by
  unfold windUp
  dsimp only
  have htold : ∀ entries e session, f.Leads (((f.setEndpoint id e).modify id fun a =>
      { a with told := a.told ++ entries }).sessionClosed session).2 := by
    intro entries e session
    refine ((leads_setEndpoint h e).trans ?_).trans (leads_sessionClosed _ session)
    exact leads_modify_of_same id _ fun _ => ⟨rfl, rfl, rfl⟩
  cases result with
  | error fault => exact (htold _ _ _).trans (leads_abort _ id fault)
  | ok _ =>
      refine (htold _ _ _).andThen fun hs honward => leads_finish fun _ _ => ?_
      exact honward.done (h.done hs)

theorem Linked.touch (h : f.Linked id) : (f.touch id).Linked id := by
  unfold Factory.touch
  cases f.attempts[id]? with
  | none => exact h
  | some a => exact h.modify fun _ hlink => hlink

theorem leads_turn (f : Factory codec) (id : ChannelId) (socket : Socket) :
    f.Leads (f.turn id socket) := by
  unfold turn
  split
  · rename_i a e ha he
    have hlinked := linked_of_endpoint? he
    split
    · dsimp only
      have hmoved : ∀ moved : Bool, f.Leads (if moved then f.touch id else f) ∧
          (if moved then f.touch id else f).Linked id := by
        intro moved
        cases moved with
        | true => exact ⟨leads_touch f id, hlinked.touch⟩
        | false => exact ⟨.refl f, hlinked⟩
      have hturned : ∀ (moved : Bool) (e : Endpoint codec) (stage : Stage) (written : Bytes)
          (entries : List Session.Entry),
          f.Leads (((if moved then f.touch id else f).setEndpoint id e).modify id fun a =>
            { a with stage := stage, written := written, told := a.told ++ entries }) ∧
          (((if moved then f.touch id else f).setEndpoint id e).modify id fun a =>
            { a with stage := stage, written := written, told := a.told ++ entries }).Linked id := by
        intro moved e stage written entries
        obtain ⟨htouched, hlinked⟩ := hmoved moved
        refine ⟨(htouched.trans (leads_setEndpoint hlinked e)).trans ?_,
          (hlinked.setEndpoint e).modify fun _ h => h⟩
        exact leads_modify_of_same id _ fun _ => ⟨rfl, rfl, rfl⟩
      split
      · exact (hturned _ _ _ _ _).1.trans (leads_windUp (hturned _ _ _ _ _).2 _ _ _)
      · exact (hturned _ _ _ _ _).1
    · exact .refl f
  · exact .refl f

/-! ### Time -/

theorem leads_pass (f : Factory codec) (span : Nat) : f.Leads (f.pass span) :=
  leads_of_eq rfl rfl

/-- The watchdog of an attempt, looking now, would close its channel. -/
def idles (f : Factory codec) (id : ChannelId) (now : Nat) : Bool :=
  (f.attempts[id]?).any fun a => a.watchdog.check a.channel.isOpen now = .close

/-- A look, whatever it makes of the time. -/
def lookBy (check : Watchdog → Bool → Nat → Watchdog.Verdict) (f : Factory codec) (id : ChannelId)
    (now : Nat) : Factory codec :=
  match f.attempts[id]? with
  | none => f
  | some a =>
      match check a.watchdog a.channel.isOpen now with
      | .ended => f
      | .close => (f.close id).2
      | .again delay =>
          { f with schedulers := f.schedulers.modify a.run fun s => (s.schedule delay id).2 }

theorem lookBy_cases (check : Watchdog → Bool → Nat → Watchdog.Verdict) (f : Factory codec)
    (id : ChannelId) (now : Nat) :
    if (f.attempts[id]?).any fun a => check a.watchdog a.channel.isOpen now = .close
    then f.lookBy check id now = (f.close id).2 else f.Plans id (f.lookBy check id now) := by
  unfold lookBy
  cases ha : f.attempts[id]? with
  | none => exact .nothing
  | some a =>
      rw [Option.any_some]
      dsimp only
      cases check a.watchdog a.channel.isOpen now with
      | ended => exact .nothing
      | close => rfl
      | again delay => exact .look ha delay

/-- A watchdog that looks closes the channel of an attempt that idles, and nothing else. -/
theorem look_cases (f : Factory codec) (id : ChannelId) (now : Nat) :
    if f.idles id now then f.look id now = (f.close id).2 else f.Plans id (f.look id now) :=
  lookBy_cases Watchdog.check f id now

theorem look_of_idles {now : Nat} (h : f.idles id now = true) : f.look id now = (f.close id).2 := by
  have hcases := f.look_cases id now
  rwa [if_pos h] at hcases

theorem plans_look {now : Nat} (h : f.idles id now = false) : f.Plans id (f.look id now) := by
  have hcases := f.look_cases id now
  rwa [if_neg (Bool.eq_false_iff.mp h)] at hcases

theorem leads_look (f : Factory codec) (id : ChannelId) (now : Nat) : f.Leads (f.look id now) := by
  cases hidles : f.idles id now with
  | true => exact look_of_idles hidles ▸ leads_close f id
  | false => exact leads_plans (plans_look hidles)

theorem leads_fire (f : Factory codec) (run : Nat) : f.Leads (f.fire run) := by
  unfold fire
  split
  · exact .refl f
  · split
    · exact .refl f
    · have hset : ∀ schedulers, f.Leads { f with schedulers := schedulers } :=
        fun _ => leads_of_eq rfl rfl
      apply Leads.trans (hset _)
      exact leads_look _ _ _

end SpdySessions.Factory
