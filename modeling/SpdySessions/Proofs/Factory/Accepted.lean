import SpdySessions.Proofs.Factory.Steps

/-! An accepted connect is never lost. The invariant is that the books of every run are in order and
that what was accepted is kept; each step leads on, so a whole course does. A stop of a connector then
finds everything that still waits in its books. What is not waited for any more may be entered after a
stop: a callback that is handed a session can stop the factory, and the connection of that session is
taken for opened after its callbacks, until it notices that its channel is closed. -/

namespace SpdySessions.Factory

variable {codec : HeaderCodec} {f f' : Factory codec}

/-! ### Registration -/

/-- A refused registration leaves an attempt behind that is over, and the books as they were. -/
theorem refused_register {run client : Nat} {peer : Address} {listener : Session.Listener}
    {cause : Fault} (h : f.register run client peer listener = (.error cause, f')) (hs : f.Sound) :
    ∃ a : Attempt codec, a.link = none ∧ f' = { f with attempts := f.attempts ++ [a] } := by
  unfold register at h
  dsimp only at h
  split at h
  · exact ⟨_, rfl, (Prod.mk.inj h).2.symm⟩
  · rename_i c hc
    split at h
    · rename_i hregister
      obtain rfl := Connector.register_error hregister (hs.books run c hc)
      obtain ⟨hrun, rfl⟩ := List.getElem?_eq_some_iff.mp hc
      rw [List.set_getElem_self] at h
      exact ⟨_, rfl, (Prod.mk.inj h).2.symm⟩
    · cases h

/-- An accepted attempt goes into the books of its run. -/
theorem accepted_register {run client : Nat} {peer : Address} {listener : Session.Listener}
    (h : f.register run client peer listener = (.ok (), f')) :
    ∃ (a : Attempt codec) (c c' : Connector), a.link = none ∧ a.run = run ∧
      f.connectors[run]? = some c ∧ c.register f.attempts.length = (.ok (), c') ∧
      f' = modifyConnector { f with attempts := f.attempts ++ [a] } run fun _ => c' := by
  unfold register at h
  dsimp only at h
  split at h
  · cases h
  · rename_i c hc
    split at h
    · cases h
    · rename_i c' hregister
      have : Inhabited Connector := ⟨c⟩
      rw [← List.modify_eq_set (fun _ => c') run f.connectors] at h
      exact ⟨_, c, c', rfl, rfl, hc, hregister, (Prod.mk.inj h).2.symm⟩

/-- Another attempt, without a session, changes nothing for the others. -/
theorem leads_append (f : Factory codec) {a : Attempt codec} (hlink : a.link = none) :
    f.Leads { f with attempts := f.attempts ++ [a] } := by
  have hold : ∀ (id : ChannelId) (old : Attempt codec), f.attempts[id]? = some old →
      (f.attempts ++ [a])[id]? = some old := by
    intro id old hold
    rw [List.getElem?_append_left (List.getElem?_eq_some_iff.mp hold).1]
    exact hold
  intro hs
  refine ⟨⟨?_, ?_⟩, ⟨?_, (Onward.refl f).connectors, ?_⟩⟩
  · intro run c hc
    refine (hs.books run c hc).mono ?_
    rw [List.length_append]
    exact Nat.le_add_right _ _
  · intro id a' ha' hsome
    rcases Nat.lt_or_ge id f.attempts.length with hid | hid
    · have ha : f.attempts[id]? = some a' := (List.getElem?_append_left hid).symm.trans ha'
      exact hs.links id a' ha hsome
    · have ha : [a][id - f.attempts.length]? = some a' :=
        (List.getElem?_append_right hid).symm.trans ha'
      obtain rfl := List.mem_singleton.mp (List.mem_of_getElem? ha)
      rw [hlink] at hsome
      cases hsome
  · intro id a' ha
    exact ⟨a', hold id a' ha, rfl, fun _ ho => ho⟩
  · rintro id ⟨a', c, ha, hc, hwaits⟩
    exact Or.inr ⟨a', c, hold id a' ha, hc, hwaits⟩

theorem leads_refused {run client : Nat} {peer : Address} {listener : Session.Listener}
    {cause : Fault} (h : f.register run client peer listener = (.error cause, f')) : f.Leads f' := by
  intro hs
  obtain ⟨a, hlink, rfl⟩ := refused_register h hs
  exact leads_append f hlink hs

theorem leads_accepted {run client : Nat} {peer : Address} {listener : Session.Listener}
    (h : f.register run client peer listener = (.ok (), f')) :
    f.Leads f' ∧ (f.Sound → f'.Kept f.attempts.length) := by
  obtain ⟨a, c, c', hlink, hrun, hc, hregister, rfl⟩ := accepted_register h
  have hentered := fun hs : f.Sound => Connector.register_ok hregister (hs.books run c hc)
  refine ⟨?_, ?_⟩
  · refine (leads_append f hlink).andThen fun hs _ => ?_
    obtain ⟨hbalanced, -, hwaits, hrunning⟩ := hentered hs
    refine leads_modifyConnector (fun _ _ _ => ?_) (fun d hd hstopped => ?_) fun d other hd hwait => ?_
    · show c'.Balanced (f.attempts ++ [a]).length
      rw [List.length_append]
      exact hbalanced
    · obtain rfl := Option.some.inj (hc.symm.trans hd)
      exact hrunning.trans hstopped
    · obtain rfl := Option.some.inj (hc.symm.trans hd)
      exact Or.inl (hwaits other hwait)
  · intro hs
    refine Or.inr ⟨a, c', ?_, ?_, (hentered hs).2.1⟩
    · exact List.getElem?_concat_length
    · rw [hrun, connectors_modifyConnector]
      show (f.connectors[run]?).map _ = _
      rw [hc, Option.map_some, if_pos rfl]

/-! ### Courses -/

theorem leads_connect (f : Factory codec) (client : Nat) (peer : Address)
    (listener : Session.Listener) (socket : Except Fault Unit) :
    f.Leads (f.connect client peer listener socket).2 ∧
      ∀ id, (f.connect client peer listener socket).1 = .ok id → f.Sound →
        (f.connect client peer listener socket).2.Kept id := by
  unfold connect
  split
  · split
    · refine ⟨.refl f, fun id h => ?_⟩
      cases h
    · dsimp only
      split
      · rename_i fault f' heq
        refine ⟨(leads_refused heq).trans (leads_close f' _), fun id h => ?_⟩
        cases h
      · rename_i f' heq
        refine ⟨(leads_accepted heq).1, fun id h hs => ?_⟩
        obtain rfl := Except.ok.inj h
        exact (leads_accepted heq).2 hs
  · refine ⟨.refl f, fun id h => ?_⟩
    cases h

theorem leads_after (f : Factory codec) (e : Event) : f.Leads (f.after e) := by
  cases e with
  | newClient number =>
      show f.Leads (f.newClient number).2
      unfold newClient
      split
      · exact .refl f
      · exact leads_of_eq rfl rfl
  | configure client change => exact leads_of_eq rfl rfl
  | start executor => exact leads_start f executor
  | markStopping => exact leads_of_eq rfl rfl
  | retire => exact leads_retire f
  | takeDown component => exact leads_takeDown f component
  | stopConnector run => exact leads_stopConnector f run
  | markStopped => exact leads_of_eq rfl rfl
  | stop => exact leads_stop f
  | drop => exact leads_takeAllDown f
  | onComplete id callback => exact leads_onComplete f id callback
  | call id c => exact leads_call f id c
  | cancel id => exact leads_cancel f id
  | close id => exact leads_close f id
  | noticeClosed id => exact leads_noticeClosed f id
  | dialed id answer => exact leads_dialed f id answer
  | establish id engine => exact leads_establish f id engine
  | secured id handshake => exact leads_secured f id handshake
  | turn id socket => exact leads_turn f id socket
  | pass span => exact leads_pass f span
  | fire run => exact leads_fire f run

/-- A step loses nothing, and keeps what it accepts. -/
theorem Step.leads {new : List ChannelId} (h : Step f new f') :
    f.Leads f' ∧ (f.Sound → ∀ id ∈ new, f'.Kept id) := by
  cases h with
  | registered h =>
      obtain ⟨hleads, hkept⟩ := leads_accepted h
      refine ⟨hleads, fun hs id hid => ?_⟩
      obtain rfl := List.mem_singleton.mp hid
      exact hkept hs
  | refused h => exact ⟨leads_refused h, fun _ _ hid => absurd hid List.not_mem_nil⟩
  | @connected client peer listener socket id f' h =>
      obtain ⟨hleads, hkept⟩ := leads_connect f client peer listener socket
      rw [h] at hleads hkept
      refine ⟨hleads, fun hs other hother => ?_⟩
      obtain rfl := List.mem_singleton.mp hother
      exact hkept other rfl hs
  | @unconnected client peer listener socket cause f' h =>
      obtain ⟨hleads, -⟩ := leads_connect f client peer listener socket
      rw [h] at hleads
      exact ⟨hleads, fun _ _ hid => absurd hid List.not_mem_nil⟩
  | event e => exact ⟨leads_after f e, fun _ _ hid => absurd hid List.not_mem_nil⟩

/-- **A course loses nothing.** Whatever was accepted on the way is kept in the end. -/
theorem Course.leads {accepted : List ChannelId} (h : Course f accepted f') :
    f.Leads f' ∧ (f.Sound → ∀ id ∈ accepted, f'.Kept id) := by
  induction h with
  | refl => exact ⟨.refl f, fun _ _ hid => absurd hid List.not_mem_nil⟩
  | step h hstep ih =>
      obtain ⟨hleads, hkept⟩ := ih
      obtain ⟨hleads', hkept'⟩ := hstep.leads
      refine ⟨hleads.trans hleads', fun hs id hid => ?_⟩
      obtain ⟨hs', -⟩ := hleads hs
      rcases List.mem_append.mp hid with hid | hid
      · exact (hleads' hs').2.kept (hkept hs id hid)
      · exact hkept' hs' id hid

/-! ### Stops -/

/-- What a stop of a running connector leaves: empty books, an outcome for every attempt of the run that
was accepted, closed channels, and nothing to do for any later stop. -/
structure StopsAll (f : Factory codec) (run : Nat) (c : Connector) (accepted : List ChannelId)
    (f' : Factory codec) : Prop where
  books : f'.connectors[run]? =
    some { c with running := false, channels := [], pending := [], opened := [] }
  outcomes : ∀ id ∈ accepted, ∀ a, f.attempts[id]? = some a → a.run = run →
    ∃ a', f'.attempts[id]? = some a' ∧
      a'.promise.outcome = some (a.promise.outcome.getD (.failed .notRunning))
  closed : ∀ id ∈ c.channels, ∃ a', f'.attempts[id]? = some a' ∧ a'.channel.isOpen = false
  again : ∀ accepted' later, Course f' accepted' later → later.stopConnector run = later

theorem stopConnector_of_stopped {run : Nat} {c : Connector} (hc : f.connectors[run]? = some c)
    (hstopped : c.running = false) : f.stopConnector run = f := by
  simp only [stopConnector, hc, hstopped]
  rfl

theorem stopsAll {accepted : List ChannelId} (hs : f.Sound) (hkept : ∀ id ∈ accepted, f.Kept id)
    {run : Nat} {c : Connector} (hc : f.connectors[run]? = some c) (hrunning : c.running = true) :
    StopsAll f run c accepted (f.stopConnector run) := by
  have hbooks : (f.stopConnector run).connectors[run]? = some c.stop := by
    rw [stopConnector_eq hc hrunning, connectors_modifyConnector, connectors_drain, hc,
      Option.map_some, if_pos rfl]
  have hattempts : (f.stopConnector run).attempts = (f.drain c).attempts := by
    rw [stopConnector_eq hc hrunning]
    rfl
  refine ⟨hbooks, ?_, ?_, ?_⟩
  · intro id hid a ha hrun
    obtain ⟨a', ha', houtcome, -⟩ := attempt_drain c ha
    refine ⟨a', hattempts ▸ ha', ?_⟩
    rw [houtcome]
    split
    · rfl
    · rename_i hpending
      -- What is not pending any more and was accepted has an outcome, and that stays.
      rcases hkept id hid with ⟨b, hb, hdone⟩ | ⟨b, d, hb, hd, hwaits⟩
      · obtain rfl := Option.some.inj (ha.symm.trans hb)
        obtain ⟨o, ho⟩ := Option.isSome_iff_exists.mp hdone
        rw [ho, Option.getD_some]
      · obtain rfl := Option.some.inj (ha.symm.trans hb)
        obtain rfl := Option.some.inj (hc.symm.trans (hrun ▸ hd))
        exact absurd hwaits.1 hpending
  · intro id hid
    obtain ⟨a', ha', -, hclosed⟩ :=
      attempt_drain c (List.getElem?_eq_getElem ((hs.books run c hc).channels id hid))
    exact ⟨a', hattempts ▸ ha', hclosed hid⟩
  · intro accepted' later hcourse
    obtain ⟨hs', -⟩ := leads_stopConnector f run hs
    obtain ⟨c', hc', hstays⟩ := (hcourse.leads.1 hs').2.connectors run c.stop hbooks
    exact stopConnector_of_stopped hc' (hstays rfl)

/-- **An accepted connect is never lost.** On every course of a new factory, in every state between two
steps: each attempt that was accepted has an outcome or waits in the books of its run, which track its
channel; nobody waits for what carries a connection. A stop of a running connector empties the books,
gives every accepted attempt of the run an outcome, that it was not running unless there was another,
closes every channel that was tracked, and leaves nothing to do for a second one. A registration that is
refused leaves the books of all runs as they were. -/
theorem accepted_never_lost {f₀ : Factory codec} {accepted : List ChannelId}
    (hattempts : f₀.attempts = []) (hconnectors : f₀.connectors = []) (h : Course f₀ accepted f) :
    (∀ id ∈ accepted, f.Kept id) ∧
    (∀ run c, f.connectors[run]? = some c →
      (∀ id ∈ c.pending, id ∉ c.opened) ∧
      (c.running = true → StopsAll f run c accepted (f.stopConnector run)) ∧
      (c.running = false → c.channels = [] ∧ c.pending = [] ∧ f.stopConnector run = f)) ∧
    ∀ run client peer listener cause f', f.register run client peer listener = (.error cause, f') →
      f'.connectors = f.connectors := by
  have hnew : f₀.Sound := sound_new hattempts hconnectors
  obtain ⟨hleads, hkept⟩ := h.leads
  obtain ⟨hs, -⟩ := hleads hnew
  refine ⟨hkept hnew, fun run c hc => ⟨(hs.books run c hc).disjoint, fun hrunning => ?_,
    fun hstopped => ?_⟩, ?_⟩
  · exact stopsAll hs (hkept hnew) hc hrunning
  · obtain ⟨hchannels, hpending⟩ := (hs.books run c hc).stopped hstopped
    exact ⟨hchannels, hpending, stopConnector_of_stopped hc hstopped⟩
  · intro run client peer listener cause f' hrefused
    obtain ⟨a, -, rfl⟩ := refused_register hrefused hs
    rfl

/-- A factory whose only client connects twice to one peer. -/
def unused : Factory .identity :=
  { suppliedExecutor := true, clients := [{ version := .v3 }] }

def host : Address := ⟨.v4 127 0 0 1, 6121, 0⟩

def started : Factory .identity := unused.after (.start (.ok ()))

def registeredOnce : Factory .identity := (started.register 0 0 host .silent).2

def registeredTwice : Factory .identity := (registeredOnce.register 0 0 host .silent).2

/-- The first of two connects carries a session, the second is dialing. -/
def busy : Factory .identity :=
  (registeredTwice.after (.dialed 0 (.ok host))).after (.establish 0 (.ok ()))

theorem busy_never_lost :
    (∀ id ∈ [0, 1], busy.Kept id) ∧
    (∀ run c, busy.connectors[run]? = some c →
      (∀ id ∈ c.pending, id ∉ c.opened) ∧
      (c.running = true → StopsAll busy run c [0, 1] (busy.stopConnector run)) ∧
      (c.running = false → c.channels = [] ∧ c.pending = [] ∧ busy.stopConnector run = busy)) ∧
    ∀ run client peer listener cause f',
      busy.register run client peer listener = (.error cause, f') →
        f'.connectors = busy.connectors := by
  have hfirst : started.register 0 0 host .silent = (.ok (), registeredOnce) := rfl
  have hsecond : registeredOnce.register 0 0 host .silent = (.ok (), registeredTwice) := rfl
  have hstart := (Course.refl (f := unused)).step (.event (.start (.ok ())))
  have hcourse := ((hstart.step (.registered hfirst)).step (.registered hsecond)).step
    (.event (.dialed 0 (.ok host)))
  exact accepted_never_lost rfl rfl (hcourse.step (.event (.establish 0 (.ok ()))))

end SpdySessions.Factory
