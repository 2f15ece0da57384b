import SpdySessions.Proofs.Connection.Turn
import SpdySessions.Proofs.Factory.Quiet

/-! What a factory keeps track of. Whatever stands in the books, negotiates, or has its session among the
open ones is an attempt that is not over; a factory that does not run has no open sessions. Quiet changes
keep this, and so does whatever begins or ends an attempt or a session, each for a reason of its own. -/

namespace SpdySessions

namespace Factory

variable {codec : HeaderCodec} {f f' : Factory codec} {id : ChannelId}

/-- An attempt of a run that is not over. -/
def Lives (f : Factory codec) (id : ChannelId) (run : Nat) : Prop :=
  ∃ a, f.attempts[id]? = some a ∧ a.run = run ∧ a.stage.isEnded = false

/-- A session whose attempt is not over. -/
def Carried (f : Factory codec) (session : SessionId) : Prop :=
  ∃ (id : ChannelId) (a : Attempt codec), f.attempts[id]? = some a ∧
    a.session? = some session ∧ a.stage.isEnded = false

/-- Only what is not over is kept track of, and every session has a number of its own. -/
structure Tidy (f : Factory codec) : Prop where
  books : ∀ (run : Nat) (c : Connector) (id : ChannelId), f.connectors[run]? = some c → c.Tracks id →
    f.Lives id run
  negotiations : ∀ handler ∈ f.negotiations.handlers, ∃ run, f.Lives handler.1 run
  sessions : ∀ session ∈ f.sessions, f.Carried session
  numbers : ∀ (id other : ChannelId) (a b : Attempt codec) (session : SessionId),
    f.attempts[id]? = some a → f.attempts[other]? = some b →
    a.session? = some session → b.session? = some session → id = other
  made : ∀ (id : ChannelId) (a : Attempt codec) (session : SessionId),
    f.attempts[id]? = some a → a.session? = some session → session ≤ f.sessionsMade
  idle : f.isRunning = false → f.sessions = []

/-! ### Changes that keep what is tracked -/

/-- What a tidy factory depends on: the runs, sessions and ends of the attempts. -/
theorem Tidy.of_attempts (h : f.Tidy)
    (hattempts : ∀ id : ChannelId, (f.attempts[id]? = none ∧ f'.attempts[id]? = none) ∨
      ∃ a a' : Attempt codec, f.attempts[id]? = some a ∧ f'.attempts[id]? = some a' ∧
        a'.run = a.run ∧ a'.session? = a.session? ∧ a'.stage.isEnded = a.stage.isEnded)
    (hbooks : ∀ (run : Nat) (c' : Connector) (id : ChannelId), f'.connectors[run]? = some c' →
      c'.Tracks id → ∃ c, f.connectors[run]? = some c ∧ c.Tracks id)
    (hnegotiations : f'.negotiations = f.negotiations) (hmade : f.sessionsMade ≤ f'.sessionsMade)
    (hsessions : f'.sessions = [] ∨
      ((∀ session ∈ f'.sessions, session ∈ f.sessions) ∧ f'.isRunning = f.isRunning)) : f'.Tidy := by
  have hbefore : ∀ (id : ChannelId) (a' : Attempt codec), f'.attempts[id]? = some a' →
      ∃ a, f.attempts[id]? = some a ∧ a'.session? = a.session? := by
    intro id a' ha'
    rcases hattempts id with ⟨-, hnone⟩ | ⟨a, b, ha, hb, -, hsession, -⟩
    · cases ha'.symm.trans hnone
    · obtain rfl := Option.some.inj (ha'.symm.trans hb)
      exact ⟨a, ha, hsession⟩
  have hlives : ∀ (id : ChannelId) run, f.Lives id run → f'.Lives id run := by
    rintro id run ⟨a, ha, hrun, hended⟩
    rcases hattempts id with ⟨hnone, -⟩ | ⟨b, a', hb, ha', hrun', -, hended'⟩
    · cases ha.symm.trans hnone
    · obtain rfl := Option.some.inj (ha.symm.trans hb)
      exact ⟨a', ha', hrun'.trans hrun, hended'.trans hended⟩
  refine
    { books := fun run c' id hc' htracks => ?_, negotiations := ?_, sessions := fun session hs => ?_,
      numbers := fun id other a' b' session ha' hb' hs hs' => ?_,
      made := fun id a' session ha' hs => ?_, idle := fun hnot => ?_ }
  · obtain ⟨c, hc, htracks⟩ := hbooks run c' id hc' htracks
    exact hlives id run (h.books run c id hc htracks)
  · rw [hnegotiations]
    intro handler hhandler
    obtain ⟨run, hlive⟩ := h.negotiations handler hhandler
    exact ⟨run, hlives _ run hlive⟩
  · rcases hsessions with hnone | ⟨hsub, -⟩
    · rw [hnone] at hs
      cases hs
    · obtain ⟨id, a, ha, hsession, hended⟩ := h.sessions session (hsub session hs)
      rcases hattempts id with ⟨hnone, -⟩ | ⟨b, a', hb, ha', -, hsession', hended'⟩
      · cases ha.symm.trans hnone
      · obtain rfl := Option.some.inj (ha.symm.trans hb)
        exact ⟨id, a', ha', hsession'.trans hsession, hended'.trans hended⟩
  · obtain ⟨a, ha, hsame⟩ := hbefore id a' ha'
    obtain ⟨b, hb, hsame'⟩ := hbefore other b' hb'
    exact h.numbers id other a b session ha hb (hsame ▸ hs) (hsame' ▸ hs')
  · obtain ⟨a, ha, hsame⟩ := hbefore id a' ha'
    exact Nat.le_trans (h.made id a session ha (hsame ▸ hs)) hmade
  · rcases hsessions with hnone | ⟨hsub, hrunning⟩
    · exact hnone
    · rw [hrunning] at hnot
      refine List.eq_nil_iff_forall_not_mem.mpr fun session hs => ?_
      have hsession := hsub session hs
      rw [h.idle hnot] at hsession
      cases hsession

theorem Tidy.quiet (h : f.Tidy) (hq : f.Quiet f') : f'.Tidy := by
  refine h.of_attempts (fun id => ?_) hq.books hq.negotiations (Nat.le_of_eq hq.made.symm) ?_
  · rcases hq.attempts id with hnone | ⟨a, a', ha, ha', hq⟩
    · exact Or.inl hnone
    · exact Or.inr ⟨a, a', ha, ha', hq.run, hq.session, hq.ended⟩
  · rcases hq.sessions with hnone | ⟨hsame, hrunning⟩
    · exact Or.inl hnone
    · exact Or.inr ⟨fun session hs => hsame ▸ hs, hrunning⟩

theorem Tidy.modify (h : f.Tidy) {change : Attempt codec → Attempt codec}
    (hsame : ∀ a : Attempt codec, f.attempts[id]? = some a → (change a).run = a.run ∧
      (change a).session? = a.session? ∧ (change a).stage.isEnded = a.stage.isEnded) :
    (f.modify id change).Tidy := by
  refine h.of_attempts (fun other => ?_) (fun run c id hc htracks => ⟨c, hc, htracks⟩) rfl
    (Nat.le_refl _) (Or.inr ⟨fun _ hs => hs, rfl⟩)
  rw [attempts_modify]
  cases ha : f.attempts[other]? with
  | none => exact Or.inl ⟨rfl, rfl⟩
  | some a =>
      refine Or.inr ⟨a, if id = other then change a else a, rfl, rfl, ?_⟩
      by_cases hid : id = other
      · rw [if_pos hid]
        exact hsame a (hid ▸ ha)
      · rw [if_neg hid]
        exact ⟨rfl, rfl, rfl⟩

/-! ### Attempts begin -/

/-- Whether a registration succeeds or not, nothing but the attempt itself may be new in the books. -/
theorem tracks_register {c c' : Connector} {result : Except Fault Unit} {other : ChannelId}
    (h : c.register id = (result, c')) (htracks : c'.Tracks other) :
    c.Tracks other ∨ (result = .ok () ∧ other = id) := by
  unfold Connector.register at h
  dsimp only at h
  split at h
  · split at h
    · obtain ⟨rfl, rfl⟩ := Prod.mk.inj h
      rcases htracks with htracks | htracks | htracks
      · rcases Connector.mem_enter.mp htracks with htracks | rfl
        · exact Or.inl (Or.inl htracks)
        · exact Or.inr ⟨rfl, rfl⟩
      · rcases Connector.mem_enter.mp htracks with htracks | rfl
        · exact Or.inl (Or.inr (Or.inl htracks))
        · exact Or.inr ⟨rfl, rfl⟩
      · exact Or.inl (Or.inr (Or.inr htracks))
    · obtain ⟨-, rfl⟩ := Prod.mk.inj h
      left
      rcases htracks with htracks | htracks | htracks
      · obtain ⟨htracks, hne⟩ := Connector.mem_strike.mp htracks
        exact Or.inl ((Connector.mem_enter.mp htracks).resolve_right hne)
      · obtain ⟨htracks, hne⟩ := Connector.mem_strike.mp htracks
        exact Or.inr (Or.inl ((Connector.mem_enter.mp htracks).resolve_right hne))
      · exact Or.inr (Or.inr (Connector.mem_strike.mp htracks).1)
  · obtain ⟨-, rfl⟩ := Prod.mk.inj h
    exact Or.inl htracks

/-- The attempt that a registration makes. -/
def newcomer (f : Factory codec) (run client : Nat) (peer : Address) (listener : Session.Listener) :
    Attempt codec :=
  { channel := { id := f.attempts.length, peer }, client, run, listener }

theorem register_eq {run client : Nat} {peer : Address} {listener : Session.Listener}
    {result : Except Fault Unit} (h : f.register run client peer listener = (result, f')) :
    ∃ stage connectors,
      f' = { f with
        attempts := f.attempts ++ [{ f.newcomer run client peer listener with stage := stage }]
        connectors := connectors } ∧
      (result = .ok () ∧ stage = .dialing ∨ (∃ cause, result = .error cause) ∧ stage = .ended) ∧
      ∀ other c' tracked, connectors[other]? = some c' → c'.Tracks tracked →
        (∃ c, f.connectors[other]? = some c ∧ c.Tracks tracked) ∨
          (result = .ok () ∧ other = run ∧ tracked = f.attempts.length) := by
  have hset : ∀ {c c' : Connector}, f.connectors[run]? = some c →
      c.register f.attempts.length = (result, c') →
      ∀ other d tracked, (f.connectors.set run c')[other]? = some d → d.Tracks tracked →
        (∃ c, f.connectors[other]? = some c ∧ c.Tracks tracked) ∨
          (result = .ok () ∧ other = run ∧ tracked = f.attempts.length) := by
    intro c c' hc hregister other d tracked hd htracks
    by_cases hother : run = other
    · subst hother
      rw [List.getElem?_set_self (List.getElem?_eq_some_iff.mp hc).1] at hd
      obtain rfl := Option.some.inj hd
      rcases tracks_register hregister htracks with htracks | ⟨hok, hnew⟩
      · exact Or.inl ⟨c, hc, htracks⟩
      · exact Or.inr ⟨hok, rfl, hnew⟩
    · rw [List.getElem?_set_ne hother] at hd
      exact Or.inl ⟨d, hd, htracks⟩
  unfold register at h
  dsimp only at h
  split at h
  · obtain ⟨rfl, rfl⟩ := Prod.mk.inj h
    exact ⟨.ended, f.connectors, rfl, Or.inr ⟨⟨_, rfl⟩, rfl⟩, fun _ c _ hc ht => Or.inl ⟨c, hc, ht⟩⟩
  · rename_i c hc
    split at h
    · rename_i fault c' hregister
      obtain ⟨rfl, rfl⟩ := Prod.mk.inj h
      exact ⟨.ended, _, rfl, Or.inr ⟨⟨_, rfl⟩, rfl⟩, hset hc hregister⟩
    · rename_i c' hregister
      obtain ⟨rfl, rfl⟩ := Prod.mk.inj h
      exact ⟨.dialing, _, rfl, Or.inl ⟨rfl, rfl⟩, hset hc hregister⟩

theorem Tidy.register (h : f.Tidy) {run client : Nat} {peer : Address} {listener : Session.Listener}
    {result : Except Fault Unit} (heq : f.register run client peer listener = (result, f')) :
    f'.Tidy := by
  obtain ⟨stage, connectors, rfl, hstage, hbooks⟩ := register_eq heq
  let a : Attempt codec := { f.newcomer run client peer listener with stage := stage }
  have hold : ∀ {id : ChannelId} {old : Attempt codec}, f.attempts[id]? = some old →
      (f.attempts ++ [a])[id]? = some old := by
    intro id old hold
    rw [List.getElem?_append_left (List.getElem?_eq_some_iff.mp hold).1]
    exact hold
  have hnew : (f.attempts ++ [a])[f.attempts.length]? = some a := List.getElem?_concat_length
  -- The newcomer has no session.
  have hsessions : ∀ {id : ChannelId} {b : Attempt codec} {session : SessionId},
      (f.attempts ++ [a])[id]? = some b → b.session? = some session → f.attempts[id]? = some b := by
    intro id b session hb hsession
    rcases Nat.lt_or_ge id f.attempts.length with hid | hid
    · rwa [List.getElem?_append_left hid] at hb
    · rw [List.getElem?_append_right hid] at hb
      obtain rfl := List.mem_singleton.mp (List.mem_of_getElem? hb)
      cases hsession
  have hlives : ∀ {id : ChannelId} {run : Nat}, f.Lives id run →
      Lives { f with attempts := f.attempts ++ [a], connectors := connectors } id run := by
    rintro id run ⟨b, hb, hrun, hended⟩
    exact ⟨b, hold hb, hrun, hended⟩
  refine
    { books := fun other c' tracked hc' htracks => ?_, negotiations := fun handler hhandler => ?_,
      sessions := fun session hs => ?_,
      numbers := fun id other a' b' session ha' hb' hs hs' =>
        h.numbers id other a' b' session (hsessions ha' hs) (hsessions hb' hs') hs hs',
      made := fun id a' session ha' hs => h.made id a' session (hsessions ha' hs) hs,
      idle := h.idle }
  · rcases hbooks other c' tracked hc' htracks with ⟨c, hc, htracks⟩ | ⟨rfl, rfl, rfl⟩
    · exact hlives (h.books other c tracked hc htracks)
    · refine ⟨a, hnew, rfl, ?_⟩
      rcases hstage with ⟨-, rfl⟩ | ⟨⟨cause, hcause⟩, -⟩
      · rfl
      · cases hcause
  · obtain ⟨run, hlive⟩ := h.negotiations handler hhandler
    exact ⟨run, hlives hlive⟩
  · obtain ⟨id, b, hb, hsession, hended⟩ := h.sessions session hs
    exact ⟨id, b, hold hb, hsession, hended⟩

/-! ### Sessions and runs -/

/-- Attempts are left alone; whoever has a handler is not over. -/
theorem Tidy.negotiate (h : f.Tidy) {negotiations : Negotiations}
    (hlives : ∀ handler ∈ negotiations.handlers,
      handler ∈ f.negotiations.handlers ∨ ∃ run, f.Lives handler.1 run) :
    Tidy { f with negotiations := negotiations } :=
  { h with
    negotiations := fun handler hhandler =>
      (hlives handler hhandler).elim (h.negotiations handler) fun hlive => hlive }

/-- A number that no session gets. -/
theorem Tidy.skip (h : f.Tidy) {made : Nat} (hmade : f.sessionsMade ≤ made) :
    Tidy { f with sessionsMade := made } :=
  { h with made := fun id a session ha hs => Nat.le_trans (h.made id a session ha hs) hmade }

theorem Tidy.sessionClosed (h : f.Tidy) (session : SessionId) :
    (f.sessionClosed session).2.Tidy ∧ session ∉ (f.sessionClosed session).2.sessions := by
  unfold Factory.sessionClosed
  split
  · refine ⟨{ h with sessions := fun other hother => ?_, idle := fun hnot => ?_ }, fun hsession => ?_⟩
    · exact h.sessions other (List.mem_filter.mp hother).1
    · show f.sessions.filter _ = []
      rw [h.idle hnot, List.filter_nil]
    · simpa using (List.mem_filter.mp hsession).2
  · rename_i hnot
    refine ⟨h, ?_⟩
    show session ∉ f.sessions
    rw [h.idle (Bool.not_eq_true _ ▸ hnot)]
    exact List.not_mem_nil

/-- The factory after a session was made for an attempt and handed to its promise. -/
def opened (f : Factory codec) (id : ChannelId) (a : Attempt codec)
    (promise : Promise SessionId Callback) : Factory codec :=
  modify { f with
    sessionsMade := (f.newSession a).id
    sessions := Connector.enter (f.newSession a).id f.sessions } id
    fun a' => { a' with promise := promise, link := some ⟨f.newSession a, .fresh codec⟩ }

theorem Tidy.opened (h : f.Tidy) (hrunning : f.isRunning = true) {a : Attempt codec}
    (ha : f.attempts[id]? = some a) (hnone : a.session? = none) (hended : a.stage.isEnded = false)
    (promise : Promise SessionId Callback) : (f.opened id a promise).Tidy := by
  have hattempts : ∀ other : ChannelId, (f.opened id a promise).attempts[other]? =
      (f.attempts[other]?).map fun b => if id = other then
        { b with promise := promise, link := some ⟨f.newSession a, .fresh codec⟩ } else b :=
    fun other => attempts_modify _ id other _
  have hlives : ∀ {other : ChannelId} {run : Nat}, f.Lives other run →
      (f.opened id a promise).Lives other run := by
    rintro other run ⟨b, hb, hrun, hended⟩
    refine ⟨_, (hattempts other).trans (by rw [hb, Option.map_some]), ?_⟩
    split
    · exact ⟨hrun, hended⟩
    · exact ⟨hrun, hended⟩
  -- A session after that is the new one, or was there before.
  have hsessions : ∀ {other : ChannelId} {b : Attempt codec} {session : SessionId},
      (f.opened id a promise).attempts[other]? = some b → b.session? = some session →
      (other = id ∧ session = f.sessionsMade + 1) ∨
        ∃ b', f.attempts[other]? = some b' ∧ b'.session? = some session := by
    intro other b session hb hsession
    rw [hattempts] at hb
    obtain ⟨b', hb', rfl⟩ := Option.map_eq_some_iff.mp hb
    by_cases hid : id = other
    · rw [if_pos hid] at hsession
      exact Or.inl ⟨hid.symm, (Option.some.inj hsession).symm⟩
    · rw [if_neg hid] at hsession
      exact Or.inr ⟨b', hb', hsession⟩
  have hfresh : ∀ {other : ChannelId} {b : Attempt codec},
      f.attempts[other]? = some b → b.session? ≠ some (f.sessionsMade + 1) := by
    intro other b hb hsession
    exact absurd (h.made other b _ hb hsession) (Nat.not_succ_le_self _)
  refine
    { books := fun run c tracked hc htracks => hlives (h.books run c tracked hc htracks),
      negotiations := fun handler hhandler => ?_, sessions := fun session hs => ?_,
      numbers := fun other other' b b' session hb hb' hs hs' => ?_,
      made := fun other b session hb hs => ?_, idle := fun hnot => ?_ }
  · obtain ⟨run, hlive⟩ := h.negotiations handler hhandler
    exact ⟨run, hlives hlive⟩
  · rcases Connector.mem_enter.mp hs with hs | rfl
    · obtain ⟨other, b, hb, hsession, hended'⟩ := h.sessions session hs
      refine ⟨other, b, (hattempts other).trans ?_, hsession, hended'⟩
      rw [hb, Option.map_some, if_neg]
      rintro rfl
      obtain rfl := Option.some.inj (ha.symm.trans hb)
      cases hnone.symm.trans hsession
    · refine ⟨id, { a with promise := promise, link := some ⟨f.newSession a, .fresh codec⟩ }, ?_,
        rfl, hended⟩
      rw [hattempts, ha, Option.map_some, if_pos rfl]
  · rcases hsessions hb hs with ⟨rfl, rfl⟩ | ⟨c, hc, hsession⟩
    · rcases hsessions hb' hs' with ⟨rfl, -⟩ | ⟨c', hc', hsession'⟩
      · rfl
      · exact absurd hsession' (hfresh hc')
    · rcases hsessions hb' hs' with ⟨-, rfl⟩ | ⟨c', hc', hsession'⟩
      · exact absurd hsession (hfresh hc)
      · exact h.numbers other other' c c' session hc hc' hsession hsession'
  · show session ≤ f.sessionsMade + 1
    rcases hsessions hb hs with ⟨-, rfl⟩ | ⟨c, hc, hsession⟩
    · exact Nat.le_refl _
    · exact Nat.le_succ_of_le (h.made other c session hc hsession)
  · cases hrunning.symm.trans hnot

theorem Tidy.markOpened (h : f.Tidy) {run : Nat} (hlive : f.Lives id run) :
    (f.modifyConnector run (·.markOpened id)).Tidy := by
  refine { h with books := fun other c' tracked hc' htracks => ?_ }
  show f.Lives tracked other
  rw [connectors_modifyConnector] at hc'
  obtain ⟨c, hc, rfl⟩ := Option.map_eq_some_iff.mp hc'
  by_cases hother : run = other
  · subst hother
    rw [if_pos rfl] at htracks
    rcases htracks with htracks | htracks | htracks
    · exact h.books run c tracked hc (Or.inl htracks)
    · exact h.books run c tracked hc (Or.inr (Or.inl (Connector.mem_strike.mp htracks).1))
    · rcases Connector.mem_enter.mp htracks with htracks | rfl
      · exact h.books run c tracked hc (Or.inr (Or.inr htracks))
      · exact hlive
  · rw [if_neg hother] at htracks
    exact h.books other c tracked hc htracks

/-- A run begins with empty books, and without sessions: nobody had one while nothing ran. -/
theorem Tidy.start (h : f.Tidy) (executor : Except Fault Unit) : (f.start executor).2.Tidy := by
  cases hrunning : f.isRunning with
  | true =>
      rw [start_of_running hrunning]
      exact h
  | false =>
      have hnone : (f.start executor).2.sessions = [] :=
        (sessions_start f executor).trans (h.idle hrunning)
      have hsame : ∀ id : ChannelId, (f.attempts[id]? = none ∧ f.attempts[id]? = none) ∨
          ∃ a a' : Attempt codec, f.attempts[id]? = some a ∧ f.attempts[id]? = some a' ∧
            a'.run = a.run ∧ a'.session? = a.session? ∧ a'.stage.isEnded = a.stage.isEnded := by
        intro id
        cases ha : f.attempts[id]? with
        | none => exact Or.inl ⟨rfl, rfl⟩
        | some a => exact Or.inr ⟨a, a, rfl, rfl, rfl, rfl, rfl⟩
      have hkept : ∀ (run : Nat) (c : Connector) (id : ChannelId), f.connectors[run]? = some c →
          c.Tracks id → ∃ c, f.connectors[run]? = some c ∧ c.Tracks id :=
        fun _ c _ hc htracks => ⟨c, hc, htracks⟩
      unfold Factory.start at hnone ⊢
      split at hnone
      · exact h.of_attempts hsame hkept rfl (Nat.le_refl _) (Or.inl hnone)
      · exact h.of_attempts hsame hkept rfl (Nat.le_refl _) (Or.inl hnone)
      · refine h.of_attempts hsame (fun run c' id hc' htracks => ?_) rfl (Nat.le_refl _) (Or.inl hnone)
        rcases Nat.lt_or_ge run f.connectors.length with hrun | hrun
        · rw [List.getElem?_append_left hrun] at hc'
          exact ⟨c', hc', htracks⟩
        · rw [List.getElem?_append_right hrun] at hc'
          obtain rfl := List.mem_singleton.mp (List.mem_of_getElem? hc')
          rcases htracks with htracks | htracks | htracks <;> cases htracks

/-! ### Attempts end -/

theorem attempts_finish (f : Factory codec) (id other : ChannelId) :
    (f.finish id).attempts[other]? = (f.attempts[other]?).map fun a =>
      if id = other then { a.close with stage := .ended } else a := by
  have hclosed : ∀ other : ChannelId, (f.close id).2.attempts[other]? =
      (f.attempts[other]?).map fun a => if id = other then a.close else a :=
    fun other => attempts_modify f id other Attempt.close
  have htwice : ((f.close id).2.attempts[other]?).map (fun a =>
      if id = other then { a with stage := .ended } else a) = (f.attempts[other]?).map fun a =>
      if id = other then { a.close with stage := .ended } else a := by
    rw [hclosed, Option.map_map]
    congr 1
    funext a
    by_cases hid : id = other
    · simp only [Function.comp, if_pos hid]
    · simp only [Function.comp, if_neg hid]
  unfold finish
  dsimp only
  split
  · exact (attempts_modify _ id other _).trans htwice
  · exact (attempts_modify _ id other _).trans htwice

theorem finish_eq {a : Attempt codec} (ha : f.attempts[id]? = some a) :
    (f.finish id).connectors = f.connectors.modify a.run (·.forget id) ∧
    (f.finish id).negotiations = f.negotiations.erase id ∧
    (f.finish id).sessionsMade = f.sessionsMade ∧ (f.finish id).sessions = f.sessions ∧
    (f.finish id).isRunning = f.isRunning := by
  have hclosed : (f.close id).2.attempts[id]? = some a.close := attempts_modify_self ha Attempt.close
  simp only [finish, hclosed]
  exact ⟨rfl, rfl, rfl, rfl, rfl⟩

/-- The books of its run forget an attempt that is over, and others never knew it. Its session has to be
gone by then. -/
theorem Tidy.finish (h : f.Tidy) {a : Attempt codec} (ha : f.attempts[id]? = some a)
    (hsession : ∀ session, a.session? = some session → session ∉ f.sessions) : (f.finish id).Tidy := by
  obtain ⟨hconnectors, hnegotiations, hmade, hsessions, hrunning⟩ := finish_eq ha
  have hlives : ∀ {other : ChannelId} {run : Nat}, other ≠ id → f.Lives other run →
      (f.finish id).Lives other run := by
    rintro other run hne ⟨b, hb, hrun, hended⟩
    refine ⟨b, ?_, hrun, hended⟩
    rw [attempts_finish, hb, Option.map_some, if_neg (Ne.symm hne)]
  have hbefore : ∀ {other : ChannelId} {b : Attempt codec}, (f.finish id).attempts[other]? = some b →
      ∃ b', f.attempts[other]? = some b' ∧ b.session? = b'.session? := by
    intro other b hb
    rw [attempts_finish] at hb
    obtain ⟨b', hb', rfl⟩ := Option.map_eq_some_iff.mp hb
    refine ⟨b', hb', ?_⟩
    split <;> rfl
  refine
    { books := fun run c' tracked hc' htracks => ?_, negotiations := fun handler hhandler => ?_,
      sessions := fun session hs => ?_,
      numbers := fun other other' b b' session hb hb' hs hs' => ?_,
      made := fun other b session hb hs => ?_, idle := fun hnot => ?_ }
  · rw [hconnectors, List.getElem?_modify] at hc'
    obtain ⟨c, hc, rfl⟩ := Option.map_eq_some_iff.mp hc'
    by_cases hrun : a.run = run
    · rw [if_pos hrun] at htracks
      rcases htracks with htracks | htracks | htracks
      · obtain ⟨htracks, hne⟩ := Connector.mem_strike.mp htracks
        exact hlives hne (h.books run c tracked hc (Or.inl htracks))
      · obtain ⟨htracks, hne⟩ := Connector.mem_strike.mp htracks
        exact hlives hne (h.books run c tracked hc (Or.inr (Or.inl htracks)))
      · obtain ⟨htracks, hne⟩ := Connector.mem_strike.mp htracks
        exact hlives hne (h.books run c tracked hc (Or.inr (Or.inr htracks)))
    · rw [if_neg hrun] at htracks
      have hlive := h.books run c tracked hc htracks
      refine hlives ?_ hlive
      rintro rfl
      obtain ⟨b, hb, hrun', -⟩ := hlive
      obtain rfl := Option.some.inj (ha.symm.trans hb)
      exact hrun hrun'
  · rw [hnegotiations] at hhandler
    obtain ⟨hhandler, hne⟩ := List.mem_filter.mp hhandler
    obtain ⟨run, hlive⟩ := h.negotiations handler hhandler
    exact ⟨run, hlives (by simpa using hne) hlive⟩
  · rw [hsessions] at hs
    obtain ⟨other, b, hb, hsame, hended⟩ := h.sessions session hs
    refine ⟨other, b, ?_, hsame, hended⟩
    rw [attempts_finish, hb, Option.map_some, if_neg]
    rintro rfl
    obtain rfl := Option.some.inj (ha.symm.trans hb)
    exact hsession session hsame hs
  · obtain ⟨c, hc, hsame⟩ := hbefore hb
    obtain ⟨c', hc', hsame'⟩ := hbefore hb'
    exact h.numbers other other' c c' session hc hc' (hsame ▸ hs) (hsame' ▸ hs')
  · obtain ⟨c, hc, hsame⟩ := hbefore hb
    rw [hmade]
    exact h.made other c session hc (hsame ▸ hs)
  · rw [hsessions]
    exact h.idle (hrunning ▸ hnot)

end Factory

end SpdySessions
