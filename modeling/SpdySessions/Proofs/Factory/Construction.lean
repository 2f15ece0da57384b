import SpdySessions.Proofs.Factory.Accepted
import SpdySessions.Proofs.Factory.Clean

/-! A session is made as a whole or not at all. It is counted among the open ones before its promise is
completed, and nobody is told before that; a promise that has an outcome by then takes it back. What
callbacks do once they are told, and be it to cancel or to stop the factory, comes after that and leaves
the outcome as it is. So along a course completed promises and counted sessions have one origin: each goes
back to a session that was made. -/

namespace SpdySessions

/-- The session that the promise was completed with, if it was. -/
def Attempt.delivered? {codec : HeaderCodec} (a : Attempt codec) : Option SessionId :=
  match a.promise.outcome with
  | some (.completed session) => some session
  | _ => none

/-- A promise that was completed, and those who wait for it have been woken. -/
def Promise.completedWith {σ β : Type} (session : σ) : Promise σ β :=
  { outcome := some (.completed session), done := true, callbacks := [] }

namespace Factory

variable {codec : HeaderCodec} {f f' f'' : Factory codec} {id : ChannelId} {session : SessionId}

/-! ### What promises deliver -/

/-- The session that the promise of an attempt was completed with. -/
def delivered (f : Factory codec) (id : ChannelId) : Option SessionId :=
  (f.attempts[id]?).bind Attempt.delivered?

theorem delivered_eq_some : f.delivered id = some session ↔
    ∃ a, f.attempts[id]? = some a ∧ a.promise.outcome = some (.completed session) := by
  have hdelivered : ∀ a : Attempt codec, a.delivered? = some session ↔
      a.promise.outcome = some (.completed session) := by
    intro a
    unfold Attempt.delivered?
    split
    · rename_i s hsome
      simp [hsome]
    · rename_i hnone
      exact ⟨nofun, fun hsome => absurd hsome (hnone session)⟩
  rw [delivered, Option.bind_eq_some_iff]
  exact exists_congr fun a => and_congr_right fun _ => hdelivered a

theorem isCompleted_iff : f.isCompleted id = true ↔ ∃ session, f.delivered id = some session := by
  simp only [delivered_eq_some, isCompleted]
  cases ha : f.attempts[id]? with
  | none => simp
  | some a =>
      cases houtcome : a.promise.outcome with
      | none => simp [Promise.isCompleted, houtcome]
      | some outcome => cases outcome <;> simp [Promise.isCompleted, Outcome.isCompleted, houtcome]

theorem Onward.delivered (h : f.Onward f') (hdelivered : f.delivered id = some session) :
    f'.delivered id = some session := by
  obtain ⟨a, ha, houtcome⟩ := delivered_eq_some.mp hdelivered
  obtain ⟨a', ha', -, hkeeps⟩ := h.attempts id a ha
  exact delivered_eq_some.mpr ⟨a', ha', hkeeps _ houtcome⟩

theorem delivered_modify {change : Attempt codec → Attempt codec}
    (h : ∀ a, f.attempts[id]? = some a → (change a).delivered? = a.delivered?) :
    (f.modify id change).delivered = f.delivered := by
  funext other
  rw [delivered, attempts_modify, delivered]
  cases ha : f.attempts[other]? with
  | none => rfl
  | some a =>
      by_cases hid : id = other
      · simpa [hid] using h a (hid ▸ ha)
      · simp [hid]

theorem delivered_refuse (f : Factory codec) (id : ChannelId) (outcome : Outcome SessionId)
    (hnone : outcome.isCompleted = false) : (f.refuse id outcome).2.delivered = f.delivered := by
  unfold refuse
  split
  · rfl
  · rename_i a ha
    split
    · rfl
    · rename_i callbacks promise hsettle
      obtain ⟨hpending, hsome⟩ := of_settle? hsettle
      refine delivered_modify fun b hb => ?_
      obtain rfl := Option.some.inj (ha.symm.trans hb)
      cases outcome with
      | completed session => cases hnone
      | failed | cancelled => simp [Attempt.delivered?, Attempt.disappoint, hpending, hsome]

/-- Whatever callbacks do, no promise gets a session by it or loses one. -/
theorem unmoved_delivered :
    Unmoved (delivered : Factory codec → ChannelId → Option SessionId) where
  connector := fun _ _ _ => rfl
  scheduler := fun _ _ => rfl
  fail := fun f id cause => delivered_refuse f id (.failed cause) rfl
  close := fun _ _ => delivered_modify fun _ _ => rfl
  call := call_same delivered fun f _ e => delivered_modify (f := { f with pool := e.pool }) fun _ _ => rfl
  own := fun _ _ _ => rfl
  cancel := cancel_same delivered (fun f id => delivered_refuse f id .cancelled rfl)
    fun _ _ => delivered_modify fun _ _ => rfl
  note := fun _ _ _ => delivered_modify fun _ _ => rfl

/-! ### One session -/

/-- No session is counted whose number was not given out. -/
def Numbered (f : Factory codec) : Prop :=
  ∀ session ∈ f.sessions, session ≤ f.sessionsMade

theorem Numbered.not_mem (h : f.Numbered) : f.sessionsMade + 1 ∉ f.sessions := fun hmem =>
  absurd (h _ hmem) (Nat.not_succ_le_self _)

/-- What comes of making a session for an attempt. If there is one, its promise had no outcome. The session
has a new number and is counted first; then the promise has it, and only then the callbacks run. Otherwise
nothing happens but that a number is used up, and there is a reason: the factory does not run, or the
promise has an outcome. -/
structure Constructs (f : Factory codec) (id : ChannelId) (a : Attempt codec) : Prop where
  made : ∀ session f', f.openSession id a = (.ok session, f') →
    f.isRunning = true ∧ a.promise.outcome = none ∧ session ∉ f.sessions ∧
    ∃ counted told : Factory codec,
      counted = { f with sessionsMade := session, sessions := f.sessions ++ [session] } ∧
      told = counted.modify id (fun b =>
        { b with promise := .completedWith session, link := some ⟨f.newSession a, .fresh codec⟩ }) ∧
      f' = a.promise.callbacks.foldl (runCallback id) told ∧
      ∃ a', f'.attempts[id]? = some a' ∧ a'.promise.outcome = some (.completed session) ∧
        a'.session? = some session
  notRunning : ∀ f', f.openSession id a = (.error .notRunning, f') →
    f.isRunning = false ∧ f' = { f with sessionsMade := f.sessionsMade + 1 }
  cancelled : ∀ f', f.openSession id a = (.error .cancelled, f') →
    f.isRunning = true ∧ a.promise.isDone = true ∧ f' = { f with sessionsMade := f.sessionsMade + 1 }
  failed : ∀ cause f', f.openSession id a = (.error cause, f') →
    cause = .notRunning ∨ cause = .cancelled

theorem enter_of_not_mem {sessions : List SessionId} (h : session ∉ sessions) :
    Connector.enter session sessions = sessions ++ [session] :=
  if_neg h

/-- The callbacks are done, and the promise has the session still. -/
theorem delivered_told {a : Attempt codec} (ha : f.attempts[id]? = some a) (callbacks : List Callback) :
    ∃ a', (callbacks.foldl (runCallback id)
        (f.opened id a (.completedWith (f.sessionsMade + 1)))).attempts[id]? = some a' ∧
      a'.promise.outcome = some (.completed (f.sessionsMade + 1)) ∧
      a'.session? = some (f.sessionsMade + 1) := by
  have hleft : (f.opened id a (.completedWith (f.sessionsMade + 1))).attempts[id]? = some { a with
      promise := .completedWith (f.sessionsMade + 1), link := some ⟨f.newSession a, .fresh codec⟩ } :=
    attempts_modify_self ha _
  obtain ⟨a', ha', hquiet⟩ := (Quiet.foldl (quiet_runCallback id) callbacks _).attempt hleft
  have hsame := foldl_same delivered (unmoved_delivered.runCallback id) callbacks
    (f.opened id a (.completedWith (f.sessionsMade + 1)))
  have hdelivered := (congrFun hsame id).trans (delivered_eq_some.mpr ⟨_, hleft, rfl⟩)
  obtain ⟨b, hb, houtcome⟩ := delivered_eq_some.mp hdelivered
  obtain rfl := Option.some.inj (ha'.symm.trans hb)
  exact ⟨a', ha', houtcome, hquiet.session⟩

theorem openSession_ok (hnumbered : f.Numbered) {a : Attempt codec}
    (h : f.openSession id a = (.ok session, f')) :
    f.isRunning = true ∧ a.promise.outcome = none ∧ session = f.sessionsMade + 1 ∧
      f' = a.promise.callbacks.foldl (runCallback id)
        (f.opened id a (.completedWith (f.sessionsMade + 1))) := by
  rw [openSession_eq hnumbered.not_mem] at h
  split at h
  · rename_i hrunning
    split at h
    · cases h
    · rename_i hpending
      obtain ⟨hok, rfl⟩ := Prod.mk.inj h
      exact ⟨hrunning, Option.not_isSome_iff_eq_none.mp hpending, (Except.ok.inj hok).symm, rfl⟩
  · cases h

theorem openSession_error (hnumbered : f.Numbered) {a : Attempt codec} {cause : Fault}
    (h : f.openSession id a = (.error cause, f')) :
    f' = { f with sessionsMade := f.sessionsMade + 1 } ∧
      ((cause = .notRunning ∧ f.isRunning = false) ∨
        (cause = .cancelled ∧ f.isRunning = true ∧ a.promise.isDone = true)) := by
  rw [openSession_eq hnumbered.not_mem] at h
  split at h
  · rename_i hrunning
    split at h
    · rename_i hdone
      obtain ⟨hcause, rfl⟩ := Prod.mk.inj h
      exact ⟨rfl, Or.inr ⟨(Except.error.inj hcause).symm, hrunning, hdone⟩⟩
    · cases h
  · rename_i hrunning
    obtain ⟨hcause, rfl⟩ := Prod.mk.inj h
    exact ⟨rfl, Or.inl ⟨(Except.error.inj hcause).symm, Bool.eq_false_iff.mpr hrunning⟩⟩

theorem constructs (hnumbered : f.Numbered) {a : Attempt codec} (ha : f.attempts[id]? = some a) :
    f.Constructs id a where
  made := by
    intro session f' h
    obtain ⟨hrunning, hpending, rfl, rfl⟩ := openSession_ok hnumbered h
    refine ⟨hrunning, hpending, hnumbered.not_mem, _, _, rfl, rfl, ?_, delivered_told ha _⟩
    rw [← enter_of_not_mem hnumbered.not_mem]
    rfl
  notRunning := by
    intro f' h
    obtain ⟨hsame, ⟨-, hrunning⟩ | ⟨hcause, -⟩⟩ := openSession_error hnumbered h
    · exact ⟨hrunning, hsame⟩
    · cases hcause
  cancelled := by
    intro f' h
    obtain ⟨hsame, ⟨hcause, -⟩ | ⟨-, hrunning, hdone⟩⟩ := openSession_error hnumbered h
    · cases hcause
    · exact ⟨hrunning, hdone, hsame⟩
  failed := by
    intro cause f' h
    obtain ⟨-, hcauses⟩ := openSession_error hnumbered h
    exact hcauses.imp And.left And.left

/-! ### What brings no session -/

/-- No promise gets a session, and no session is counted that was not. -/
structure Barren (f f' : Factory codec) : Prop where
  completed : ∀ id, f'.isCompleted id = true → f.isCompleted id = true
  sessions : ∀ session ∈ f'.sessions, session ∈ f.sessions
  made : f.sessionsMade ≤ f'.sessionsMade

theorem Barren.trans (h : f.Barren f') (h' : f'.Barren f'') : f.Barren f'' where
  completed := fun id hid => h.completed id (h'.completed id hid)
  sessions := fun session hs => h.sessions session (h'.sessions session hs)
  made := Nat.le_trans h.made h'.made

theorem barren_of_delivered (hdelivered : f'.delivered = f.delivered)
    (hsessions : f'.sessions = f.sessions) (hmade : f'.sessionsMade = f.sessionsMade) : f.Barren f' where
  completed := fun id hid => by
    rw [isCompleted_iff] at hid ⊢
    rwa [hdelivered] at hid
  sessions := fun _ hs => hsessions ▸ hs
  made := Nat.le_of_eq hmade.symm

theorem barren_modify (id : ChannelId) (change : Attempt codec → Attempt codec)
    (h : ∀ a, (change a).promise = a.promise) : f.Barren (f.modify id change) :=
  barren_of_delivered (delivered_modify fun a _ => by rw [Attempt.delivered?, h, Attempt.delivered?])
    rfl rfl

theorem Quiet.barren (h : f.Quiet f') : f.Barren f' where
  completed := by
    intro id hid
    rcases h.attempts id with ⟨-, hnone⟩ | ⟨a, a', ha, ha', hquiet⟩
    · rw [isCompleted, hnone] at hid
      cases hid
    · rw [isCompleted, ha', Option.any_some, hquiet.completed] at hid
      rwa [isCompleted, ha, Option.any_some]
  sessions := by
    intro session hs
    rcases h.sessions with hnone | ⟨hsame, -⟩
    · rw [hnone] at hs
      cases hs
    · exact hsame ▸ hs
  made := Nat.le_of_eq h.made.symm

/-- A newcomer has no session. -/
theorem barren_register {run client : Nat} {peer : Address} {listener : Session.Listener}
    {result : Except Fault Unit} (h : f.register run client peer listener = (result, f')) :
    f.Barren f' := by
  obtain ⟨stage, connectors, rfl, -, -⟩ := register_eq h
  refine barren_of_delivered ?_ rfl rfl
  funext id
  rcases Nat.lt_trichotomy id f.attempts.length with hlt | rfl | hgt
  · rw [delivered, List.getElem?_append_left hlt, delivered]
  · rw [delivered, List.getElem?_concat_length, delivered, List.getElem?_eq_none (Nat.le_refl _)]
    rfl
  · rw [delivered, delivered, List.getElem?_eq_none (Nat.le_of_lt hgt), List.getElem?_eq_none]
    rw [List.length_append]
    exact hgt

theorem barren_connect (f : Factory codec) (client : Nat) (peer : Address) (listener : Session.Listener)
    (socket : Except Fault Unit) : f.Barren (f.connect client peer listener socket).2 := by
  unfold connect
  split
  · split
    · exact (Quiet.refl f).barren
    · dsimp only
      split
      · rename_i fault f' heq
        exact (barren_register heq).trans (quiet_close f' _).barren
      · rename_i f' heq
        exact barren_register heq
  · exact (Quiet.refl f).barren

theorem barren_start (f : Factory codec) (executor : Except Fault Unit) :
    f.Barren (f.start executor).2 := by
  unfold start
  split <;> exact barren_of_delivered rfl rfl rfl

theorem barren_finish (f : Factory codec) (id : ChannelId) : f.Barren (f.finish id) := by
  have hclosed : f.Barren { (f.close id).2 with negotiations := (f.close id).2.negotiations.erase id } :=
    (quiet_close f id).barren.trans (barren_of_delivered rfl rfl rfl)
  have hended : ∀ f : Factory codec, f.Barren (f.modify id fun a => { a with stage := .ended }) :=
    fun f => barren_modify id _ fun _ => rfl
  have hforgotten : ∀ (f : Factory codec) run, f.Barren (f.modifyConnector run (·.forget id)) :=
    fun _ _ => barren_of_delivered rfl rfl rfl
  unfold finish
  dsimp only
  split
  · exact hclosed.trans (hended _)
  · exact (hclosed.trans (hforgotten _ _)).trans (hended _)

theorem barren_abort (f : Factory codec) (id : ChannelId) (cause : Fault) :
    f.Barren (f.abort id cause) :=
  (quiet_fail f id cause).barren.trans (barren_finish _ id)

theorem barren_noticeClosed (f : Factory codec) (id : ChannelId) : f.Barren (f.noticeClosed id) := by
  unfold noticeClosed
  split
  · exact (Quiet.refl f).barren
  · split
    · exact barren_abort f id _
    · exact (Quiet.refl f).barren

theorem barren_dialed (f : Factory codec) (id : ChannelId) (answer : Except Fault Address) :
    f.Barren (f.dialed id answer) := by
  unfold dialed
  split
  · exact (Quiet.refl f).barren
  · split
    · split
      · exact barren_abort f id _
      · dsimp only
        refine Barren.trans (Barren.trans ?_ (quiet_touch _ id).barren) (quiet_arm _ id).barren
        exact barren_modify id _ fun _ => rfl
    · exact (Quiet.refl f).barren

theorem barren_setEndpoint (f : Factory codec) (id : ChannelId) (e : Endpoint codec) :
    f.Barren (f.setEndpoint id e) := by
  have hpool : f.Barren { f with pool := e.pool } := barren_of_delivered rfl rfl rfl
  exact hpool.trans (barren_modify id _ fun _ => rfl)

theorem barren_sessionClosed (f : Factory codec) (session : SessionId) :
    f.Barren (f.sessionClosed session).2 := by
  unfold sessionClosed
  split
  · exact ⟨fun _ hid => hid, fun _ hs => (List.mem_filter.mp hs).1, Nat.le_refl _⟩
  · exact (Quiet.refl f).barren

theorem barren_windUp (f : Factory codec) (id : ChannelId) (listener : Session.Listener)
    (e : Endpoint codec) (result : Except Fault Unit) : f.Barren (f.windUp id listener e result) := by
  have htold : ∀ entries e session, f.Barren (((f.setEndpoint id e).modify id fun a =>
      { a with told := a.told ++ entries }).sessionClosed session).2 := fun entries e session =>
    ((barren_setEndpoint f id e).trans (barren_modify id (fun a => { a with
      told := a.told ++ entries }) fun _ => rfl)).trans (barren_sessionClosed _ session)
  unfold windUp
  dsimp only
  cases result with
  | error fault => exact (htold _ _ _).trans (barren_abort _ id fault)
  | ok _ => exact (htold _ _ _).trans (barren_finish _ id)

theorem barren_turn (f : Factory codec) (id : ChannelId) (socket : Socket) :
    f.Barren (f.turn id socket) := by
  have htouched : ∀ moved : Bool, f.Barren (if moved then f.touch id else f) := by
    intro moved
    cases moved with
    | true => exact (quiet_touch f id).barren
    | false => exact (Quiet.refl f).barren
  have hturned : ∀ (moved : Bool) (e : Endpoint codec) (stage : Stage) (written : Bytes)
      (entries : List Session.Entry),
      f.Barren (((if moved then f.touch id else f).setEndpoint id e).modify id fun a =>
        { a with stage := stage, written := written, told := a.told ++ entries }) :=
    fun moved e _ _ _ => ((htouched moved).trans (barren_setEndpoint _ id e)).trans
      (barren_modify id _ fun _ => rfl)
  unfold turn
  split
  · split
    · dsimp only
      split
      · exact (hturned _ _ _ _ _).trans (barren_windUp _ id _ _ _)
      · exact hturned _ _ _ _ _
    · exact (Quiet.refl f).barren
  · exact (Quiet.refl f).barren

/-! ### What brings a session -/

/-- The factory when the handshake of an attempt has ended. -/
def heard (f : Factory codec) (id : ChannelId) : Factory codec :=
  { f.touch id with negotiations := ((f.touch id).negotiations.take id).2 }

/-- A session is made for an attempt: the factory accepts it and so does the promise. -/
def Opens (f : Factory codec) (id : ChannelId) (session : SessionId) : Prop :=
  ∃ (g : Factory codec) (a : Attempt codec) (g' : Factory codec),
    (g = f ∨ g = f.heard id) ∧ g.Numbered ∧ g.attempts[id]? = some a ∧
      g.openSession id a = (.ok session, g')

/-- A promise gets a session, which is counted, and nothing else is like this. -/
structure Brings (f : Factory codec) (id : ChannelId) (session : SessionId) (f' : Factory codec) :
    Prop where
  delivered : f'.delivered id = some session
  completed : ∀ other, f'.isCompleted other = true → f.isCompleted other = true ∨ other = id
  sessions : ∀ other ∈ f'.sessions, other ∈ f.sessions ∨ other = session
  made : f.sessionsMade ≤ f'.sessionsMade ∧ session ≤ f'.sessionsMade

theorem Brings.after (h : f'.Brings id session f'') (hbarren : f.Barren f') : f.Brings id session f'' where
  delivered := h.delivered
  completed := fun other hother => (h.completed other hother).imp_left (hbarren.completed other)
  sessions := fun other hother => (h.sessions other hother).imp_left (hbarren.sessions other)
  made := ⟨Nat.le_trans hbarren.made h.made.1, h.made.2⟩

theorem brings_openSession (hnumbered : f.Numbered) {a : Attempt codec} (ha : f.attempts[id]? = some a)
    (h : f.openSession id a = (.ok session, f')) : f.Brings id session f' := by
  obtain ⟨-, -, rfl, rfl⟩ := openSession_ok hnumbered h
  obtain ⟨b, hb, houtcome, -⟩ := delivered_told ha a.promise.callbacks
  have hcalled := (Quiet.foldl (quiet_runCallback id) a.promise.callbacks
    (f.opened id a (.completedWith (f.sessionsMade + 1)))).barren
  refine ⟨delivered_eq_some.mpr ⟨b, hb, houtcome⟩, fun other hother => ?_, fun other hother => ?_,
    Nat.le_trans (Nat.le_succ _) hcalled.made, hcalled.made⟩
  · have hopened := hcalled.completed other hother
    by_cases hid : id = other
    · exact Or.inr hid.symm
    · have hleft : (f.opened id a (.completedWith (f.sessionsMade + 1))).attempts[other]? =
          f.attempts[other]? := by
        refine (attempts_modify _ id other _).trans ?_
        simp only [if_neg hid]
        exact Option.map_id_apply
      rw [isCompleted, hleft] at hopened
      exact Or.inl hopened
  · exact Connector.mem_enter.mp (hcalled.sessions other hother)

theorem brings_construct (hnumbered : f.Numbered) {a : Attempt codec} (ha : f.attempts[id]? = some a)
    (h : f.openSession id a = (.ok session, f')) : f.Brings id session (f.construct id) := by
  have hbrings := brings_openSession hnumbered ha h
  have hconstruct : f.construct id = modify (f'.modifyConnector a.run (·.markOpened id)) id fun a =>
      { a with stage := .carrying .running } := by
    simp only [construct, ha, h]
  have hsame : (modify (f'.modifyConnector a.run (·.markOpened id)) id fun a =>
      { a with stage := .carrying .running }).delivered = f'.delivered :=
    delivered_modify (f := f'.modifyConnector a.run (·.markOpened id)) fun _ _ => rfl
  have hafter : f'.Barren (modify (f'.modifyConnector a.run (·.markOpened id)) id fun a =>
      { a with stage := .carrying .running }) := barren_of_delivered hsame rfl rfl
  rw [hconstruct]
  exact ⟨(congrFun hsame id).trans hbrings.delivered,
    fun other hother => hbrings.completed other (hafter.completed other hother),
    hbrings.sessions, hbrings.made⟩

theorem construct_cases (hnumbered : f.Numbered) (id : ChannelId) :
    f.Barren (f.construct id) ∨ ∃ a session f', f.attempts[id]? = some a ∧
      f.openSession id a = (.ok session, f') ∧ f.Brings id session (f.construct id) := by
  cases ha : f.attempts[id]? with
  | none =>
      simp only [construct, ha]
      exact Or.inl (Quiet.refl f).barren
  | some a =>
      cases heq : f.openSession id a with
      | mk result f' =>
          cases result with
          | error fault =>
              obtain ⟨rfl, -⟩ := openSession_error hnumbered heq
              have hskipped : f.Barren { f with sessionsMade := f.sessionsMade + 1 } :=
                ⟨fun _ hid => hid, fun _ hs => hs, Nat.le_succ _⟩
              simp only [construct, ha, heq]
              exact Or.inl (hskipped.trans (barren_abort _ id fault))
          | ok session =>
              exact Or.inr ⟨a, session, f', rfl, heq, brings_construct hnumbered ha heq⟩

theorem Numbered.barren (h : f.Numbered) (hbarren : f.Barren f') : f'.Numbered := fun session hs =>
  Nat.le_trans (h session (hbarren.sessions session hs)) hbarren.made

theorem barren_heard (f : Factory codec) (id : ChannelId) : f.Barren (f.heard id) :=
  (quiet_touch f id).barren.trans (barren_of_delivered rfl rfl rfl)

/-- A step brings a session to an attempt for which it was made, or none to anybody. -/
def Happens (f f' : Factory codec) : Prop :=
  f.Barren f' ∨ ∃ id session, f.Opens id session ∧ f.Brings id session f'

theorem happens_construct {g : Factory codec} (hnumbered : f.Numbered) (hg : g = f ∨ g = f.heard id) :
    f.Happens (g.construct id) := by
  have hbarren : f.Barren g := by
    rcases hg with rfl | rfl
    · exact (Quiet.refl _).barren
    · exact barren_heard f id
  rcases construct_cases (hnumbered.barren hbarren) id with hnone | ⟨a, session, g', ha, hok, hbrings⟩
  · exact Or.inl (hbarren.trans hnone)
  · have hopens : f.Opens id session := ⟨g, a, g', hg, hnumbered.barren hbarren, ha, hok⟩
    exact Or.inr ⟨id, session, hopens, hbrings.after hbarren⟩

theorem happens_establish (hnumbered : f.Numbered) (id : ChannelId) (engine : Except Fault Unit) :
    f.Happens (f.establish id engine) := by
  unfold establish
  split
  · exact Or.inl (Quiet.refl f).barren
  · split
    · exact happens_construct hnumbered (Or.inl rfl)
    · exact Or.inl (barren_abort f id _)
    · have hput : ∀ negotiations, f.Barren { f with negotiations := negotiations } :=
        fun _ => barren_of_delivered rfl rfl rfl
      exact Or.inl ((hput _).trans (barren_modify id _ fun _ => rfl))
    · exact Or.inl (Quiet.refl f).barren

theorem happens_secured (hnumbered : f.Numbered) (id : ChannelId)
    (handshake : Except Fault (Option Bytes)) : f.Happens (f.secured id handshake) := by
  unfold secured
  split
  · exact Or.inl (Quiet.refl f).barren
  · split
    · exact Or.inl (barren_abort f id _)
    · dsimp only
      split
      · exact Or.inl ((barren_heard f id).trans (barren_abort _ id _))
      · split
        · exact Or.inl ((barren_heard f id).trans (barren_abort _ id _))
        · exact happens_construct hnumbered (Or.inr rfl)
    · exact Or.inl (Quiet.refl f).barren

/-- The attempt goes on to a session, if it can. -/
def Event.isDecisive : Event → Bool
  | .establish _ _ => true
  | .secured _ _ => true
  | _ => false

theorem barren_after (f : Factory codec) {e : Event} (he : e.isDecisive = false) :
    f.Barren (f.after e) := by
  cases e with
  | newClient number =>
      show f.Barren (f.newClient number).2
      unfold newClient
      split
      · exact (Quiet.refl f).barren
      · exact barren_of_delivered rfl rfl rfl
  | configure client change => exact barren_of_delivered rfl rfl rfl
  | start executor => exact barren_start f executor
  | markStopping => exact barren_of_delivered rfl rfl rfl
  | retire => exact (quiet_retire f).barren
  | takeDown component => exact (quiet_takeDown f component).barren
  | stopConnector run => exact (quiet_stopConnector f run).barren
  | markStopped => exact barren_of_delivered rfl rfl rfl
  | stop => exact (quiet_stop f).barren
  | drop => exact (quiet_takeAllDown f).barren
  | onComplete id callback => exact (quiet_onComplete f id callback).barren
  | call id c => exact (quiet_call f id c).barren
  | cancel id => exact (quiet_cancel f id).barren
  | close id => exact (quiet_close f id).barren
  | noticeClosed id => exact barren_noticeClosed f id
  | dialed id answer => exact barren_dialed f id answer
  | establish id engine => cases he
  | secured id handshake => cases he
  | turn id socket => exact barren_turn f id socket
  | pass span => exact barren_of_delivered rfl rfl rfl
  | fire run => exact (quiet_fire f run).barren

theorem happens_after (hnumbered : f.Numbered) (e : Event) : f.Happens (f.after e) := by
  cases e with
  | establish id engine => exact happens_establish hnumbered id engine
  | secured id handshake => exact happens_secured hnumbered id handshake
  | _ => exact Or.inl (barren_after f rfl)

theorem Step.happens {new : List ChannelId} (h : Step f new f') (hnumbered : f.Numbered) :
    f.Happens f' := by
  cases h with
  | registered h => exact Or.inl (barren_register h)
  | refused h => exact Or.inl (barren_register h)
  | @connected client peer listener socket id f' h =>
      have hbarren := barren_connect f client peer listener socket
      rw [h] at hbarren
      exact Or.inl hbarren
  | @unconnected client peer listener socket cause f' h =>
      have hbarren := barren_connect f client peer listener socket
      rw [h] at hbarren
      exact Or.inl hbarren
  | event e => exact happens_after hnumbered e

/-! ### Courses -/

variable {f₀ : Factory codec} {accepted : List ChannelId}

/-- The session was made for the attempt at some moment of the course. -/
def Opened (f₀ : Factory codec) (id : ChannelId) (session : SessionId) : Prop :=
  ∃ accepted f, Course f₀ accepted f ∧ f.Opens id session

/-- Whatever has a session has it from its making. -/
structure Accounted (f₀ f : Factory codec) : Prop where
  numbered : f.Numbered
  delivered : ∀ id session, f.delivered id = some session → f₀.Opened id session
  tracked : ∀ session ∈ f.sessions, ∃ id, f.delivered id = some session

theorem accounted_new (hattempts : f₀.attempts = []) (hsessions : f₀.sessions = []) :
    Accounted f₀ f₀ := by
  refine ⟨fun session hs => ?_, fun id session hdelivered => ?_, fun session hs => ?_⟩
  · rw [hsessions] at hs
    cases hs
  · rw [delivered, hattempts] at hdelivered
    cases hdelivered
  · rw [hsessions] at hs
    cases hs

theorem Accounted.step (h : Accounted f₀ f) (hcourse : Course f₀ accepted f) (honward : f.Onward f')
    (hhappens : f.Happens f') : Accounted f₀ f' := by
  -- A promise that was completed before keeps its session.
  have hold : ∀ id session, f.isCompleted id = true → f'.delivered id = some session →
      f₀.Opened id session := by
    intro id session hcompleted hdelivered
    obtain ⟨session', hsession'⟩ := isCompleted_iff.mp hcompleted
    obtain rfl := Option.some.inj (hdelivered.symm.trans (honward.delivered hsession'))
    exact h.delivered id session hsession'
  have htracked : ∀ session ∈ f.sessions, ∃ id, f'.delivered id = some session := by
    intro session hs
    obtain ⟨id, hdelivered⟩ := h.tracked session hs
    exact ⟨id, honward.delivered hdelivered⟩
  rcases hhappens with hbarren | ⟨id, session, hopens, hbrings⟩
  · exact
      { numbered := h.numbered.barren hbarren
        delivered := fun id session hdelivered =>
          hold id session (hbarren.completed id (isCompleted_iff.mpr ⟨session, hdelivered⟩)) hdelivered
        tracked := fun session hs => htracked session (hbarren.sessions session hs) }
  · refine
      { numbered := fun other hother => ?_
        delivered := fun other session' hdelivered => ?_
        tracked := fun other hother => ?_ }
    · rcases hbrings.sessions other hother with hother | rfl
      · exact Nat.le_trans (h.numbered other hother) hbrings.made.1
      · exact hbrings.made.2
    · rcases hbrings.completed other (isCompleted_iff.mpr ⟨session', hdelivered⟩) with hcompleted | rfl
      · exact hold other session' hcompleted hdelivered
      · obtain rfl := Option.some.inj (hbrings.delivered.symm.trans hdelivered)
        exact ⟨accepted, f, hcourse, hopens⟩
    · rcases hbrings.sessions other hother with hother | rfl
      · exact htracked other hother
      · exact ⟨id, hbrings.delivered⟩

theorem Course.accounted (h : Course f₀ accepted f) (hsound : f₀.Sound)
    (hnew : Accounted f₀ f₀) : Accounted f₀ f := by
  induction h with
  | refl => exact hnew
  | step h hstep ih =>
      obtain ⟨hs, -⟩ := h.leads.1 hsound
      exact ih.step h (hstep.leads.1 hs).2 (hstep.happens ih.numbered)

/-- **A session is made as a whole or not at all.** Whatever the factory, its open sessions, the promise and
its callbacks are, as long as the sessions have numbers that were given out: if making a session succeeds,
its promise was open; the session is counted first, the promise has just this session then, and only then
the callbacks run, and whatever they call, cancel or stop, the promise has it still when they are done. If
it fails, nothing has happened but that a number is used up: the factory was not running, or the promise
had an outcome. At any moment of a course of a new factory the numbers are such, also when a handshake has
just ended; every promise that was completed with a session has it from such a success, with this attempt
and this session; and every session that is counted has completed a promise. -/
theorem construction_is_all_or_nothing (hattempts : f₀.attempts = []) (hconnectors : f₀.connectors = [])
    (hsessions : f₀.sessions = []) (h : Course f₀ accepted f) :
    (∀ (g : Factory codec) (id : ChannelId) (a : Attempt codec), g.Numbered →
      g.attempts[id]? = some a → g.Constructs id a) ∧
    f.Numbered ∧ (∀ id, (f.heard id).Numbered) ∧
    (∀ (id : ChannelId) (a : Attempt codec) session, f.attempts[id]? = some a →
      a.promise.outcome = some (.completed session) → f₀.Opened id session) ∧
    ∀ session ∈ f.sessions, ∃ (id : ChannelId) (a : Attempt codec), f.attempts[id]? = some a ∧
      a.promise.outcome = some (.completed session) := by
  have haccounted := h.accounted (sound_new hattempts hconnectors) (accounted_new hattempts hsessions)
  refine ⟨fun g id a hnumbered ha => constructs hnumbered ha, haccounted.numbered,
    fun id => haccounted.numbered.barren (barren_heard f id),
    fun id a session ha houtcome => ?_, fun session hs => ?_⟩
  · exact haccounted.delivered id session (delivered_eq_some.mpr ⟨a, ha, houtcome⟩)
  · obtain ⟨id, hdelivered⟩ := haccounted.tracked session hs
    exact ⟨id, delivered_eq_some.mp hdelivered⟩

/-- The only attempt is connected; its callback will stop the factory and cancel. -/
def expected : Factory .identity :=
  (registeredOnce.after (.onComplete 0 { deeds := [.count, .stop, .cancel] })).after (.dialed 0 (.ok host))

/-- The session is made, and the callback stops the factory; the promise has the session still. -/
theorem expected_gets_session :
    Course unused [0] expected ∧ ∃ a a' f', expected.attempts[0]? = some a ∧
      expected.openSession 0 a = (.ok 1, f') ∧ f'.sessions = [] ∧ f'.attempts[0]? = some a' ∧
      a'.promise.outcome = some (.completed 1) := by
  have hregistered : started.register 0 0 host .silent = (.ok (), registeredOnce) := rfl
  have hcourse := (((Course.refl (f := unused)).step (.event (.start (.ok ())))).step
    (.registered hregistered)).step (.event (.onComplete 0 { deeds := [.count, .stop, .cancel] }))
  have hexpected : Course unused [0] expected := hcourse.step (.event (.dialed 0 (.ok host)))
  obtain ⟨hconstructs, hnumbered, -⟩ := construction_is_all_or_nothing rfl rfl rfl hexpected
  obtain ⟨-, -, -, -, -, -, -, -, a', ha', houtcome, -⟩ :=
    (hconstructs expected 0 _ hnumbered rfl).made 1 _ rfl
  exact ⟨hexpected, _, a', _, rfl, rfl, rfl, ha', houtcome⟩

end Factory

end SpdySessions
