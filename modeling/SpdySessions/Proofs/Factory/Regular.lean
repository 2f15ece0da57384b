import SpdySessions.Proofs.Factory.Beside
import SpdySessions.Proofs.Factory.Construction
import SpdySessions.Proofs.Session.Twins

/-! What attempts share besides the books: the numbers of sessions and the pool. No two attempts ever hold
sessions of one number, and a number that is given out is new; what is borrowed from the pool comes empty,
whoever gave it back. This is so along every course, in the middle of a stop as well. -/

namespace SpdySessions

namespace Factory

variable {codec : HeaderCodec} {f f' f'' : Factory codec} {id other : ChannelId} {session : SessionId}

/-- The number of the session that an attempt holds. -/
def sessionOf (f : Factory codec) (id : ChannelId) : Option SessionId :=
  (f.attempts[id]?).bind Attempt.session?

/-- Every session that is held has a number of its own that was given out, none is counted whose number was
not given out, and the pool is in order. -/
structure Regular (f : Factory codec) : Prop where
  pool : f.pool.Reachable
  numbered : f.Numbered
  apart : ∀ id other session, f.sessionOf id = some session → f.sessionOf other = some session → id = other
  made : ∀ id session, f.sessionOf id = some session → session ≤ f.sessionsMade

/-- Everybody holds the session that he held, and the pool stays in order. -/
structure Steady (f f' : Factory codec) : Prop where
  sessionOf : f'.sessionOf = f.sessionOf
  pool : f.pool.Reachable → f'.pool.Reachable

theorem Steady.refl (f : Factory codec) : f.Steady f :=
  ⟨rfl, fun h => h⟩

theorem Steady.trans (h : f.Steady f') (h' : f'.Steady f'') : f.Steady f'' :=
  ⟨h'.sessionOf.trans h.sessionOf, fun hpool => h'.pool (h.pool hpool)⟩

theorem Regular.steady (h : f.Regular) (hsteady : f.Steady f') (hbarren : f.Barren f') : f'.Regular where
  pool := hsteady.pool h.pool
  numbered := h.numbered.barren hbarren
  apart := by
    rw [hsteady.sessionOf]
    exact h.apart
  made := by
    rw [hsteady.sessionOf]
    exact fun id session hheld => Nat.le_trans (h.made id session hheld) hbarren.made

theorem steady_of_same (hattempts : f'.attempts = f.attempts) (hpool : f'.pool = f.pool) : f.Steady f' :=
  ⟨by unfold Factory.sessionOf; rw [hattempts], fun hreached => hpool ▸ hreached⟩

theorem steady_modify (id : ChannelId) (change : Attempt codec → Attempt codec)
    (h : ∀ a, (change a).session? = a.session?) :
    f.Steady (f.modify id change) where
  sessionOf := by
    funext other
    rw [Factory.sessionOf, attempts_modify, Factory.sessionOf]
    cases f.attempts[other]? with
    | none => rfl
    | some a =>
        by_cases hid : id = other
        · simpa [hid] using h a
        · simp [hid]
  pool := fun hpool => hpool

theorem Regular.modify (h : f.Regular) (id : ChannelId) (change : Attempt codec → Attempt codec)
    (hsame : ∀ a, (change a).session? = a.session? ∧ (change a).promise = a.promise) :
    (f.modify id change).Regular :=
  h.steady (steady_modify id change fun a => (hsame a).1) (barren_modify id change fun a => (hsame a).2)

theorem Regular.of_same (h : f.Regular) (hattempts : f'.attempts = f.attempts) (hpool : f'.pool = f.pool)
    (hsessions : f'.sessions = f.sessions) (hmade : f'.sessionsMade = f.sessionsMade) : f'.Regular :=
  h.steady (steady_of_same hattempts hpool)
    (barren_of_delivered (by unfold delivered; rw [hattempts]) hsessions hmade)

theorem Quiet.sessionOf (h : f.Quiet f') : f'.sessionOf = f.sessionOf := by
  funext id
  rw [Factory.sessionOf, Factory.sessionOf]
  rcases h.attempts id with ⟨ha, ha'⟩ | ⟨a, a', ha, ha', hquiet⟩
  · rw [ha, ha']
  · rw [ha, ha', Option.bind_some, Option.bind_some, hquiet.session]

/-- A quiet change has to do with the pool at most. -/
theorem Quiet.steady (h : f.Quiet f') (hpool : f.pool.Reachable → f'.pool.Reachable) : f.Steady f' :=
  ⟨h.sessionOf, hpool⟩

theorem Quiet.steady_of_pool (h : f.Quiet f') (hpool : f'.pool = f.pool) : f.Steady f' :=
  h.steady fun hreached => hpool ▸ hreached

/-! ### The pool -/

/-- Taking components down borrows nothing. -/
theorem outlasts_pool : Outlasts (pool : Factory codec → BufferPool) where
  connector := fun _ _ _ => rfl
  scheduler := fun _ _ => rfl
  fail := fun f id cause => refuse_same pool (fun _ _ _ _ _ => rfl) f id (.failed cause)
  close := fun _ _ => rfl

theorem reachable_call (hpool : f.pool.Reachable) (id : ChannelId) (c : Session.Call) :
    (f.call id c).2.pool.Reachable := by
  unfold call
  split
  · exact hpool
  · rename_i e he
    have hsame : e.pool = f.pool := by
      unfold endpoint? at he
      split at he
      · cases he
      · obtain ⟨link, -, rfl⟩ := Option.map_eq_some_iff.mp he
        rfl
    exact ((Endpoint.twins_self (hsame ▸ hpool)).call c).2.pools.1

theorem reachable_foldl {α : Type} {g : Factory codec → α → Factory codec}
    (h : ∀ (f : Factory codec) (x : α), f.pool.Reachable → (g f x).pool.Reachable) (xs : List α)
    (hpool : f.pool.Reachable) : (xs.foldl g f).pool.Reachable := by
  induction xs generalizing f with
  | nil => exact hpool
  | cons x xs ih => exact ih (h f x hpool)

theorem reachable_retire (hpool : f.pool.Reachable) : f.retire.pool.Reachable := by
  refine reachable_foldl (fun f session hpool => ?_) f.sessions hpool
  unfold farewell
  split
  · exact hpool
  · exact reachable_call hpool _ .goAway

theorem reachable_stop (hpool : f.pool.Reachable) : f.stop.2.pool.Reachable := by
  rcases Bool.eq_false_or_eq_true f.isRunning with hrunning | hrunning
  · have hretired : f.markStopping.retire.pool.Reachable := reachable_retire hpool
    have hdown := outlasts_pool.takeAllDown f.markStopping.retire
    rw [stop_of_running hrunning]
    show f.markStopping.retire.takeAllDown.2.pool.Reachable
    rw [hdown]
    exact hretired
  · rwa [stop_of_not_running hrunning]

theorem pool_cancel (f : Factory codec) (id : ChannelId) : (f.cancel id).2.pool = f.pool :=
  cancel_same pool (fun f id => refuse_same pool (fun _ _ _ _ _ => rfl) f id .cancelled)
    (fun _ _ => rfl) f id

theorem reachable_perform (hpool : f.pool.Reachable) (id : ChannelId) (deed : Deed) :
    (f.perform id deed).2.pool.Reachable := by
  cases deed with
  | call c =>
      have hcalled := reachable_call hpool id c
      unfold perform
      dsimp only
      split
      · rename_i heq
        rw [heq] at hcalled
        exact hcalled
      · rename_i heq
        rw [heq] at hcalled
        exact hcalled
  | cancel => exact pool_cancel f id ▸ hpool
  | count => exact hpool
  | stop => exact reachable_stop hpool

theorem reachable_runCallback (hpool : f.pool.Reachable) (id : ChannelId) (callback : Callback) :
    (runCallback id f callback).pool.Reachable := by
  unfold runCallback
  refine reachable_foldl (fun f deed hpool => ?_) callback.deeds ?_
  · exact reachable_perform hpool id deed
  · exact hpool

theorem steady_runCallbacks (id : ChannelId) (callbacks : List Callback) (f : Factory codec) :
    f.Steady (callbacks.foldl (runCallback id) f) :=
  (Quiet.foldl (quiet_runCallback id) callbacks f).steady fun hpool =>
    reachable_foldl (fun _ callback hpool => reachable_runCallback hpool id callback) callbacks hpool

theorem steady_onComplete (f : Factory codec) (id : ChannelId) (callback : Callback) :
    f.Steady (f.onComplete id callback.toProgram callback.retreats) := by
  refine (quiet_onComplete f id callback).steady fun hpool => ?_
  unfold onComplete
  split
  · exact hpool
  · dsimp only
    split
    · exact hpool
    · exact reachable_runCallback hpool id callback
    · exact hpool

/-! ### Ends -/

theorem steady_finish (f : Factory codec) (id : ChannelId) : f.Steady (f.finish id) where
  sessionOf := by
    funext other
    rw [Factory.sessionOf, attempts_finish, Factory.sessionOf]
    cases f.attempts[other]? with
    | none => rfl
    | some a =>
        rw [Option.map_some, Option.bind_some, Option.bind_some]
        split <;> rfl
  pool := by
    intro hpool
    unfold finish
    dsimp only
    split <;> exact hpool

theorem steady_fail (f : Factory codec) (id : ChannelId) (cause : Fault) : f.Steady (f.fail id cause) :=
  (quiet_fail f id cause).steady_of_pool (refuse_same pool (fun _ _ _ _ _ => rfl) f id (.failed cause))

theorem steady_abort (f : Factory codec) (id : ChannelId) (cause : Fault) :
    f.Steady (f.abort id cause) :=
  (steady_fail f id cause).trans (steady_finish _ id)

/-! ### Steps -/

theorem steady_noticeClosed (f : Factory codec) (id : ChannelId) : f.Steady (f.noticeClosed id) := by
  unfold noticeClosed
  split
  · exact .refl f
  · split
    · exact steady_abort f id _
    · exact .refl f

theorem steady_touch (f : Factory codec) (id : ChannelId) : f.Steady (f.touch id) := by
  unfold touch
  split
  · exact .refl f
  · exact steady_modify id _ fun _ => rfl

theorem steady_plans (h : f.Plans id f') : f.Steady f' := by
  cases h with
  | nothing => exact .refl f
  | look => exact steady_of_same rfl rfl

theorem steady_arm (f : Factory codec) (id : ChannelId) : f.Steady (f.arm id) :=
  steady_plans (plans_arm f id)

theorem steady_look (f : Factory codec) (id : ChannelId) (now : Nat) : f.Steady (f.look id now) := by
  cases hidles : f.idles id now with
  | true => exact look_of_idles hidles ▸ steady_modify id _ fun _ => rfl
  | false => exact steady_plans (plans_look hidles)

theorem steady_fire (f : Factory codec) (run : Nat) : f.Steady (f.fire run) := by
  unfold fire
  split
  · exact .refl f
  · split
    · exact .refl f
    · rename_i timer s' _
      have hset : f.Steady { f with schedulers := f.schedulers.set run s' } := steady_of_same rfl rfl
      exact hset.trans (steady_look _ timer.body s'.now)

theorem steady_dialed (f : Factory codec) (id : ChannelId) (answer : Except Fault Address) :
    f.Steady (f.dialed id answer) := by
  unfold dialed
  split
  · exact .refl f
  · split
    · split
      · exact steady_abort f id _
      · refine Steady.trans (Steady.trans ?_ (steady_touch _ id)) (steady_arm _ id)
        exact steady_modify id _ fun _ => rfl
    · exact .refl f

theorem steady_setEndpoint {e e' : Endpoint codec} (he : f.endpoint? id = some e)
    (hid : e'.session.id = e.session.id) (hpool : f.pool.Reachable → e'.pool.Reachable) :
    f.Steady (f.setEndpoint id e') := by
  obtain ⟨a, ha, hlink, -⟩ := endpoint?_eq_some he
  refine ⟨?_, hpool⟩
  funext other
  rw [Factory.sessionOf, Factory.sessionOf]
  show ((modify { f with pool := e'.pool } id _).attempts[other]?).bind Attempt.session? = _
  rw [attempts_modify]
  by_cases hother : id = other
  · subst hother
    have hsame : some e'.session.id = a.session? := by rw [Attempt.session?, hlink, hid]; rfl
    simpa [ha, Attempt.session?] using hsame
  · simp [hother]

theorem endpoint?_setEndpoint {e e' : Endpoint codec} (he : f.endpoint? id = some e) :
    (f.setEndpoint id e').endpoint? id = some e' := by
  obtain ⟨a, ha, -, -⟩ := endpoint?_eq_some he
  have hput : (f.setEndpoint id e').attempts[id]? = some { a with
      link := some e'.toLink, channel := { a.channel with isOpen := e'.channelOpen } } :=
    attempts_modify_self ha _
  simp only [endpoint?, hput]
  rfl

theorem endpoint?_modify (f : Factory codec) (id : ChannelId) (change : Attempt codec → Attempt codec)
    (hsame : ∀ a, (change a).link = a.link ∧ (change a).channel = a.channel) :
    (f.modify id change).endpoint? id = f.endpoint? id := by
  cases ha : f.attempts[id]? with
  | none =>
      have hnone : (f.modify id change).attempts[id]? = none := by rw [attempts_modify, ha, Option.map_none]
      simp only [endpoint?, ha, hnone]
  | some a =>
      simp only [endpoint?, ha, attempts_modify_self ha change, hsame]
      rfl

theorem steady_sessionClosed (f : Factory codec) (session : SessionId) :
    f.Steady (f.sessionClosed session).2 := by
  unfold sessionClosed
  split <;> exact steady_of_same rfl rfl

theorem id_connectionClosed (e : Endpoint codec) (listener : Session.Listener) :
    (e.connectionClosed listener).2.session.id = e.session.id := by
  unfold Endpoint.connectionClosed
  split
  · rfl
  · exact (Endpoint.serves_notify _ listener .closed).id

/-- The listener has been told of the end, and the session is counted still. -/
theorem steady_told {e e' : Endpoint codec} (he : f.endpoint? id = some e)
    (hid : e'.session.id = e.session.id) (hpool : f.pool.Reachable → e'.pool.Reachable)
    (listener : Session.Listener) :
    f.Steady ((f.setEndpoint id (e'.connectionClosed listener).2).modify id fun a =>
      { a with told := a.told ++ (e'.connectionClosed listener).1 }) := by
  have hput : f.Steady (f.setEndpoint id (e'.connectionClosed listener).2) :=
    steady_setEndpoint he ((id_connectionClosed e' listener).trans hid) fun hreached =>
      ((Endpoint.twins_self (hpool hreached)).connectionClosed listener).2.pools.1
  exact hput.trans (steady_modify id _ fun _ => rfl)

theorem steady_windUp {e e' : Endpoint codec} (he : f.endpoint? id = some e)
    (hid : e'.session.id = e.session.id) (hpool : f.pool.Reachable → e'.pool.Reachable)
    (listener : Session.Listener) (result : Except Fault Unit) :
    f.Steady (f.windUp id listener e' result) := by
  have htold := (steady_told he hid hpool listener).trans (steady_sessionClosed _
    (e'.connectionClosed listener).2.session.id)
  unfold windUp
  dsimp only
  cases result with
  | error fault => exact htold.trans (steady_abort _ id fault)
  | ok _ => exact htold.trans (steady_finish _ id)

/-- The endpoint of an attempt has the factory's pool. -/
theorem pool_endpoint? {e : Endpoint codec} (he : f.endpoint? id = some e) : e.pool = f.pool := by
  unfold endpoint? at he
  split at he
  · cases he
  · obtain ⟨link, -, rfl⟩ := Option.map_eq_some_iff.mp he
    rfl

/-- What a turn makes of a factory, before an end is wound up. -/
def turned (f : Factory codec) (id : ChannelId) (moved : Bool) (last : Endpoint codec)
    (progress : Progress) (written : Bytes) (entries : List Session.Entry) : Factory codec :=
  ((if moved then f.touch id else f).setEndpoint id last).modify id fun a => { a with
    stage := .carrying progress, written := written, told := a.told ++ entries }

/-- A turn has nothing to do, or leaves another end of the same session, which is wound up if that was its
last turn. -/
theorem turn_cases (f : Factory codec) (id : ChannelId) (socket : Socket) :
    f.turn id socket = f ∨ ∃ e moved last progress written entries, f.endpoint? id = some e ∧
      last.session.id = e.session.id ∧ (e.pool.Reachable → last.pool.Reachable) ∧
      (f.turn id socket = f.turned id moved last progress written entries ∨
        ∃ listener result, f.turn id socket =
          (f.turned id moved last progress written entries).windUp id listener last result) := by
  unfold turn
  split
  · rename_i a e ha he
    split
    · rename_i progress hstage
      dsimp only
      have hid := (Connection.turned { endpoint := e, progress := progress, written := a.written }
        a.listener socket).same.1
      have hpool : e.pool.Reachable → (Connection.turn
          { endpoint := e, progress := progress, written := a.written } a.listener
          socket).2.endpoint.pool.Reachable := fun hreached =>
        ((Connection.Twins.turn ⟨Endpoint.twins_self hreached, rfl, rfl⟩ a.listener
          socket).2).endpoint.pools.1
      generalize Connection.moves _ socket = moved
      generalize (Connection.turn _ a.listener socket).1 = entries
      generalize (Connection.turn _ a.listener socket).2 = c at hid hpool ⊢
      refine Or.inr ⟨e, moved, c.endpoint, c.progress, c.written, entries, he, hid, hpool, ?_⟩
      split
      · exact Or.inr ⟨_, _, rfl⟩
      · exact Or.inl rfl
    · exact Or.inl rfl
  · exact Or.inl rfl

theorem steady_turned {e last : Endpoint codec} (he : f.endpoint? id = some e)
    (hid : last.session.id = e.session.id) (hpool : e.pool.Reachable → last.pool.Reachable) (moved : Bool)
    (progress : Progress) (written : Bytes) (entries : List Session.Entry) :
    f.Steady (f.turned id moved last progress written entries) := by
  have htouched : f.Steady (if moved then f.touch id else f) := by
    split
    · exact steady_touch f id
    · exact .refl f
  have he' := (endpoint?_touched f id moved).trans he
  have hput := steady_setEndpoint he' hid fun hreached => hpool (pool_endpoint? he' ▸ hreached)
  exact (htouched.trans hput).trans (steady_modify id _ fun _ => rfl)

theorem endpoint?_turned {e : Endpoint codec} (he : f.endpoint? id = some e) (moved : Bool)
    (last : Endpoint codec) (progress : Progress) (written : Bytes) (entries : List Session.Entry) :
    (f.turned id moved last progress written entries).endpoint? id = some last :=
  (endpoint?_modify _ id (fun a => { a with
    stage := .carrying progress, written := written, told := a.told ++ entries }) fun _ => ⟨rfl, rfl⟩).trans
    (endpoint?_setEndpoint ((endpoint?_touched f id moved).trans he))

theorem steady_turn (f : Factory codec) (id : ChannelId) (socket : Socket) :
    f.Steady (f.turn id socket) := by
  obtain heq | ⟨e, moved, last, progress, written, entries, he, hid, hpool, hturn⟩ := f.turn_cases id socket
  · rw [heq]
    exact .refl f
  · have hturned := steady_turned he hid hpool moved progress written entries
    have hlast := endpoint?_turned he moved last progress written entries
    obtain heq | ⟨listener, result, heq⟩ := hturn
    · rwa [heq]
    · rw [heq]
      exact hturned.trans (steady_windUp hlast rfl (fun hreached => pool_endpoint? hlast ▸ hreached) _ _)

/-! ### Sessions begin -/

/-- A number that no session gets. -/
theorem Regular.skip (h : f.Regular) : Regular { f with sessionsMade := f.sessionsMade + 1 } where
  pool := h.pool
  numbered := fun session hs => Nat.le_succ_of_le (h.numbered session hs)
  apart := h.apart
  made := fun id session hheld => Nat.le_succ_of_le (h.made id session hheld)

theorem sessionOf_opened (f : Factory codec) (id other : ChannelId) (a : Attempt codec)
    (promise : Promise SessionId Callback) :
    (f.opened id a promise).sessionOf other =
      if id = other then (f.attempts[other]?).map fun _ => f.sessionsMade + 1 else f.sessionOf other := by
  rw [sessionOf, opened, attempts_modify]
  by_cases hid : id = other
  · subst hid
    cases f.attempts[id]? <;> simp [Attempt.session?, newSession]
  · simp [hid, sessionOf]

/-- The new number is nobody's yet. -/
theorem Regular.opened (h : f.Regular) (id : ChannelId) (a : Attempt codec)
    (promise : Promise SessionId Callback) : (f.opened id a promise).Regular where
  pool := h.pool
  numbered := by
    intro session hs
    rcases Connector.mem_enter.mp hs with hs | rfl
    · exact Nat.le_succ_of_le (h.numbered session hs)
    · exact Nat.le_refl _
  apart := by
    have hnew : ∀ other session, f.sessionOf other = some session → session ≠ f.sessionsMade + 1 :=
      fun other session hheld => Nat.ne_of_lt (Nat.lt_succ_of_le (h.made other session hheld))
    intro other other' session hheld hheld'
    rw [sessionOf_opened] at hheld hheld'
    split at hheld
    · rename_i hid
      obtain ⟨-, -, rfl⟩ := Option.map_eq_some_iff.mp hheld
      split at hheld'
      · rename_i hid'
        exact hid.symm.trans hid'
      · exact absurd rfl (hnew other' _ hheld')
    · split at hheld'
      · obtain ⟨-, -, rfl⟩ := Option.map_eq_some_iff.mp hheld'
        exact absurd rfl (hnew other _ hheld)
      · exact h.apart other other' session hheld hheld'
  made := by
    intro other session hheld
    rw [sessionOf_opened] at hheld
    split at hheld
    · obtain ⟨-, -, rfl⟩ := Option.map_eq_some_iff.mp hheld
      exact Nat.le_refl _
    · exact Nat.le_succ_of_le (h.made other session hheld)

theorem Regular.construct (h : f.Regular) (id : ChannelId) : (f.construct id).Regular := by
  unfold Factory.construct
  split
  · exact h
  · rename_i a ha
    split
    · rename_i fault f' heq
      obtain ⟨rfl, -⟩ := openSession_error h.numbered heq
      exact h.skip.steady (steady_abort _ id fault) (barren_abort _ id fault)
    · rename_i f' heq
      obtain ⟨-, -, -, rfl⟩ := openSession_ok h.numbered heq
      have hcalled := (h.opened id a (.completedWith (f.sessionsMade + 1))).steady
        (steady_runCallbacks id a.promise.callbacks _)
        (Quiet.foldl (quiet_runCallback id) a.promise.callbacks _).barren
      refine Regular.modify ?_ id _ fun _ => ⟨rfl, rfl⟩
      exact hcalled.of_same rfl rfl rfl rfl

theorem Regular.establish (h : f.Regular) (id : ChannelId) (engine : Except Fault Unit) :
    (f.establish id engine).Regular := by
  unfold Factory.establish
  split
  · exact h
  · split
    · exact h.construct id
    · exact h.steady (steady_abort f id _) (barren_abort f id _)
    · refine Regular.modify ?_ id _ fun _ => ⟨rfl, rfl⟩
      exact h.of_same rfl rfl rfl rfl
    · exact h

theorem Regular.heard (h : f.Regular) (id : ChannelId) : (f.heard id).Regular :=
  h.steady ((steady_touch f id).trans (steady_of_same rfl rfl)) (barren_heard f id)

theorem Regular.secured (h : f.Regular) (id : ChannelId) (handshake : Except Fault (Option Bytes)) :
    (f.secured id handshake).Regular := by
  unfold Factory.secured
  split
  · exact h
  · split
    · exact h.steady (steady_abort f id _) (barren_abort f id _)
    · dsimp only
      split
      · exact (h.heard id).steady (steady_abort _ id _) (barren_abort _ id _)
      · split
        · exact (h.heard id).steady (steady_abort _ id _) (barren_abort _ id _)
        · exact (h.heard id).construct id
    · exact h

/-! ### Courses -/

theorem steady_register {run client : Nat} {peer : Address} {listener : Session.Listener}
    {result : Except Fault Unit} (h : f.register run client peer listener = (result, f')) :
    f.Steady f' := by
  obtain ⟨stage, connectors, rfl, -, -⟩ := register_eq h
  refine ⟨?_, fun hpool => hpool⟩
  funext id
  rw [sessionOf, sessionOf]
  rcases Nat.lt_trichotomy id f.attempts.length with hlt | rfl | hgt
  · rw [List.getElem?_append_left hlt]
  · rw [List.getElem?_concat_length, List.getElem?_eq_none (Nat.le_refl _)]
    rfl
  · rw [List.getElem?_eq_none (Nat.le_of_lt hgt), List.getElem?_eq_none]
    rw [List.length_append]
    exact hgt

theorem steady_connect (f : Factory codec) (client : Nat) (peer : Address) (listener : Session.Listener)
    (socket : Except Fault Unit) : f.Steady (f.connect client peer listener socket).2 := by
  unfold connect
  split
  · split
    · exact .refl f
    · dsimp only
      split
      · rename_i fault f' heq
        exact (steady_register heq).trans (steady_modify _ _ fun _ => rfl)
      · rename_i f' heq
        exact steady_register heq
  · exact .refl f

theorem steady_start (f : Factory codec) (executor : Except Fault Unit) :
    f.Steady (f.start executor).2 := by
  unfold start
  split <;> exact steady_of_same rfl rfl

theorem Regular.quiet (h : f.Regular) (hquiet : f.Quiet f') (hpool : f.pool.Reachable → f'.pool.Reachable) :
    f'.Regular :=
  h.steady (hquiet.steady hpool) hquiet.barren

theorem Regular.after (h : f.Regular) (e : Event) : (f.after e).Regular := by
  have hsteady : ∀ {f' : Factory codec}, f.Steady f' → e.isDecisive = false → f.after e = f' →
      f'.Regular := by
    rintro f' hsteady hdecisive rfl
    exact h.steady hsteady (barren_after f hdecisive)
  cases e with
  | newClient number =>
      show (f.newClient number).2.Regular
      unfold newClient
      split
      · exact h
      · exact h.of_same rfl rfl rfl rfl
  | configure client change => exact h.of_same rfl rfl rfl rfl
  | start executor => exact hsteady (steady_start f executor) rfl rfl
  | markStopping => exact h.of_same rfl rfl rfl rfl
  | retire => exact h.quiet (quiet_retire f) reachable_retire
  | takeDown component =>
      have hpool := outlasts_pool.takeDown f component
      exact hsteady ((quiet_takeDown f component).steady_of_pool hpool) rfl rfl
  | stopConnector run =>
      refine hsteady ((quiet_stopConnector f run).steady_of_pool ?_) rfl rfl
      exact stopConnector_same Factory.pool outlasts_pool.connector outlasts_pool.fail
        outlasts_pool.close f run
  | markStopped => exact h.of_same rfl rfl rfl rfl
  | stop => exact h.quiet (quiet_stop f) reachable_stop
  | drop =>
      exact hsteady ((quiet_takeAllDown f).steady_of_pool (outlasts_pool.takeAllDown f)) rfl rfl
  | onComplete id callback => exact hsteady (steady_onComplete f id callback) rfl rfl
  | call id c => exact h.quiet (quiet_call f id c) fun hpool => reachable_call hpool id c
  | cancel id => exact hsteady ((quiet_cancel f id).steady_of_pool (pool_cancel f id)) rfl rfl
  | close id => exact h.modify id Attempt.close fun _ => ⟨rfl, rfl⟩
  | noticeClosed id => exact hsteady (steady_noticeClosed f id) rfl rfl
  | dialed id answer => exact hsteady (steady_dialed f id answer) rfl rfl
  | establish id engine => exact h.establish id engine
  | secured id handshake => exact h.secured id handshake
  | turn id socket => exact hsteady (steady_turn f id socket) rfl rfl
  | pass span => exact h.of_same rfl rfl rfl rfl
  | fire run => exact hsteady (steady_fire f run) rfl rfl

theorem Step.regular {new : List ChannelId} (hstep : Step f new f') (h : f.Regular) : f'.Regular := by
  cases hstep with
  | registered heq => exact h.steady (steady_register heq) (barren_register heq)
  | refused heq => exact h.steady (steady_register heq) (barren_register heq)
  | @connected client peer listener socket id f' heq =>
      have hsteady := steady_connect f client peer listener socket
      have hbarren := barren_connect f client peer listener socket
      rw [heq] at hsteady hbarren
      exact h.steady hsteady hbarren
  | @unconnected client peer listener socket cause f' heq =>
      have hsteady := steady_connect f client peer listener socket
      have hbarren := barren_connect f client peer listener socket
      rw [heq] at hsteady hbarren
      exact h.steady hsteady hbarren
  | event e => exact h.after e

theorem Course.regular {f₀ : Factory codec} {accepted : List ChannelId} (hcourse : Course f₀ accepted f)
    (h : f₀.Regular) : f.Regular := by
  induction hcourse with
  | refl => exact h
  | step _ hstep ih => exact hstep.regular ih

/-- A factory that has not made anything yet. -/
theorem regular_new (hattempts : f.attempts = []) (hsessions : f.sessions = []) (hpool : f.pool.idle = []) :
    f.Regular where
  pool := by
    have hempty : f.pool = ⟨f.pool.bufferSize, f.pool.maxPooled, []⟩ := by rw [← hpool]
    exact hempty ▸ .empty _ _
  numbered := by
    intro session hs
    rw [hsessions] at hs
    cases hs
  apart := by
    intro id other session hheld
    rw [sessionOf, hattempts] at hheld
    cases hheld
  made := by
    intro id session hheld
    rw [sessionOf, hattempts] at hheld
    cases hheld

end Factory

end SpdySessions
