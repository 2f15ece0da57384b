import SpdySessions.Proofs.Factory.Steps
import SpdySessions.Proofs.Factory.Stopping

/-! What is done beside the components. Whatever happens to a factory besides starts and stops makes no
component and takes none down, unless a callback that is handed its session calls for a stop. And of
the components of all runs, an attempt has to do with those of its own run only, from its connect to
its end. It belongs to one client all the time, and to one idle timeout once its socket is connected. -/

namespace SpdySessions

/-- What nobody but the one who takes a component down ever changes. -/
def Connector.switches (c : Connector) : Bool × Bool :=
  (c.running, c.attended)

theorem Connector.switches_register (c : Connector) (id : ChannelId) :
    (c.register id).2.switches = c.switches := by
  unfold register
  split
  · dsimp only
    split <;> rfl
  · rfl

namespace Scheduler

variable {β : Type}

theorem stopped_schedule (s : Scheduler β) (delay : Nat) (body : β) :
    (s.schedule delay body).2.stopped = s.stopped := by
  unfold schedule
  split <;> rfl

theorem now_schedule (s : Scheduler β) (delay : Nat) (body : β) :
    (s.schedule delay body).2.now = s.now := by
  unfold schedule
  split <;> rfl

theorem stopped_next? {s s' : Scheduler β} {limit : Nat} {t : Timer β}
    (h : s.next? limit = some (t, s')) : s'.stopped = s.stopped := by
  unfold next? at h
  split at h
  · cases h
  · split at h
    · obtain ⟨-, rfl⟩ := Prod.mk.inj (Option.some.inj h)
      rfl
    · cases h

end Scheduler

namespace Attempt

variable {codec : HeaderCodec} {a a' a'' : Attempt codec}

/-- An attempt goes on: in its run, for its client, and with its idle timeout, if it is not dialing. -/
structure GoesOn (a a' : Attempt codec) : Prop where
  run : a'.run = a.run
  client : a'.client = a.client
  timeout : a.stage.isDialing = false → a'.stage.isDialing = false ∧ a'.idleTimeout = a.idleTimeout

theorem GoesOn.refl (a : Attempt codec) : a.GoesOn a :=
  ⟨rfl, rfl, fun h => ⟨h, rfl⟩⟩

theorem GoesOn.trans (h : a.GoesOn a') (h' : a'.GoesOn a'') : a.GoesOn a'' where
  run := h'.run.trans h.run
  client := h'.client.trans h.client
  timeout hstage := by
    obtain ⟨hstage', htimeout⟩ := h.timeout hstage
    obtain ⟨hstage'', htimeout'⟩ := h'.timeout hstage'
    exact ⟨hstage'', htimeout'.trans htimeout⟩

/-- All that matters for how an attempt goes on. -/
def state (a : Attempt codec) : Nat × Nat × Bool × Span :=
  (a.run, a.client, a.stage.isDialing, a.idleTimeout)

theorem GoesOn.of_state (h : a'.state = a.state) : a.GoesOn a' := by
  simp only [state, Prod.mk.injEq] at h
  obtain ⟨hrun, hclient, hstage, htimeout⟩ := h
  exact ⟨hrun, hclient, fun hdialing => ⟨hstage.trans hdialing, htimeout⟩⟩

end Attempt

namespace Factory

variable {codec : HeaderCodec} {used : Nat → Prop} {f f' f'' : Factory codec} {id : ChannelId}

/-- The attempt, if there is one, belongs to a run that may be used. -/
def Owns (used : Nat → Prop) (f : Factory codec) (id : ChannelId) : Prop :=
  ∀ a, f.attempts[id]? = some a → used a.run

/-- A change beside the components, which touches connectors and schedulers of some runs only. -/
structure Beside (used : Nat → Prop) (f f' : Factory codec) : Prop where
  lifecycle : f'.lifecycle = f.lifecycle
  supplied : f'.suppliedExecutor = f.suppliedExecutor
  config : f'.config = f.config
  sessions : f.isRunning = false → f.sessions = [] → f'.sessions = []
  attempts : ∀ (id : ChannelId) a, f.attempts[id]? = some a →
    ∃ a', f'.attempts[id]? = some a' ∧ a.GoesOn a'
  origin : ∀ (id : ChannelId) a', f'.attempts[id]? = some a' →
    (∃ a, f.attempts[id]? = some a ∧ a.run = a'.run) ∨ used a'.run
  connectors : f'.connectors.map Connector.switches = f.connectors.map Connector.switches
  schedulers : f'.schedulers.map Scheduler.stopped = f.schedulers.map Scheduler.stopped
  others : ∀ run, ¬used run →
    f'.connectors[run]? = f.connectors[run]? ∧ f'.schedulers[run]? = f.schedulers[run]?

theorem Beside.refl (f : Factory codec) : f.Beside used f where
  lifecycle := rfl
  supplied := rfl
  config := rfl
  sessions _ h := h
  attempts _ a ha := ⟨a, ha, .refl a⟩
  origin _ a ha := Or.inl ⟨a, ha, rfl⟩
  connectors := rfl
  schedulers := rfl
  others _ _ := ⟨rfl, rfl⟩

theorem Beside.isRunning (h : f.Beside used f') : f'.isRunning = f.isRunning :=
  congrArg Lifecycle.isRunning h.lifecycle

theorem Beside.trans (h : f.Beside used f') (h' : f'.Beside used f'') : f.Beside used f'' where
  lifecycle := h'.lifecycle.trans h.lifecycle
  supplied := h'.supplied.trans h.supplied
  config := h'.config.trans h.config
  sessions hrunning hsessions :=
    h'.sessions (h.isRunning.trans hrunning) (h.sessions hrunning hsessions)
  attempts id a ha := by
    obtain ⟨a', ha', hon⟩ := h.attempts id a ha
    obtain ⟨a'', ha'', hon'⟩ := h'.attempts id a' ha'
    exact ⟨a'', ha'', hon.trans hon'⟩
  origin id a'' ha'' := by
    rcases h'.origin id a'' ha'' with ⟨a', ha', hrun'⟩ | hused
    · rcases h.origin id a' ha' with ⟨a, ha, hrun⟩ | hused
      · exact Or.inl ⟨a, ha, hrun.trans hrun'⟩
      · exact Or.inr (hrun' ▸ hused)
    · exact Or.inr hused
  connectors := h'.connectors.trans h.connectors
  schedulers := h'.schedulers.trans h.schedulers
  others run hrun := by
    obtain ⟨hconnector, hscheduler⟩ := h.others run hrun
    obtain ⟨hconnector', hscheduler'⟩ := h'.others run hrun
    exact ⟨hconnector'.trans hconnector, hscheduler'.trans hscheduler⟩

theorem Beside.owns (h : f.Beside used f') (howns : f.Owns used id) : f'.Owns used id := by
  intro a' ha'
  rcases h.origin id a' ha' with ⟨a, ha, hrun⟩ | hused
  · exact hrun ▸ howns a ha
  · exact hused

/-! ### Changes in one place -/

theorem beside_of_same (hlifecycle : f'.lifecycle = f.lifecycle)
    (hsupplied : f'.suppliedExecutor = f.suppliedExecutor) (hconfig : f'.config = f.config)
    (hsessions : f.isRunning = false → f.sessions = [] → f'.sessions = [])
    (hattempts : f'.attempts = f.attempts) (hconnectors : f'.connectors = f.connectors)
    (hschedulers : f'.schedulers = f.schedulers) : f.Beside used f' where
  lifecycle := hlifecycle
  supplied := hsupplied
  config := hconfig
  sessions := hsessions
  attempts _ a ha := ⟨a, hattempts ▸ ha, .refl a⟩
  origin _ a ha := Or.inl ⟨a, hattempts ▸ ha, rfl⟩
  connectors := congrArg _ hconnectors
  schedulers := congrArg _ hschedulers
  others _ _ := ⟨congrArg (·[_]?) hconnectors, congrArg (·[_]?) hschedulers⟩

theorem beside_modify {change : Attempt codec → Attempt codec}
    (h : ∀ a, f.attempts[id]? = some a → a.GoesOn (change a)) :
    f.Beside used (f.modify id change) := by
  have hon : ∀ (other : ChannelId) a, f.attempts[other]? = some a →
      a.GoesOn (if id = other then change a else a) := by
    intro other a ha
    split
    · rename_i hid
      exact h a (hid ▸ ha)
    · exact .refl a
  refine { Beside.refl f with attempts := fun other a ha => ?_, origin := fun other a' ha' => ?_ }
  · exact ⟨_, by rw [attempts_modify, ha]; rfl, hon other a ha⟩
  · rw [attempts_modify] at ha'
    obtain ⟨a, ha, rfl⟩ := Option.map_eq_some_iff.mp ha'
    exact Or.inl ⟨a, ha, (hon other a ha).run.symm⟩

/-- Most changes are of other things. -/
theorem beside_modify_of_state {change : Attempt codec → Attempt codec}
    (h : ∀ a, (change a).state = a.state) : f.Beside used (f.modify id change) :=
  beside_modify fun a _ => .of_state (h a)

theorem map_modify_of_getElem? {α β : Type} {part : α → β} {change : α → α} {n : Nat} {xs : List α}
    (h : ∀ x, xs[n]? = some x → part (change x) = part x) :
    (xs.modify n change).map part = xs.map part := by
  refine List.ext_getElem? fun i => ?_
  rw [List.getElem?_map, List.getElem?_map, List.getElem?_modify]
  cases hx : xs[i]? with
  | none => rfl
  | some x =>
      simp only [Option.map_eq_map, Option.map_some]
      split
      · rename_i heq
        rw [h x (heq ▸ hx)]
      · rfl

theorem map_modify_same {α β : Type} {part : α → β} {change : α → α}
    (h : ∀ x, part (change x) = part x) (n : Nat) (xs : List α) :
    (xs.modify n change).map part = xs.map part :=
  map_modify_of_getElem? fun x _ => h x

theorem beside_modifyConnector {run : Nat} (hrun : used run) {change : Connector → Connector}
    (h : ∀ c, (change c).switches = c.switches) : f.Beside used (f.modifyConnector run change) :=
  { Beside.refl f with
    connectors := map_modify_same h run f.connectors
    others := fun other hother =>
      ⟨List.getElem?_modify_ne change f.connectors fun heq : run = other => hother (heq ▸ hrun), rfl⟩ }

theorem beside_modifyScheduler {run : Nat} (hrun : used run)
    {change : Scheduler ChannelId → Scheduler ChannelId} (h : ∀ s, (change s).stopped = s.stopped) :
    f.Beside used { f with schedulers := f.schedulers.modify run change } :=
  { Beside.refl f with
    schedulers := map_modify_same h run f.schedulers
    others := fun other hother =>
      ⟨rfl, List.getElem?_modify_ne change f.schedulers fun heq : run = other => hother (heq ▸ hrun)⟩ }

theorem Beside.foldl {α : Type} {g : Factory codec → α → Factory codec}
    (h : ∀ (f : Factory codec) (x : α), f.Beside used (g f x)) (xs : List α) (f : Factory codec) :
    f.Beside used (xs.foldl g f) := by
  induction xs generalizing f with
  | nil => exact .refl f
  | cons x xs ih => exact (h f x).trans (ih (g f x))

/-! ### Channels, promises and calls -/

theorem beside_close (f : Factory codec) (id : ChannelId) : f.Beside used (f.close id).2 :=
  beside_modify_of_state fun _ => rfl

theorem beside_note (f : Factory codec) (id : ChannelId) (entry : Callback.Entry) :
    f.Beside used (f.note id entry) :=
  beside_modify_of_state fun _ => rfl

theorem beside_setEndpoint (f : Factory codec) (id : ChannelId) (e : Endpoint codec) :
    f.Beside used (f.setEndpoint id e) := by
  have hpool : f.Beside used { f with pool := e.pool } :=
    beside_of_same rfl rfl rfl (fun _ h => h) rfl rfl rfl
  exact hpool.trans (beside_modify_of_state fun _ => rfl)

theorem beside_call (f : Factory codec) (id : ChannelId) (c : Session.Call) :
    f.Beside used (f.call id c).2 := by
  unfold call
  split
  · exact .refl f
  · exact beside_setEndpoint f id _

theorem beside_refuse (f : Factory codec) (id : ChannelId) (outcome : Outcome SessionId) :
    f.Beside used (f.refuse id outcome).2 := by
  unfold refuse
  split
  · exact .refl f
  · split
    · exact .refl f
    · exact beside_modify_of_state fun _ => rfl

theorem beside_cancel (f : Factory codec) (id : ChannelId) : f.Beside used (f.cancel id).2 := by
  have hrefuse : f.Beside used (f.refuse id .cancelled).2 := beside_refuse f id _
  unfold cancel
  dsimp only
  split
  · exact hrefuse
  · exact hrefuse.trans (beside_close _ id)

theorem beside_sessionClosed (f : Factory codec) (session : SessionId) :
    f.Beside used (f.sessionClosed session).2 := by
  unfold sessionClosed
  split
  · refine beside_of_same rfl rfl rfl (fun _ hsessions => ?_) rfl rfl rfl
    show f.sessions.filter _ = []
    rw [hsessions, List.filter_nil]
  · exact .refl f

/-! ### Steps of an attempt -/

theorem beside_finish (h : f.Owns used id) : f.Beside used (f.finish id) := by
  have hclosed : f.Beside used { (f.close id).2 with
      negotiations := (f.close id).2.negotiations.erase id } :=
    (beside_close f id).trans (beside_of_same rfl rfl rfl (fun _ h => h) rfl rfl rfl)
  have howns := hclosed.owns h
  unfold finish
  dsimp only
  refine Beside.trans ?_ (beside_modify fun a _ => ⟨rfl, rfl, fun _ => ⟨rfl, rfl⟩⟩)
  split
  · exact hclosed
  · rename_i a ha
    exact hclosed.trans (beside_modifyConnector (howns a ha) fun _ => rfl)

theorem beside_abort (h : f.Owns used id) (cause : Fault) : f.Beside used (f.abort id cause) :=
  (beside_refuse f id _).trans (beside_finish ((beside_refuse f id _).owns h))

theorem beside_noticeClosed (h : f.Owns used id) : f.Beside used (f.noticeClosed id) := by
  unfold noticeClosed
  split
  · exact .refl f
  · split
    · exact beside_abort h _
    · exact .refl f

theorem beside_touch (f : Factory codec) (id : ChannelId) : f.Beside used (f.touch id) := by
  unfold touch
  cases f.attempts[id]? with
  | none => exact .refl f
  | some a => exact beside_modify_of_state fun _ => rfl

theorem beside_plans (h : f.Owns used id) (hplans : f.Plans id f') : f.Beside used f' := by
  cases hplans with
  | nothing => exact .refl f
  | look ha delay => exact beside_modifyScheduler (h _ ha) fun s => s.stopped_schedule delay id

theorem beside_arm (h : f.Owns used id) : f.Beside used (f.arm id) :=
  beside_plans h (plans_arm f id)

theorem beside_look (h : f.Owns used id) (now : Nat) : f.Beside used (f.look id now) := by
  cases hidles : f.idles id now with
  | true => exact look_of_idles hidles ▸ beside_close f id
  | false => exact beside_plans h (plans_look hidles)

theorem beside_dialed (h : f.Owns used id) (answer : Except Fault Address) :
    f.Beside used (f.dialed id answer) := by
  unfold dialed
  split
  · exact .refl f
  · rename_i a ha
    split
    · rename_i hdialing
      split
      · exact beside_abort h _
      · rename_i remote
        have hconnected : f.Beside used (f.modify id fun b => { b with
            stage := .connected, remote := remote,
            idleTimeout := (f.clientOf a).idleTimeoutOr f.idleTimeout }) := by
          refine beside_modify fun b hb => ⟨rfl, rfl, fun hstage => ?_⟩
          obtain rfl := Option.some.inj (ha.symm.trans hb)
          exact absurd (hdialing.symm.trans hstage) (by decide)
        have htouched := hconnected.trans (beside_touch _ id)
        exact htouched.trans (beside_arm (htouched.owns h))
    · exact .refl f

theorem beside_windUp (h : f.Owns used id) (listener : Session.Listener) (e : Endpoint codec)
    (result : Except Fault Unit) : f.Beside used (f.windUp id listener e result) := by
  have htold : ∀ (entries : List Session.Entry) (e : Endpoint codec),
      f.Beside used (((f.setEndpoint id e).modify id fun a => { a with
        told := a.told ++ entries }).sessionClosed e.session.id).2 := by
    intro entries e
    have hset : f.Beside used (f.setEndpoint id e) := beside_setEndpoint f id e
    refine Beside.trans ?_ (beside_sessionClosed _ _)
    exact hset.trans (beside_modify_of_state fun _ => rfl)
  have hdone := htold (e.connectionClosed listener).1 (e.connectionClosed listener).2
  unfold windUp
  dsimp only
  cases result with
  | error fault => exact hdone.trans (beside_abort (hdone.owns h) fault)
  | ok _ => exact hdone.trans (beside_finish (hdone.owns h))

theorem beside_turn (h : f.Owns used id) (socket : Socket) : f.Beside used (f.turn id socket) := by
  unfold turn
  split
  · rename_i a e ha he
    split
    · rename_i progress hstage
      dsimp only
      have hmoved : ∀ b : Bool, f.Beside used (if b = true then f.touch id else f) := by
        intro b
        cases b with
        | false => exact .refl f
        | true => exact beside_touch f id
      have hturned : ∀ (b : Bool) (e : Endpoint codec) (entries : List Session.Entry)
          (progress : Progress) (written : Bytes), f.Beside used
            (((if b = true then f.touch id else f).setEndpoint id e).modify id fun a => { a with
              stage := .carrying progress, written := written, told := a.told ++ entries }) := by
        intro b e entries progress written
        exact ((hmoved b).trans (beside_setEndpoint _ id e)).trans
          (beside_modify fun _ _ => ⟨rfl, rfl, fun _ => ⟨rfl, rfl⟩⟩)
      split
      · exact (hturned _ _ _ _ _).trans (beside_windUp ((hturned _ _ _ _ _).owns h) _ _ _)
      · exact hturned _ _ _ _ _
    · exact .refl f
  · exact .refl f

/-! ### Sessions made, clients and time -/

theorem beside_newClient (f : Factory codec) (number : UInt16) :
    f.Beside used (f.newClient number).2 := by
  unfold newClient
  split
  · exact .refl f
  · exact beside_of_same rfl rfl rfl (fun _ h => h) rfl rfl rfl

theorem beside_configure (f : Factory codec) (client : Nat) (change : Client → Client) :
    f.Beside used (f.configure client change) :=
  beside_of_same rfl rfl rfl (fun _ h => h) rfl rfl rfl

/-- The clocks of all runs go on, and nothing else of them does. -/
theorem beside_pass (hall : ∀ run, used run) (f : Factory codec) (span : Nat) :
    f.Beside used (f.pass span) :=
  { Beside.refl f with
    schedulers := by
      show (f.schedulers.map _).map _ = _
      rw [List.map_map]
      rfl
    others := fun run hrun => absurd (hall run) hrun }

theorem beside_fire (hall : ∀ run, used run) (f : Factory codec) (run : Nat) :
    f.Beside used (f.fire run) := by
  unfold fire
  split
  · exact .refl f
  · rename_i s hs
    split
    · exact .refl f
    · rename_i timer s' hnext
      have hset : f.Beside used { f with schedulers := f.schedulers.set run s' } :=
        { Beside.refl f with
          schedulers := by
            show (f.schedulers.set run s').map _ = _
            obtain ⟨hrun, rfl⟩ := List.getElem?_eq_some_iff.mp hs
            rw [List.map_set, Scheduler.stopped_next? hnext, ← List.getElem_map Scheduler.stopped,
              List.set_getElem_self]
            rwa [List.length_map]
          others := fun other hother => absurd (hall other) hother }
      exact hset.trans (beside_look (fun a _ => hall a.run) _)

/-! ### Registration -/

/-- A registration enters its attempt in the books of one run, or in none. -/
theorem beside_register {run : Nat} (hrun : used run) (f : Factory codec) (client : Nat) (peer : Address)
    (listener : Session.Listener) : f.Beside used (f.register run client peer listener).2 := by
  have happend : ∀ a : Attempt codec, a.run = run →
      f.Beside used { f with attempts := f.attempts ++ [a] } := by
    intro a ha
    refine { Beside.refl f with attempts := fun id b hb => ?_, origin := fun id b hb => ?_ }
    · obtain ⟨hid, -⟩ := List.getElem?_eq_some_iff.mp hb
      exact ⟨b, by rw [← hb]; exact List.getElem?_append_left hid, .refl b⟩
    · by_cases hid : id < f.attempts.length
      · rw [List.getElem?_append_left hid] at hb
        exact Or.inl ⟨b, hb, rfl⟩
      · obtain ⟨-, hb'⟩ := List.getElem?_eq_some_iff.mp hb
        have hlast : b = a := by
          rw [List.getElem?_append_right (Nat.not_lt.mp hid)] at hb
          exact List.mem_singleton.mp (List.mem_of_getElem? hb)
        exact Or.inr (hlast ▸ ha ▸ hrun)
  have hset : ∀ (f : Factory codec) (c c' : Connector), f.connectors[run]? = some c →
      c'.switches = c.switches → f.Beside used { f with connectors := f.connectors.set run c' } := by
    intro f c c' hc hswitches
    obtain ⟨hlt, rfl⟩ := List.getElem?_eq_some_iff.mp hc
    refine { Beside.refl f with connectors := ?_, others := fun other hother => ⟨?_, rfl⟩ }
    · show (f.connectors.set run c').map _ = _
      rw [List.map_set, hswitches, ← List.getElem_map Connector.switches, List.set_getElem_self]
      rwa [List.length_map]
    · exact List.getElem?_set_ne fun heq : run = other => hother (heq ▸ hrun)
  unfold register
  dsimp only
  split
  · exact happend _ rfl
  · rename_i c hc
    have hswitches := c.switches_register f.attempts.length
    split
    · rename_i fault c' hregister
      rw [hregister] at hswitches
      exact (happend _ rfl).trans (hset _ c c' hc hswitches)
    · rename_i c' hregister
      rw [hregister] at hswitches
      exact (happend _ rfl).trans (hset _ c c' hc hswitches)

/-- A connect uses the latest run. -/
theorem beside_connect (hrun : used f.latestRun) (client : Nat) (peer : Address)
    (listener : Session.Listener) (socket : Except Fault Unit) :
    f.Beside used (f.connect client peer listener socket).2 := by
  have hregister := beside_register hrun f client peer listener
  unfold connect
  split
  · split
    · exact .refl f
    · dsimp only
      split
      · rename_i heq
        rw [heq] at hregister
        exact hregister.trans (beside_close _ _)
      · rename_i heq
        rw [heq] at hregister
        exact hregister
  · exact .refl f

/-! ### Lives -/

/-- What starts and stops answer. -/
inductive Answer where
  | started (answer : Except Fault (List Component))
  | stopped (down : List Component)

/-- The life of a factory from some moment on: starts and stops, and what happens beside the components
and uses some runs only. -/
inductive Life (used : Nat → Prop) (f : Factory codec) : List Answer → Factory codec → Prop
  | refl : Life used f [] f
  | start {answers : List Answer} {f' : Factory codec} (h : Life used f answers f')
      (executor : Except Fault Unit) :
      Life used f (answers ++ [.started (f'.start executor).1]) (f'.start executor).2
  | stop {answers : List Answer} {f' : Factory codec} (h : Life used f answers f') :
      Life used f (answers ++ [.stopped f'.stop.1]) f'.stop.2
  | beside {answers : List Answer} {f' f'' : Factory codec} (h : Life used f answers f')
      (hbeside : f'.Beside used f'') : Life used f answers f''

/-- A call that leaves the components alone, but for stops that it calls for itself. -/
def Acts (used : Nat → Prop) (f f' : Factory codec) : Prop :=
  ∃ downs : List (List Component), Life used f (downs.map .stopped) f'

theorem Life.trans {answers answers' : List Answer} (h : Life used f answers f')
    (h' : Life used f' answers' f'') : Life used f (answers ++ answers') f'' := by
  induction h' with
  | refl => rwa [List.append_nil]
  | start h' executor ih =>
      rw [← List.append_assoc]
      exact ih.start executor
  | stop h' ih =>
      rw [← List.append_assoc]
      exact ih.stop
  | beside h' hbeside ih => exact ih.beside hbeside

/-- No start and no stop has to do with how an attempt goes on. -/
theorem states_start (f : Factory codec) (executor : Except Fault Unit) :
    (f.start executor).2.attempts.map Attempt.state = f.attempts.map Attempt.state := by
  unfold start
  split <;> rfl

theorem states_stop (f : Factory codec) :
    f.stop.2.attempts.map Attempt.state = f.attempts.map Attempt.state := by
  let states := fun f : Factory codec => f.attempts.map Attempt.state
  have hmodify : ∀ f id change, (∀ a, (change a).state = a.state) →
      states (modify f id change) = states f := fun f id _ h => map_modify_same h id f.attempts
  have houtlasts : Outlasts states :=
    { connector := fun _ _ _ => rfl
      scheduler := fun _ _ => rfl
      fail := fun f id cause =>
        refuse_same states (fun f id _ _ _ => hmodify f id _ fun _ => rfl) f id (.failed cause)
      close := fun f id => hmodify f id _ fun _ => rfl }
  have hcall : ∀ f id c, states (call f id c).2 = states f :=
    call_same states fun f id e => hmodify { f with pool := e.pool } id _ fun _ => rfl
  exact houtlasts.stop hcall (fun _ _ _ => rfl) f

theorem goesOn_of_states (hstates : f'.attempts.map Attempt.state = f.attempts.map Attempt.state)
    {a : Attempt codec} (ha : f.attempts[id]? = some a) :
    ∃ a', f'.attempts[id]? = some a' ∧ a.GoesOn a' := by
  have hstate : (f'.attempts.map Attempt.state)[id]? = some a.state := by
    rw [hstates, List.getElem?_map, ha, Option.map_some]
  obtain ⟨a', ha', hsame⟩ := Option.map_eq_some_iff.mp (List.getElem?_map ▸ hstate)
  exact ⟨a', ha', .of_state hsame⟩

/-- An attempt goes on through everything that happens. -/
theorem Life.attempt {answers : List Answer} (h : Life used f answers f') {a : Attempt codec}
    (ha : f.attempts[id]? = some a) : ∃ a', f'.attempts[id]? = some a' ∧ a.GoesOn a' := by
  have hstep : ∀ {f' f'' : Factory codec}, (∃ a', f'.attempts[id]? = some a' ∧ a.GoesOn a') →
      (∀ a', f'.attempts[id]? = some a' → ∃ a'', f''.attempts[id]? = some a'' ∧ a'.GoesOn a'') →
      ∃ a'', f''.attempts[id]? = some a'' ∧ a.GoesOn a'' := by
    rintro f' f'' ⟨a', ha', hon⟩ hnext
    obtain ⟨a'', ha'', hon'⟩ := hnext a' ha'
    exact ⟨a'', ha'', hon.trans hon'⟩
  induction h with
  | refl => exact ⟨a, ha, .refl a⟩
  | @start answers f' h executor ih =>
      exact hstep ih fun _ => goesOn_of_states (states_start f' executor)
  | @stop answers f' h ih => exact hstep ih fun _ => goesOn_of_states (states_stop f')
  | beside h hbeside ih => exact hstep ih (hbeside.attempts id)

theorem Life.owns {answers : List Answer} (h : Life used f answers f') (howns : f.Owns used id) :
    f'.Owns used id := by
  have hback : ∀ {f' f'' : Factory codec}, f'.Owns used id →
      (∀ a'', f''.attempts[id]? = some a'' → ∃ a', f'.attempts[id]? = some a' ∧ a''.GoesOn a') →
      f''.Owns used id := by
    intro f' f'' howns hback a'' ha''
    obtain ⟨a', ha', hon⟩ := hback a'' ha''
    exact hon.run ▸ howns a' ha'
  induction h with
  | refl => exact howns
  | @start answers f' h executor ih =>
      exact hback ih fun _ => goesOn_of_states (states_start f' executor).symm
  | @stop answers f' h ih => exact hback ih fun _ => goesOn_of_states (states_stop f').symm
  | beside h hbeside ih => exact hbeside.owns ih

theorem Beside.acts (h : f.Beside used f') : f.Acts used f' :=
  ⟨[], .beside .refl h⟩

theorem Acts.trans (h : f.Acts used f') (h' : f'.Acts used f'') : f.Acts used f'' := by
  obtain ⟨downs, hlife⟩ := h
  obtain ⟨downs', hlife'⟩ := h'
  refine ⟨downs ++ downs', ?_⟩
  rw [List.map_append]
  exact hlife.trans hlife'

theorem Acts.owns (h : f.Acts used f') (howns : f.Owns used id) : f'.Owns used id := by
  obtain ⟨downs, hlife⟩ := h
  exact hlife.owns howns

theorem acts_stop (f : Factory codec) : f.Acts used f.stop.2 :=
  ⟨[f.stop.1], .stop .refl⟩

theorem Acts.foldl {α : Type} {g : Factory codec → α → Factory codec}
    (h : ∀ (f : Factory codec) (x : α), f.Acts used (g f x)) (xs : List α) (f : Factory codec) :
    f.Acts used (xs.foldl g f) := by
  induction xs generalizing f with
  | nil => exact (Beside.refl f).acts
  | cons x xs ih => exact (h f x).trans (ih (g f x))

/-! ### Callbacks -/

theorem acts_perform (f : Factory codec) (id : ChannelId) (deed : Deed) :
    f.Acts used (f.perform id deed).2 := by
  cases deed with
  | call c =>
      have hcall : f.Beside used (f.call id c).2 := beside_call f id c
      unfold perform
      dsimp only
      split
      · rename_i heq
        rw [heq] at hcall
        exact hcall.acts
      · rename_i heq
        rw [heq] at hcall
        exact hcall.acts
  | cancel => exact (beside_cancel f id).acts
  | count => exact (Beside.refl f).acts
  | stop => exact acts_stop f

theorem acts_runCallback (id : ChannelId) (f : Factory codec) (callback : Callback) :
    f.Acts used (runCallback id f callback) := by
  refine (beside_note f id _).acts.trans (Acts.foldl (fun f deed => ?_) callback.deeds _)
  exact (acts_perform f id deed).trans (beside_note _ id _).acts

theorem acts_onComplete (f : Factory codec) (id : ChannelId) (callback : Callback) :
    f.Acts used (f.onComplete id callback.toProgram callback.retreats) := by
  unfold onComplete
  split
  · exact (Beside.refl f).acts
  · dsimp only
    split
    · exact Beside.acts (beside_modify_of_state fun _ => rfl)
    · exact acts_runCallback id f callback
    · exact Beside.acts (beside_modify_of_state fun _ => rfl)

theorem acts_openSession (f : Factory codec) (id : ChannelId) (a : Attempt codec) :
    f.Acts used (f.openSession id a).2 := by
  have hcounted : f.Beside used { f with sessionsMade := (f.newSession a).id } :=
    beside_of_same rfl rfl rfl (fun _ h => h) rfl rfl rfl
  unfold openSession
  dsimp only
  split
  · rename_i f' hopened
    have hsame : f' = { f with sessionsMade := (f.newSession a).id } := by
      unfold sessionOpened at hopened
      split at hopened
      · cases hopened
      · exact (Prod.mk.inj hopened).2.symm
    exact hsame ▸ hcounted.acts
  · rename_i f' hopened
    have hentered : f.Beside used f' := by
      unfold sessionOpened at hopened
      split at hopened
      · rename_i hrunning
        obtain rfl := (Prod.mk.inj hopened).2
        refine hcounted.trans (beside_of_same rfl rfl rfl (fun hstopped => ?_) rfl rfl rfl)
        exact absurd (hrunning.symm.trans hstopped) (by decide)
      · cases hopened
    split
    · exact (hentered.trans (beside_sessionClosed f' _)).acts
    · refine Acts.trans ?_ (Acts.foldl (acts_runCallback id) _ _)
      exact Beside.acts (hentered.trans (beside_modify_of_state fun _ => rfl))

theorem acts_construct (h : f.Owns used id) : f.Acts used (f.construct id) := by
  unfold construct
  split
  · exact (Beside.refl f).acts
  · rename_i a ha
    have hopened : f.Acts used (f.openSession id a).2 := acts_openSession f id a
    split
    · rename_i fault f' heq
      rw [heq] at hopened
      exact hopened.trans (beside_abort (hopened.owns h) fault).acts
    · rename_i f' heq
      rw [heq] at hopened
      have hmarked : f'.Beside used (f'.modifyConnector a.run (·.markOpened id)) :=
        beside_modifyConnector (h a ha) fun _ => rfl
      exact hopened.trans (Beside.acts (hmarked.trans
        (beside_modify fun _ _ => ⟨rfl, rfl, fun _ => ⟨rfl, rfl⟩⟩)))

theorem acts_establish (h : f.Owns used id) (engine : Except Fault Unit) :
    f.Acts used (f.establish id engine) := by
  unfold establish
  split
  · exact (Beside.refl f).acts
  · rename_i a ha
    split
    · exact acts_construct h
    · exact (beside_abort h _).acts
    · have hput : f.Beside used { f with
          negotiations := f.negotiations.put id (f.clientOf a).negotiator } :=
        beside_of_same rfl rfl rfl (fun _ h => h) rfl rfl rfl
      exact Beside.acts (hput.trans (beside_modify fun _ _ => ⟨rfl, rfl, fun _ => ⟨rfl, rfl⟩⟩))
    · exact (Beside.refl f).acts

theorem acts_secured (h : f.Owns used id) (handshake : Except Fault (Option Bytes)) :
    f.Acts used (f.secured id handshake) := by
  unfold secured
  split
  · exact (Beside.refl f).acts
  · split
    · exact (beside_abort h _).acts
    · have htaken : f.Beside used
          { f.touch id with negotiations := ((f.touch id).negotiations.take id).2 } :=
        (beside_touch f id).trans (beside_of_same rfl rfl rfl (fun _ h => h) rfl rfl rfl)
      dsimp only
      split
      · exact (htaken.trans (beside_abort (htaken.owns h) _)).acts
      · split
        · exact (htaken.trans (beside_abort (htaken.owns h) _)).acts
        · exact htaken.acts.trans (acts_construct (htaken.owns h))
    · exact (Beside.refl f).acts

/-! ### Events -/

/-- The attempt that an event happens to. -/
def Event.attempt? : Event → Option ChannelId
  | .onComplete id _ => some id
  | .call id _ => some id
  | .cancel id => some id
  | .close id => some id
  | .noticeClosed id => some id
  | .dialed id _ => some id
  | .establish id _ => some id
  | .secured id _ => some id
  | .turn id _ => some id
  | _ => none

/-- Nobody starts, stops or drops the factory, and no moment of that is an event of its own. -/
def Event.isBeside : Event → Bool
  | .start _ => false
  | .markStopping => false
  | .retire => false
  | .takeDown _ => false
  | .stopConnector _ => false
  | .markStopped => false
  | .stop => false
  | .drop => false
  | _ => true

/-- What happens to an attempt uses the components of its run. -/
theorem acts_of_attempt {e : Event} (he : e.attempt? = some id) (h : f.Owns used id) :
    f.Acts used (f.after e) := by
  cases e with
  | onComplete _ callback => exact acts_onComplete f _ callback
  | call _ c => exact (beside_call f _ c).acts
  | cancel _ => exact (beside_cancel f _).acts
  | close _ => exact (beside_close f _).acts
  | noticeClosed _ =>
      obtain rfl := Option.some.inj he
      exact (beside_noticeClosed h).acts
  | dialed _ answer =>
      obtain rfl := Option.some.inj he
      exact (beside_dialed h answer).acts
  | establish _ engine =>
      obtain rfl := Option.some.inj he
      exact acts_establish h engine
  | secured _ handshake =>
      obtain rfl := Option.some.inj he
      exact acts_secured h handshake
  | turn _ socket =>
      obtain rfl := Option.some.inj he
      exact (beside_turn h socket).acts
  | newClient | configure | start | markStopping | retire | takeDown | stopConnector | markStopped
    | stop | drop | pass | fire => cases he

theorem acts_of_isBeside {e : Event} (he : e.isBeside = true) (hall : ∀ run, used run)
    (f : Factory codec) : f.Acts used (f.after e) := by
  cases hid : e.attempt? with
  | some id => exact acts_of_attempt hid fun a _ => hall a.run
  | none =>
      cases e with
      | newClient number => exact (beside_newClient f number).acts
      | configure client change => exact (beside_configure f client change).acts
      | pass span => exact (beside_pass hall f span).acts
      | fire run => exact (beside_fire hall f run).acts
      | start | markStopping | retire | takeDown | stopConnector | markStopped | stop | drop => cases he
      | onComplete | call | cancel | close | noticeClosed | dialed | establish | secured | turn =>
          cases hid

end Factory

end SpdySessions
