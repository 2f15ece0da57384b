import SpdySessions.Proofs.Factory.Negotiating
import SpdySessions.Proofs.Factory.Shares

/-! Attempts keep apart. Each step of an attempt is its own: done to two factories that are alike to the
attempt, it leaves them alike, and in each it spares everybody else. So no failure of one attempt is felt
by another, and steps of two attempts may be taken in either order. -/

namespace SpdySessions

/-- What a callback may do without having to do with anybody else. -/
def Deed.isOwn : Deed → Bool
  | stop => false
  | _ => true

/-- The callback has to do with its own session only. -/
def Callback.isOwn (callback : Callback) : Bool :=
  callback.deeds.all Deed.isOwn

namespace Factory

open Attempt (part_of_bare)

variable {codec : HeaderCodec} {f f' f'' g g' g'' : Factory codec} {id other : ChannelId}

/-- None of the callbacks that wait has to do with anybody else. -/
def Modest (f : Factory codec) (id : ChannelId) : Prop :=
  ∀ a, f.attempts[id]? = some a → ∀ callback ∈ a.promise.callbacks, callback.isOwn = true

theorem Together.foldl {α : Type} (op : Factory codec → α → Factory codec) (xs : List α)
    (hstep : ∀ (f g : Factory codec) (x : α), x ∈ xs → Alike id f g → Together id f g (op f x) (op g x))
    (h : Alike id f g) : Together id f g (xs.foldl op f) (xs.foldl op g) := by
  induction xs generalizing f g with
  | nil => exact h.stay
  | cons x xs ih =>
      have hfirst := hstep f g x List.mem_cons_self h
      exact hfirst.trans (ih (fun f g x hx => hstep f g x (List.mem_cons_of_mem _ hx)) hfirst.alike)

/-! ### Promises and calls -/

theorem Alike.close (h : Alike id f g) : Together id f g (f.close id).2 (g.close id).2 :=
  h.modify_plain Attempt.close fun _ => ⟨rfl, rfl, rfl⟩

theorem Alike.note (h : Alike id f g) {entry entry' : Callback.Entry} (hentry : entry'.bare = entry.bare) :
    Together id f g (f.note id entry) (g.note id entry') := by
  refine h.modify ⟨h.regular.1.modify id _ fun _ => ⟨rfl, rfl⟩, h.regular.2.modify id _ fun _ => ⟨rfl, rfl⟩⟩
    fun a b _ _ hbare => ⟨rfl, rfl, ?_⟩
  have hlogged : ∀ (a : Attempt codec) (entry : Callback.Entry),
      Attempt.bare { a with callbacks := a.callbacks ++ [entry] } =
        { a.bare with callbacks := a.bare.callbacks ++ [entry.bare] } := by
    intro a entry
    simp [Attempt.bare, Attempt.session?]
  rw [hlogged, hlogged, hbare, hentry]

theorem Alike.disappoint (h : Alike id f g) (callbacks : List Callback) (sessions sessions' : Nat) :
    Together id f g (f.modify id (·.disappoint callbacks sessions))
      (g.modify id (·.disappoint callbacks sessions')) := by
  refine h.modify ⟨h.regular.1.modify id _ fun _ => ⟨rfl, rfl⟩, h.regular.2.modify id _ fun _ => ⟨rfl, rfl⟩⟩
    fun a b _ _ hbare => ⟨rfl, rfl, ?_⟩
  rw [Attempt.bare_disappoint, Attempt.bare_disappoint, hbare]

theorem refuse_eq {a : Attempt codec} (ha : f.attempts[id]? = some a) (outcome : Outcome SessionId) :
    f.refuse id outcome =
      if a.promise.isDone then (false, f)
      else (true, f.modify id fun b =>
        { b with promise := { outcome := some outcome, done := true, callbacks := [] } }.disappoint
          a.promise.callbacks f.sessionCount) := by
  simp only [refuse, ha, settle?_eq]
  cases a.promise.isDone <;> rfl

theorem Alike.refuse (h : Alike id f g) {outcome : Outcome SessionId}
    (hnone : outcome.isCompleted = false) :
    Together id f g (f.refuse id outcome).2 (g.refuse id outcome).2 := by
  have hregular : ∀ {f : Factory codec}, f.Regular → (f.refuse id outcome).2.Regular := fun {f} hregular =>
    hregular.quiet (quiet_refuse f id hnone) fun hpool =>
      refuse_same Factory.pool (fun _ _ _ _ _ => rfl) f id outcome ▸ hpool
  have hleft := hregular h.regular.1
  have hright := hregular h.regular.2
  rcases h.attempts with ⟨ha, hb⟩ | ⟨a, b, ha, hb, hbare⟩
  · simp only [Factory.refuse, ha, hb]
    exact h.stay
  · have hdone := part_of_bare hbare (·.promise.isDone) Attempt.isDone_bare
    have hcallbacks := part_of_bare hbare (·.promise.callbacks) fun _ => rfl
    rw [refuse_eq ha] at hleft
    rw [refuse_eq hb, hdone] at hright
    rw [refuse_eq ha, refuse_eq hb, hdone]
    split
    · exact h.stay
    · rename_i hpending
      rw [if_neg hpending] at hleft hright
      refine h.modify ⟨hleft, hright⟩ fun a' b' _ _ hbare' => ⟨rfl, rfl, ?_⟩
      have hplain : ∀ own, outcome.bare own = outcome := by
        cases outcome with
        | completed => cases hnone
        | failed | cancelled => exact fun _ => rfl
      have hsettled : ∀ a : Attempt codec, Attempt.bare
          { a with promise := { outcome := some outcome, done := true, callbacks := [] } } =
          { a.bare with promise := { outcome := some outcome, done := true, callbacks := [] } } := by
        intro a
        simp [Attempt.bare, hplain]
      rw [Attempt.bare_disappoint, Attempt.bare_disappoint, hsettled, hsettled, hbare', hcallbacks]

theorem Alike.fail (h : Alike id f g) (cause : Fault) :
    Together id f g (f.fail id cause) (g.fail id cause) :=
  h.refuse rfl

theorem Alike.isCompleted (h : Alike id f g) : g.isCompleted id = f.isCompleted id := by
  rcases h.attempts with ⟨ha, hb⟩ | ⟨a, b, ha, hb, hbare⟩
  · rw [Factory.isCompleted, hb, Factory.isCompleted, ha]
  · have hcompleted := part_of_bare hbare (·.promise.isCompleted) Attempt.isCompleted_bare
    rw [Factory.isCompleted, hb, Factory.isCompleted, ha]
    exact hcompleted

theorem Alike.cancel (h : Alike id f g) : Together id f g (f.cancel id).2 (g.cancel id).2 := by
  have hrefused : Together id f g (f.refuse id .cancelled).2 (g.refuse id .cancelled).2 := h.refuse rfl
  unfold Factory.cancel
  dsimp only
  rw [hrefused.alike.isCompleted]
  split
  · exact hrefused
  · exact hrefused.trans hrefused.alike.close

theorem Alike.call (h : Alike id f g) (c : Session.Call) :
    (g.call id c).1 = (f.call id c).1 ∧ Together id f g (f.call id c).2 (g.call id c).2 := by
  unfold Factory.call
  rcases h.endpoints with ⟨he, he'⟩ | ⟨e, e', he, he', htwins⟩
  · rw [he, he']
    exact ⟨rfl, h.stay⟩
  · rw [he, he']
    obtain ⟨hreply, hcalled⟩ := htwins.call c
    exact ⟨congrArg some hreply, h.setEndpoint he he' (e.serves_call c).id (e'.serves_call c).id hcalled⟩

theorem Alike.perform (h : Alike id f g) {deed : Deed} (hown : deed.isOwn = true) :
    (g.perform id deed).1.bare = (f.perform id deed).1.bare ∧
      Together id f g (f.perform id deed).2 (g.perform id deed).2 := by
  cases deed with
  | call c =>
      obtain ⟨hreply, hcalled⟩ := h.call c
      have hperform : ∀ f : Factory codec, f.perform id (.call c) =
          (((f.call id c).1.map Callback.Reply.called).getD .nothing, (f.call id c).2) := by
        intro f
        unfold Factory.perform
        dsimp only
        split
        · rename_i heq
          rw [heq]
          rfl
        · rename_i heq
          rw [heq]
          rfl
      rw [hperform, hperform, hreply]
      exact ⟨rfl, hcalled⟩
  | cancel => exact ⟨rfl, h.cancel⟩
  | count => exact ⟨rfl, h.stay⟩
  | stop => cases hown

theorem Alike.runCallback (h : Alike id f g) {callback : Callback} (hown : callback.isOwn = true) :
    Together id f g (runCallback id f callback) (runCallback id g callback) := by
  have hran : Together id f g (f.note id (.ran true f.sessionCount))
      (g.note id (.ran true g.sessionCount)) := h.note rfl
  unfold Factory.runCallback
  refine hran.trans (Together.foldl _ callback.deeds (fun f g deed hdeed h => ?_) hran.alike)
  obtain ⟨hreply, hdone⟩ := h.perform (List.all_eq_true.mp hown deed hdeed)
  exact hdone.trans (hdone.alike.note (congrArg (Callback.Entry.did deed) hreply))

theorem Alike.onComplete (h : Alike id f g) {callback : Callback} (hown : callback.isOwn = true) :
    Together id f g (f.onComplete id callback.toProgram callback.retreats)
      (g.onComplete id callback.toProgram callback.retreats) := by
  have hregular : ∀ {f : Factory codec}, f.Regular →
      (f.onComplete id callback.toProgram callback.retreats).Regular := fun {f} hregular =>
      hregular.steady (steady_onComplete f id callback) (quiet_onComplete f id callback).barren
  have hleft := hregular h.regular.1
  have hright := hregular h.regular.2
  rcases h.attempts with ⟨ha, hb⟩ | ⟨a, b, ha, hb, hbare⟩
  · simp only [Factory.onComplete, ha, hb]
    exact h.stay
  · have houtcome : b.promise.outcome.map (Outcome.bare b.session?) =
        a.promise.outcome.map (Outcome.bare a.session?) := congrArg (fun a => a.promise.outcome) hbare
    simp only [Factory.onComplete, ha, hb, Promise.register] at hleft hright ⊢
    cases hpending : a.promise.outcome with
    | none =>
        rw [hpending, Option.map_none, Option.map_eq_none_iff] at houtcome
        simp only [hpending, houtcome] at hleft hright ⊢
        refine h.modify ⟨hleft, hright⟩ fun a' b' ha' hb' _ => ⟨rfl, rfl, ?_⟩
        obtain rfl := Option.some.inj (ha.symm.trans ha')
        obtain rfl := Option.some.inj (hb.symm.trans hb')
        have hregistered : ∀ a : Attempt codec, Attempt.bare { a with
            promise := { done := a.promise.done, callbacks := a.promise.callbacks ++ [callback] } } =
            { a.bare with promise :=
              { done := a.bare.promise.done, callbacks := a.bare.promise.callbacks ++ [callback] } } :=
          fun _ => rfl
        rw [hregistered, hregistered, hbare]
    | some outcome =>
        rw [hpending, Option.map_some] at houtcome
        obtain ⟨outcome', hdone, hsame⟩ := Option.map_eq_some_iff.mp houtcome
        rw [hdone]
        cases outcome with
        | completed =>
            cases outcome' with
            | completed => exact h.runCallback hown
            | failed | cancelled => cases hsame
        | failed =>
            cases outcome' with
            | completed => cases hsame
            | failed | cancelled => exact h.disappoint [callback] _ _
        | cancelled =>
            cases outcome' with
            | completed => cases hsame
            | failed | cancelled => exact h.disappoint [callback] _ _

/-! ### Ends -/

theorem Alike.finish (h : Alike id f g) : Together id f g (f.finish id) (g.finish id) := by
  have hclosed := h.close
  have herased := hclosed.trans hclosed.alike.erase
  have hended : ∀ {f g : Factory codec}, Alike id f g → Together id f g
      (f.modify id fun a => { a with stage := .ended }) (g.modify id fun a => { a with stage := .ended }) :=
    fun h => h.modify_plain _ fun _ => ⟨rfl, rfl, rfl⟩
  unfold Factory.finish
  dsimp only
  rcases hclosed.alike.attempts with ⟨ha, hb⟩ | ⟨a, b, ha, hb, hbare⟩
  · rw [ha, hb]
    exact herased.trans (hended herased.alike)
  · rw [ha, hb]
    dsimp only
    rw [part_of_bare hbare Attempt.run fun _ => rfl]
    have hforgotten := herased.trans (herased.alike.forget a.run)
    exact hforgotten.trans (hended hforgotten.alike)

theorem Alike.abort (h : Alike id f g) (cause : Fault) :
    Together id f g (f.abort id cause) (g.abort id cause) :=
  (h.fail cause).trans (h.fail cause).alike.finish

/-! ### Steps -/

theorem Alike.noticeClosed (h : Alike id f g) :
    Together id f g (f.noticeClosed id) (g.noticeClosed id) := by
  unfold Factory.noticeClosed
  rcases h.attempts with ⟨ha, hb⟩ | ⟨a, b, ha, hb, hbare⟩
  · rw [ha, hb]
    exact h.stay
  · rw [ha, hb]
    dsimp only
    rw [part_of_bare hbare Attempt.stage fun _ => rfl, part_of_bare hbare Attempt.channel fun _ => rfl]
    split
    · exact h.abort _
    · exact h.stay

/-- The clocks are common. -/
theorem Alike.touch (h : Alike id f g) : Together id f g (f.touch id) (g.touch id) := by
  unfold Factory.touch
  rcases h.attempts with ⟨ha, hb⟩ | ⟨a, b, ha, hb, hbare⟩
  · rw [ha, hb]
    exact h.stay
  · rw [ha, hb]
    dsimp only
    have hclock : (g.schedulers[a.run]?).map Scheduler.now = (f.schedulers[a.run]?).map Scheduler.now := by
      rw [← List.getElem?_map, h.clocks, List.getElem?_map]
    rw [part_of_bare hbare Attempt.run fun _ => rfl, hclock]
    exact h.modify_plain (fun a' => { a' with
      lastActivity := ((f.schedulers[a.run]?).map (·.now)).getD a'.lastActivity }) fun _ => ⟨rfl, rfl, rfl⟩

theorem Alike.arm (h : Alike id f g) : Together id f g (f.arm id) (g.arm id) :=
  h.plans (plans_arm f id) (plans_arm g id)

theorem Alike.dialed (h : Alike id f g) (answer : Except Fault Address) :
    Together id f g (f.dialed id answer) (g.dialed id answer) := by
  unfold Factory.dialed
  rcases h.attempts with ⟨ha, hb⟩ | ⟨a, b, ha, hb, hbare⟩
  · rw [ha, hb]
    exact h.stay
  · rw [ha, hb]
    dsimp only
    rw [part_of_bare hbare Attempt.stage fun _ => rfl]
    split
    · cases answer with
      | error fault => exact h.abort fault
      | ok remote =>
          dsimp only
          have hidle : g.idleTimeout = f.idleTimeout := congrArg Config.idleTimeout h.config
          rw [h.clientOf hbare, hidle]
          have hconnected := h.modify_plain (fun a' => { a' with
            stage := .connected
            remote := remote
            idleTimeout := (f.clientOf a).idleTimeoutOr f.idleTimeout }) fun _ => ⟨rfl, rfl, rfl⟩
          exact (hconnected.trans hconnected.alike.touch).trans hconnected.alike.touch.alike.arm
    · exact h.stay

theorem Alike.construct (h : Alike id f g) (hmodest : f.Modest id) :
    Together id f g (f.construct id) (g.construct id) := by
  unfold Factory.construct
  rcases h.attempts with ⟨ha, hb⟩ | ⟨a, b, ha, hb, hbare⟩
  · rw [ha, hb]
    exact h.stay
  · have hskipped : ∀ fault, Together id f g
        (Factory.abort { f with sessionsMade := f.sessionsMade + 1 } id fault)
        (Factory.abort { g with sessionsMade := g.sessionsMade + 1 } id fault) := fun fault =>
      h.skip.trans (h.skip.alike.abort fault)
    have hmade := h.opened ha hb hbare
    rw [ha, hb]
    dsimp only
    -- The numbers of the two sessions differ, but both are new: what becomes of them goes by the same.
    rw [openSession_eq h.regular.1.numbered.not_mem, openSession_eq h.regular.2.numbered.not_mem,
      h.isRunning, part_of_bare hbare (·.promise.isDone) Attempt.isDone_bare]
    cases f.isRunning with
    | false => exact hskipped .notRunning
    | true =>
        cases a.promise.isDone with
        | true => exact hskipped .cancelled
        | false =>
            simp only [if_true, Bool.false_eq_true, if_false]
            rw [part_of_bare hbare (·.promise.callbacks) fun _ => rfl,
              part_of_bare hbare Attempt.run fun _ => rfl]
            have hcalled := hmade.trans (Together.foldl (Factory.runCallback id) a.promise.callbacks
              (fun _ _ callback hcallback h => h.runCallback (hmodest a ha callback hcallback)) hmade.alike)
            have hmarked := hcalled.trans (hcalled.alike.markOpened a.run)
            exact hmarked.trans (hmarked.alike.modify_plain (fun a => { a with
              stage := .carrying .running }) fun _ => ⟨rfl, rfl, rfl⟩)

theorem Alike.establish (h : Alike id f g) (engine : Except Fault Unit) (hmodest : f.Modest id) :
    Together id f g (f.establish id engine) (g.establish id engine) := by
  unfold Factory.establish
  rcases h.attempts with ⟨ha, hb⟩ | ⟨a, b, ha, hb, hbare⟩
  · rw [ha, hb]
    exact h.stay
  · rw [ha, hb]
    dsimp only
    have hput := h.put (f.clientOf a).negotiator
    have hsecuring := hput.trans (hput.alike.modify_plain (fun a => { a with stage := .securing })
      fun _ => ⟨rfl, rfl, rfl⟩)
    rw [part_of_bare hbare Attempt.stage fun _ => rfl, h.clientOf hbare]
    -- Put aside, as the security is to be rewritten only where it is asked for, not in what is made.
    generalize Factory.modify { f with
      negotiations := f.negotiations.put id (f.clientOf a).negotiator } id _ = f₁ at hsecuring ⊢
    generalize Factory.modify { g with
      negotiations := g.negotiations.put id (f.clientOf a).negotiator } id _ = g₁ at hsecuring ⊢
    rw [h.security]
    split
    · exact h.construct hmodest
    · exact h.abort _
    · exact hsecuring
    · exact h.stay

theorem Alike.secured (h : Alike id f g) (handshake : Except Fault (Option Bytes))
    (hmodest : f.Modest id) : Together id f g (f.secured id handshake) (g.secured id handshake) := by
  have hheard : Together id f g (f.heard id) (g.heard id) := h.touch.trans h.touch.alike.erase
  have hhandler : (g.touch id).negotiations.get? id = (f.touch id).negotiations.get? id :=
    congrArg Share.handler h.touch.alike.share
  unfold Factory.secured
  rcases h.attempts with ⟨ha, hb⟩ | ⟨a, b, ha, hb, hbare⟩
  · rw [ha, hb]
    exact h.stay
  · rw [ha, hb]
    dsimp only
    rw [part_of_bare hbare Attempt.stage fun _ => rfl]
    split
    · exact h.abort _
    · rename_i chosen _
      dsimp only [Negotiations.take]
      rw [hhandler]
      split
      · exact hheard.trans (hheard.alike.abort _)
      · split
        · exact hheard.trans (hheard.alike.abort _)
        · refine hheard.trans (hheard.alike.construct fun a' ha' => ?_)
          obtain ⟨lastActivity, hsame⟩ := attempts_heard ha
          obtain rfl := Option.some.inj (hsame.symm.trans ha')
          exact hmodest a ha
    · exact h.stay

/-! ### Connections -/

theorem Alike.windUp (h : Alike id f g) {e e' : Endpoint codec} (he : f.endpoint? id = some e)
    (he' : g.endpoint? id = some e') (htwins : e.Twins e') (listener : Session.Listener)
    (result : Except Fault Unit) :
    Together id f g (f.windUp id listener e result) (g.windUp id listener e' result) := by
  obtain ⟨hentries, hclosed⟩ := htwins.connectionClosed listener
  have hid := id_connectionClosed e listener
  have hid' := id_connectionClosed e' listener
  have hput := h.setEndpoint he he' hid hid' hclosed
  have hlast : (f.setEndpoint id (e.connectionClosed listener).2).endpoint? id = some _ :=
    endpoint?_setEndpoint he
  have hlast' : (g.setEndpoint id (e'.connectionClosed listener).2).endpoint? id = some _ :=
    endpoint?_setEndpoint he'
  unfold Factory.windUp
  dsimp only
  rw [hentries]
  generalize (e.connectionClosed listener).1 = entries
  generalize (e.connectionClosed listener).2 = last at hput hlast ⊢
  generalize (e'.connectionClosed listener).2 = last' at hput hlast' ⊢
  have htold := hput.trans (hput.alike.modify_plain (fun a => { a with told := a.told ++ entries })
    fun _ => ⟨rfl, rfl, rfl⟩)
  have hheld : ∀ {f : Factory codec} {e : Endpoint codec}, f.endpoint? id = some e →
      sessionOf (f.modify id fun a => { a with told := a.told ++ entries }) id = some e.session.id := by
    intro f e he
    obtain ⟨a, ha, hlink, -⟩ := endpoint?_eq_some
      ((endpoint?_modify f id (fun a => { a with told := a.told ++ entries }) fun _ => ⟨rfl, rfl⟩).trans he)
    rw [sessionOf, ha, Option.bind_some, Attempt.session?, hlink]
    rfl
  have hstruck := htold.trans (htold.alike.sessionClosed (hheld hlast) (hheld hlast'))
  cases result with
  | error fault => exact hstruck.trans (hstruck.alike.abort fault)
  | ok _ => exact hstruck.trans hstruck.alike.finish

/-- What a turn makes of an attempt that it does not end. -/
theorem Alike.turned (h : Alike id f g) {e e' last last' : Endpoint codec} (he : f.endpoint? id = some e)
    (he' : g.endpoint? id = some e') (hid : last.session.id = e.session.id)
    (hid' : last'.session.id = e'.session.id) (htwins : last.Twins last') (moved : Bool)
    (progress : Progress) (written : Bytes) (entries : List Session.Entry) :
    Together id f g
      (((if moved then f.touch id else f).setEndpoint id last).modify id fun a => { a with
        stage := .carrying progress, written := written, told := a.told ++ entries })
      (((if moved then g.touch id else g).setEndpoint id last').modify id fun a => { a with
        stage := .carrying progress, written := written, told := a.told ++ entries }) := by
  have htouched : Together id f g (if moved then f.touch id else f) (if moved then g.touch id else g) := by
    split
    · exact h.touch
    · exact h.stay
  have hput := htouched.alike.setEndpoint ((endpoint?_touched f id moved).trans he)
    ((endpoint?_touched g id moved).trans he') hid hid' htwins
  exact (htouched.trans hput).trans (hput.alike.modify_plain (fun a => { a with
    stage := .carrying progress, written := written, told := a.told ++ entries }) fun _ => ⟨rfl, rfl, rfl⟩)

theorem Alike.turn (h : Alike id f g) (socket : Socket) :
    Together id f g (f.turn id socket) (g.turn id socket) := by
  unfold Factory.turn
  rcases h.attempts with ⟨ha, hb⟩ | ⟨a, b, ha, hb, hbare⟩
  · rw [ha, hb]
    exact h.stay
  · rcases h.endpoints with ⟨he, he'⟩ | ⟨e, e', he, he', htwins⟩
    · rw [ha, hb, he, he']
      exact h.stay
    · rw [ha, hb, he, he']
      dsimp only
      rw [part_of_bare hbare Attempt.stage fun _ => rfl, part_of_bare hbare Attempt.listener fun _ => rfl,
        part_of_bare hbare Attempt.written fun _ => rfl]
      split
      · rename_i progress hstage
        have hconnections : Connection.Twins
            { endpoint := e, progress := progress, written := a.written }
            { endpoint := e', progress := progress, written := a.written } := ⟨htwins, rfl, rfl⟩
        have hid := (Connection.turned { endpoint := e, progress := progress, written := a.written }
          a.listener socket).same.1
        have hid' := (Connection.turned { endpoint := e', progress := progress, written := a.written }
          a.listener socket).same.1
        obtain ⟨hentries, hlast⟩ := hconnections.turn a.listener socket
        rw [hconnections.moves, hentries, hlast.progress, hlast.written]
        have hturned := h.turned he he' hid hid' hlast.endpoint
        split
        · exact (hturned _ _ _ _).trans ((hturned _ _ _ _).alike.windUp (endpoint?_turned he _ _ _ _ _)
            (endpoint?_turned he' _ _ _ _ _) hlast.endpoint a.listener _)
        · exact hturned _ _ _ _
      · exact h.stay

/-! ### Time -/

theorem Alike.idles (h : Alike id f g) (now : Nat) : g.idles id now = f.idles id now := by
  unfold Factory.idles
  rcases h.attempts with ⟨ha, hb⟩ | ⟨a, b, ha, hb, hbare⟩
  · rw [ha, hb]
  · rw [ha, hb, Option.any_some, Option.any_some, part_of_bare hbare Attempt.watchdog fun _ => rfl,
      part_of_bare hbare Attempt.channel fun _ => rfl]

theorem Alike.look (h : Alike id f g) (now : Nat) : Together id f g (f.look id now) (g.look id now) := by
  have hsame := h.idles now
  cases hidles : f.idles id now with
  | true =>
      rw [look_of_idles hidles, look_of_idles (hsame.trans hidles)]
      exact h.close
  | false => exact h.plans (plans_look hidles) (plans_look (hsame.trans hidles))

/-! ### All steps -/

/-- A callback that is registered has to do with its own session only. -/
def Event.isOwn : Event → Bool
  | .onComplete _ callback => callback.isOwn
  | _ => true

/-- The steps of one attempt: what happens to it, and the looks of its watchdog. -/
inductive StepOf (id : ChannelId) : (Factory codec → Factory codec) → Prop
  | event {e : Event} (hid : e.attempt? = some id) (hown : e.isOwn = true) : StepOf id (·.after e)
  | look (now : Nat) : StepOf id (·.look id now)

variable {step step' : Factory codec → Factory codec}

theorem StepOf.together (hstep : StepOf id step) (h : Alike id f g) (hmodest : f.Modest id) :
    Together id f g (step f) (step g) := by
  cases hstep with
  | look now => exact h.look now
  | @event e hid hown =>
      cases e with
      | onComplete _ callback =>
          obtain rfl := Option.some.inj hid
          exact h.onComplete hown
      | call _ c =>
          obtain rfl := Option.some.inj hid
          exact (h.call c).2
      | cancel =>
          obtain rfl := Option.some.inj hid
          exact h.cancel
      | close =>
          obtain rfl := Option.some.inj hid
          exact h.close
      | noticeClosed =>
          obtain rfl := Option.some.inj hid
          exact h.noticeClosed
      | dialed _ answer =>
          obtain rfl := Option.some.inj hid
          exact h.dialed answer
      | establish _ engine =>
          obtain rfl := Option.some.inj hid
          exact h.establish engine hmodest
      | secured _ handshake =>
          obtain rfl := Option.some.inj hid
          exact h.secured handshake hmodest
      | turn _ socket =>
          obtain rfl := Option.some.inj hid
          exact h.turn socket
      | newClient | configure | start | markStopping | retire | takeDown | stopConnector | markStopped
        | stop | drop | pass | fire => cases hid

theorem StepOf.spares (hstep : StepOf id step) (h : f.Regular) (hmodest : f.Modest id) :
    Spares id f (step f) :=
  (hstep.together (alike_self h id) hmodest).spares.1

theorem StepOf.regular (hstep : StepOf id step) (h : f.Regular) (hmodest : f.Modest id) :
    (step f).Regular :=
  (hstep.together (alike_self h id) hmodest).alike.regular.1

theorem Leaves.modest (h : Leaves id f f') (hmodest : f.Modest id) : f'.Modest id := by
  intro a ha
  rw [h.attempt] at ha
  exact hmodest a ha

/-- Whatever another attempt has done before, a step of an attempt makes the same of its share. -/
theorem StepOf.share_after (hstep : StepOf id step) (hother : StepOf other step') (hne : id ≠ other)
    (h : f.Regular) (hmodest : f.Modest id) (hmodest' : f.Modest other) :
    (step (step' f)).share id = (step f).share id := by
  have hspared := hother.spares h hmodest'
  have halike : Alike id f (step' f) :=
    ⟨⟨h, hother.regular h hmodest'⟩, hspared.common, (hspared.others id hne).share⟩
  exact (hstep.together halike hmodest).alike.share

/-- Steps of two attempts commute. -/
theorem StepOf.commute (hstep : StepOf id step) (hother : StepOf other step') (hne : id ≠ other)
    (h : f.Regular) (hmodest : f.Modest id) (hmodest' : f.Modest other) :
    (step' (step f)).common = (step (step' f)).common ∧
      ∀ any, (step' (step f)).share any = (step (step' f)).share any := by
  have hfirst := hstep.spares h hmodest
  have hfirst' := hother.spares h hmodest'
  have hlast : Spares other (step f) (step' (step f)) :=
    hother.spares (hstep.regular h hmodest) ((hfirst.others other hne.symm).modest hmodest')
  have hlast' : Spares id (step' f) (step (step' f)) :=
    hstep.spares (hother.regular h hmodest') ((hfirst'.others id hne).modest hmodest)
  refine ⟨?_, fun any => ?_⟩
  · rw [hlast.common, hfirst.common, hlast'.common, hfirst'.common]
  · by_cases hid : any = id
    · subst hid
      rw [(hlast.others any hne).share, hstep.share_after hother hne h hmodest hmodest']
    · by_cases hid' : any = other
      · subst hid'
        rw [(hlast'.others any hne.symm).share, hother.share_after hstep hne.symm h hmodest' hmodest]
      · rw [(hlast.others any hid').share, (hfirst.others any hid).share, (hlast'.others any hid).share,
          (hfirst'.others any hid').share]

/-- Whose watchdog looks next in a run. -/
def looker? (f : Factory codec) (run : Nat) : Option ChannelId :=
  (f.schedulers[run]?).bind fun s => (s.next? s.now).map (·.1.body)

theorem leaves_fire (h : f.Regular) {run : Nat} (hother : f.looker? run ≠ some other) :
    Leaves other f (f.fire run) := by
  have hstay : Leaves other f f := leaves_of_same rfl rfl rfl rfl
  unfold fire
  split
  · exact hstay
  · rename_i s hs
    split
    · exact hstay
    · rename_i timer s' hnext
      have hlooker : f.looker? run = some timer.body := by
        rw [looker?, hs, Option.bind_some, hnext]
        rfl
      have hset : Leaves other f { f with schedulers := f.schedulers.set run s' } :=
        leaves_of_same rfl rfl rfl rfl
      have hregular : Regular { f with schedulers := f.schedulers.set run s' } :=
        h.of_same rfl rfl rfl rfl
      have hlooked := ((alike_self hregular timer.body).look s'.now).spares.1
      refine hset.trans (hlooked.others other ?_)
      rintro rfl
      exact hother hlooker

/-- **Attempts keep apart.** In every state that a new factory can come to, with any number of attempts:
whatever happens to one of them, a failure at any stage included, and whenever its watchdog looks, as long
as its callbacks have to do with its own session only, every other attempt is left as it is, with its
promise, its channel and its session, and so are its places in the books, its handler and whether its
session is counted. A timer that goes off does nothing to anybody but the attempt that set it. Two such
steps of different attempts may be taken in either order: the shares of all attempts come out the same.
An attempt's own session goes by no number here, as sessions are numbered in the order of their making,
and neither the room in buffers nor the count of sessions that a callback has seen is part of a share. -/
theorem attempts_keep_apart {f₀ : Factory codec} {accepted : List ChannelId}
    (hattempts : f₀.attempts = []) (hsessions : f₀.sessions = []) (hidle : f₀.pool.idle = [])
    (h : Course f₀ accepted f) :
    (∀ id step, StepOf id step → f.Modest id → Spares id f (step f)) ∧
    (∀ run other, f.looker? run ≠ some other → Leaves other f (f.fire run)) ∧
    ∀ id other step step', id ≠ other → StepOf id step → StepOf other step' → f.Modest id → f.Modest other →
      (step' (step f)).common = (step (step' f)).common ∧
        ∀ any, (step' (step f)).share any = (step (step' f)).share any := by
  have hregular : f.Regular := h.regular (regular_new hattempts hsessions hidle)
  exact ⟨fun _ _ hstep => hstep.spares hregular, fun _ _ => leaves_fire hregular,
    fun _ _ _ _ hne hstep hstep' => hstep.commute hstep' hne hregular⟩

/-- Both of two attempts are connected. -/
def neighbours : Factory .identity :=
  (registeredTwice.after (.dialed 0 (.ok host))).after (.dialed 1 (.ok host))

theorem neighbours_keep_apart : Course unused [0, 1] neighbours ∧
    neighbours.Modest 0 ∧ neighbours.Modest 1 ∧
    Leaves 1 neighbours (neighbours.after (.establish 0 (.ok ()))) ∧
    ∀ any, ((neighbours.after (.establish 0 (.ok ()))).after (.establish 1 (.ok ()))).share any =
      ((neighbours.after (.establish 1 (.ok ()))).after (.establish 0 (.ok ()))).share any := by
  have hfirst : started.register 0 0 host .silent = (.ok (), registeredOnce) := rfl
  have hsecond : registeredOnce.register 0 0 host .silent = (.ok (), registeredTwice) := rfl
  have hstart := (Course.refl (f := unused)).step (.event (.start (.ok ())))
  have hcourse : Course unused [0, 1] neighbours :=
    (((hstart.step (.registered hfirst)).step (.registered hsecond)).step
      (.event (.dialed 0 (.ok host)))).step (.event (.dialed 1 (.ok host)))
  have hmodest : ∀ id, neighbours.Modest id := by
    intro id a ha callback hcallback
    have hnone : neighbours.attempts.all (·.promise.callbacks.isEmpty) = true := rfl
    rw [List.isEmpty_iff.mp (List.all_eq_true.mp hnone a (List.mem_of_getElem? ha))] at hcallback
    cases hcallback
  have hstep : ∀ id, StepOf id fun f : Factory .identity => f.after (.establish id (.ok ())) :=
    fun _ => .event rfl rfl
  obtain ⟨hspares, -, hcommute⟩ := attempts_keep_apart rfl rfl rfl hcourse
  exact ⟨hcourse, hmodest 0, hmodest 1, (hspares 0 _ (hstep 0) (hmodest 0)).others 1 (by decide),
    (hcommute 0 1 _ _ (by decide) (hstep 0) (hstep 1) (hmodest 0) (hmodest 1)).2⟩

/-- The number of a session tells who came first. -/
example : ((neighbours.after (.establish 0 (.ok ()))).after (.establish 1 (.ok ()))).sessionOf 0 = some 1 ∧
    ((neighbours.after (.establish 1 (.ok ()))).after (.establish 0 (.ok ()))).sessionOf 0 = some 2 :=
  ⟨rfl, rfl⟩

end Factory

end SpdySessions
