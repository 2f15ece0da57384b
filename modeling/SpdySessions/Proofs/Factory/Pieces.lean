import SpdySessions.Proofs.Factory.Regular
import SpdySessions.Proofs.Factory.Terms
import SpdySessions.Proofs.Factory.Unwinding

/-! What the pieces come to that a chain does. Where nobody waits, the pieces of a task make of the factory
what its own function makes of it at once. -/

namespace SpdySessions.Chain

variable {codec : HeaderCodec}

/-! ### What tasks make of a factory -/

/-- What a request makes of the factory if it tells nobody. -/
def Request.after (f : Factory codec) : Request → Factory codec
  | .start executor => (f.start executor).2
  | .stop => f.stop.2
  | .connect client peer listener socket => (f.connect client peer listener socket).2
  | .cancel id => (f.cancel id).2
  | .call id c => (f.call id c).2
  | _ => f

/-- An attempt is handed its session, unless its promise has an outcome. -/
def handed (f : Factory codec) (id : ChannelId) (session : Session codec) : Factory codec :=
  match f.attempts[id]? with
  | none => f
  | some a =>
      match a.promise.settle? (.completed session.id) with
      | none => (f.sessionClosed session.id).2.abort id .cancelled
      | some (_, promise) =>
          ((f.modify id fun a' => { a' with
            promise := promise, link := some ⟨session, .fresh codec⟩ }).modifyConnector a.run
              (·.markOpened id)).modify id fun a => { a with stage := .carrying .running }

/-- A session is entered and then handed over, unless the factory refuses it. -/
def entered (f : Factory codec) (id : ChannelId) (session : Session codec) : Factory codec :=
  match f.sessionOpened session.id with
  | (false, f) => f.abort id .notRunning
  | (true, f) => handed f id session

/-- A connect whose socket could be made is registered, or fails. -/
def enrolled (f : Factory codec) (run client : Nat) (peer : Address) (listener : Session.Listener) :
    Factory codec :=
  match f.register run client peer listener with
  | (.error _, f') => (f'.close f.attempts.length).2
  | (.ok (), f') => f'

/-- What a task makes of the factory if nobody is told. -/
def Task.after (f : Factory codec) : Task codec → Factory codec
  | .acquire _ => f
  | .release _ => f
  | .act change => change f
  | .request r => r.after f
  | .begin executor => (f.start executor).2
  | .halt => f.stop.2
  | .retire => f.retire
  | .farewell session => f.farewell session
  | .dismantle => f.takeAllDown.2
  | .takeDown component => f.takeDown component
  | .closeBooks run => f.stopConnector run
  | .enroll run client peer listener => enrolled f run client peer listener
  | .settle id outcome => (f.refuse id outcome).2
  | .decide id outcome => (f.refuse id outcome).2
  | .enlist _ => f
  | .call id c => (f.call id c).2
  | .deliver id =>
      match f.attempts[id]? with
      | none => f
      | some a => entered { f with sessionsMade := (f.newSession a).id } id (f.newSession a)
  | .enter id session => entered f id session
  | .hand id session => handed f id session
  | .abort id cause => f.abort id cause
  | .finish id => f.finish id

def afterAll (f : Factory codec) (tasks : List (Task codec)) : Factory codec :=
  tasks.foldl Task.after f

/-- Nobody comes to wait. -/
def Task.IsAlone : Task codec → Prop
  | .enlist _ => False
  | .request (.onComplete _ _ _) => False
  | _ => True

section

variable {t : Task codec} {ts ts' : List (Task codec)} {l : Lock} {id : ChannelId} {run : Nat}
  {e : Endpoint codec} {frame : Frame} {f : Factory codec}

@[simp] theorem afterAll_nil : afterAll f [] = f := rfl

@[simp] theorem afterAll_cons : afterAll f (t :: ts) = afterAll (t.after f) ts := rfl

@[simp] theorem afterAll_append : afterAll f (ts ++ ts') = afterAll (afterAll f ts) ts' :=
  List.foldl_append

@[simp] theorem afterAll_within : afterAll f (within l ts) = afterAll f ts := by
  simp [within, Task.after]

theorem modifyConnector_modifyConnector (f : Factory codec) (run : Nat) (g h : Connector → Connector) :
    (f.modifyConnector run g).modifyConnector run h = f.modifyConnector run (h ∘ g) := by
  simp only [Factory.modifyConnector, List.modify_modify_eq]

theorem modifyConnector_eq_set {c : Connector} (hc : f.connectors[run]? = some c)
    (g : Connector → Connector) :
    f.modifyConnector run g = { f with connectors := f.connectors.set run (g c) } := by
  simp only [Factory.modifyConnector, List.modify_eq_set_getElem?, hc, Option.map_eq_map,
    Option.map_some, Option.getD_some]

@[simp] theorem afterAll_inChannels (change : List ChannelId → List ChannelId) :
    afterAll f (inChannels run change) =
      f.modifyConnector run fun c => { c with channels := change c.channels } := by
  simp [inChannels, Task.after]

@[simp] theorem afterAll_inPending (change : List ChannelId → List ChannelId) :
    afterAll f (inPending run change) =
      f.modifyConnector run fun c => { c with pending := change c.pending } := by
  simp [inPending, Task.after]

@[simp] theorem afterAll_inOpened (change : List ChannelId → List ChannelId) :
    afterAll f (inOpened run change) =
      f.modifyConnector run fun c => { c with opened := change c.opened } := by
  simp [inOpened, Task.after]

@[simp] theorem afterAll_forgetting :
    afterAll f (forgetting run id) = f.modifyConnector run (·.forget id) := by
  simp only [forgetting, afterAll_append, afterAll_inChannels, afterAll_inPending, afterAll_inOpened,
    modifyConnector_modifyConnector]
  rfl

theorem afterAll_map {α : Type} (g : α → Task codec) (xs : List α) :
    afterAll f (xs.map g) = xs.foldl (fun f x => (g x).after f) f :=
  List.foldl_map

/-! ### Calls -/

theorem pool_write_of_error {fault : Fault}
    (h : (e.session.writer.write e.pool e.session.version frame).1 = .error fault) :
    (e.write frame).2.pool = e.pool := by
  unfold FrameWriter.write at h
  unfold Endpoint.write FrameWriter.write
  dsimp only at h ⊢
  split at h
  · rename_i hlarge
    simp [hlarge]
  · cases h

theorem pool_enqueue (e : Endpoint codec) (item : Outbound) : (e.enqueue item).2.pool = e.pool := by
  unfold Endpoint.enqueue
  split <;> rfl

/-- Nothing is borrowed for a frame that is too large. -/
theorem pool_call_of_error {c : Session.Call} {fault : Fault} (hframe : frameOf e.session c = some frame)
    (h : (e.session.writer.write e.pool e.session.version frame).1 = .error fault) :
    (e.call c).2.pool = e.pool := by
  cases c with
  | ping =>
      obtain rfl := Option.some.inj hframe
      let e' : Endpoint codec := { e with session := { e.session with nextPing := e.session.nextPing + 2 } }
      exact pool_write_of_error (e := e') h
  | goAway =>
      simp only [frameOf] at hframe
      split at hframe
      · cases hframe
      · rename_i hfirst
        obtain rfl := Option.some.inj hframe
        let e' : Endpoint codec := { e with session := { e.session with goAwaySent := true } }
        have hwrite : (e'.write (.goAway 0 0)).2.pool = e.pool := pool_write_of_error (e := e') h
        simp only [Endpoint.call, Endpoint.goAway, if_neg hfirst]
        exact (pool_enqueue _ _).trans hwrite
  | settings clear entries =>
      obtain rfl := Option.some.inj hframe
      exact pool_write_of_error h
  | close => cases hframe

theorem modify_congr {g h : Attempt codec → Attempt codec}
    (heq : ∀ a, f.attempts[id]? = some a → g a = h a) : f.modify id g = f.modify id h := by
  unfold Factory.modify
  rw [List.modify_eq_set_getElem?, List.modify_eq_set_getElem?]
  cases ha : f.attempts[id]? with
  | none => rfl
  | some a => simp [heq a ha]

theorem modify_of_same {g : Attempt codec → Attempt codec}
    (heq : ∀ a, f.attempts[id]? = some a → g a = a) : f.modify id g = f := by
  rw [modify_congr (h := fun a => a) heq]
  exact congrArg (fun attempts => { f with attempts := attempts }) (List.modify_id id f.attempts)

/-- A call that writes nothing closes the channel, or does nothing. -/
theorem call_of_no_frame {c : Session.Call} (he : f.endpoint? id = some e)
    (hframe : frameOf e.session c = none) :
    (f.call id c).2 = if c = .close then (f.close id).2 else f := by
  obtain ⟨a, ha, hlink, hopen⟩ := Factory.endpoint?_eq_some he
  have hpool : e.pool = f.pool := Factory.pool_endpoint? he
  simp only [Factory.call, he]
  cases c with
  | ping => cases hframe
  | settings clear entries => cases hframe
  | goAway =>
      have hsent : e.session.goAwaySent = true := by
        simp only [frameOf] at hframe
        split at hframe
        · assumption
        · cases hframe
      simp only [Endpoint.call, Endpoint.goAway, hsent, if_true, Factory.setEndpoint, hpool]
      refine modify_of_same fun b hb => ?_
      obtain rfl := Option.some.inj (ha.symm.trans hb)
      rw [← hlink, ← hopen]
  | close =>
      simp only [Endpoint.call, Factory.setEndpoint, hpool, if_true]
      refine modify_congr fun b hb => ?_
      obtain rfl := Option.some.inj (ha.symm.trans hb)
      rw [← hlink]
      rfl

theorem refuse_of_none {outcome : Outcome SessionId}
    (h : (f.attempts[id]?).bind (·.promise.settle? outcome) = none) : (f.refuse id outcome).2 = f := by
  unfold Factory.refuse
  split
  · rfl
  · rename_i a ha
    rw [ha, Option.bind_some] at h
    rw [h]

/-! ### Tasks of several pieces -/

theorem start_of_error {executor : Except Fault Unit} {fault : Fault} (hrunning : f.isRunning = false)
    (h : (f.start executor).1 = .error fault) : (f.start executor).2 = f.markStopped := by
  rcases Factory.start_cases f executor with ⟨hup, -⟩ | ⟨cause, -, -, -, hfails⟩ | ⟨-, -, hstarts⟩
  · cases hup.symm.trans hrunning
  · rw [hfails]
    rfl
  · rw [hstarts] at h
    cases h

theorem modifyConnector_stop (f : Factory codec) (run : Nat) :
    (((f.modifyConnector run fun c => { c with running := false }).modifyConnector run
      fun c => { c with pending := [] }).modifyConnector run
      fun c => { c with channels := [] }).modifyConnector run (fun c => { c with opened := [] }) =
      f.modifyConnector run Connector.stop := by
  simp only [modifyConnector_modifyConnector]
  rfl

theorem close_append (f : Factory codec) (connectors : List Connector) (a : Attempt codec) :
    (Factory.close { f with attempts := f.attempts ++ [a], connectors := connectors } f.attempts.length).2 =
      { f with attempts := f.attempts ++ [a.close], connectors := connectors } := by
  simp [Factory.close, Factory.modify, List.modify_eq_take_cons_drop]

theorem after_enroll (run client : Nat) (peer : Address) (listener : Session.Listener) :
    afterAll f (unfold f [] (.enroll run client peer listener)).2.2 =
      enrolled f run client peer listener := by
  simp only [unfold, enrolled, Factory.register]
  cases hc : f.connectors[run]? with
  | none => exact (close_append f f.connectors _).symm
  | some c =>
      obtain ⟨running, attended, channels, pending, opened⟩ := c
      cases running with
      | false =>
          obtain ⟨hlt, hget⟩ := List.getElem?_eq_some_iff.mp hc
          have hsame : f.connectors.set run ⟨false, attended, channels, pending, opened⟩ = f.connectors :=
            hget ▸ List.set_getElem_self hlt
          simp only [Option.filter, Bool.false_eq_true, if_false, Connector.register, hsame]
          exact (close_append f f.connectors _).symm
      | true =>
          -- The books are entered one after the other; together they are what `register` puts back.
          simp only [Option.filter, if_true, afterAll_append, afterAll_inChannels, afterAll_inPending,
            modifyConnector_modifyConnector, Connector.register]
          cases attended with
          | false =>
              simp only [Bool.false_eq_true, if_false, afterAll_append, afterAll_forgetting,
                modifyConnector_modifyConnector, afterAll_cons, afterAll_nil, Task.after]
              rw [modifyConnector_eq_set hc, close_append]
              rfl
          | true =>
              simp only [if_true, modifyConnector_eq_set hc, afterAll_cons, afterAll_nil, Task.after]
              rfl

theorem after_finish (id : ChannelId) : afterAll f (unfold f [] (.finish id)).2.2 = f.finish id := by
  simp only [unfold, Factory.finish]
  cases ha : f.attempts[id]? with
  | none => simp [ha, Task.after, Factory.close, Factory.modify]
  | some a =>
      have ha' : (f.attempts.modify id Attempt.close)[id]? = some a.close := by
        simp [ha]
      simp only [Option.map_some, Option.getD_some, afterAll_cons, afterAll_append, afterAll_forgetting,
        afterAll_nil, Task.after, Factory.close, Factory.modify, ha']
      rfl

theorem after_generating {change : Factory codec → Factory codec}
    (hpool : ∀ fault, (e.session.writer.write e.pool e.session.version frame).1 = .error fault →
      (change f).pool = f.pool) : afterAll f (generating id e frame change) = change f := by
  unfold generating
  split
  · simp [Task.after]
  · rename_i fault hfault
    simp [Task.after, ← hpool fault hfault]

theorem after_call (id : ChannelId) (c : Session.Call) :
    afterAll f (unfold f [] (.call id c)).2.2 = (f.call id c).2 := by
  simp only [unfold]
  split
  · rename_i hnone
    simp [Factory.call, hnone]
  · rename_i e he
    split
    · rename_i frame hframe
      refine after_generating fun fault hfault => ?_
      simp only [Factory.call, he]
      exact (pool_call_of_error hframe hfault).trans (Factory.pool_endpoint? he)
    · rename_i hframe
      rw [call_of_no_frame he hframe]
      split <;> simp [Task.after]

theorem after_request {r : Request} (h : (Task.request r : Task codec).IsAlone) :
    afterAll f (r.tasks f) = r.after f := by
  cases r with
  | connect client peer listener socket =>
      simp only [Request.tasks, Request.after, Factory.connect]
      cases f.isRunning with
      | false => rfl
      | true =>
          cases socket with
          | error fault => simp
          | ok _ =>
              simp only [if_true, afterAll_append, afterAll_within, afterAll_cons, afterAll_nil, Task.after,
                enrolled]
              rcases f.register f.latestRun client peer listener with ⟨_ | _, f'⟩ <;> rfl
  | cancel id => simp [Request.tasks, Task.after, Request.after, Factory.cancel]
  | onComplete id delivered refused => exact h.elim
  | _ => simp [Request.tasks, Task.after, Request.after]

theorem after_begin (executor : Except Fault Unit) :
    afterAll f (unfold f [] (.begin executor)).2.2 = (f.start executor).2 := by
  simp only [unfold]
  split
  · rename_i hrunning
    rw [Factory.start_of_running hrunning]
    rfl
  · rename_i hrunning
    split
    · rename_i fault hfault
      exact (start_of_error (Bool.eq_false_of_not_eq_true hrunning) hfault).symm
    · simp [Task.after]

theorem after_halt : afterAll (unfold f [] .halt).1 (unfold f [] .halt).2.2 = f.stop.2 := by
  simp only [unfold]
  split
  · rename_i hrunning
    simp [Factory.stop, hrunning, Task.after]
  · rename_i hrunning
    rw [Factory.stop_of_not_running (Bool.eq_false_of_not_eq_true hrunning)]
    rfl

theorem after_closeBooks (run : Nat) :
    afterAll f (unfold f [] (.closeBooks run)).2.2 = f.stopConnector run := by
  simp only [unfold, Factory.stopConnector]
  cases f.connectors[run]? with
  | none => rfl
  | some connector =>
      cases hrunning : connector.running with
      | false => simp [Option.filter, hrunning, Task.after]
      | true =>
          simp [Option.filter, hrunning, Task.after, afterAll_map, Factory.fail, modifyConnector_stop]

theorem after_hand (id : ChannelId) (session : Session codec) :
    afterAll (unfold f [] (.hand id session)).1 (unfold f [] (.hand id session)).2.2 =
      handed f id session := by
  simp only [unfold, handed]
  cases f.attempts[id]? with
  | none => rfl
  | some a =>
      dsimp only
      cases a.promise.settle? (.completed session.id) with
      | none => simp [Task.after]
      | some settled =>
          simp only [programsOf, List.filter_nil, List.flatMap_nil, afterAll_cons,
            afterAll_append, afterAll_inPending, afterAll_inOpened, modifyConnector_modifyConnector,
            afterAll_nil, Task.after]
          rfl

/-- What a task unfolds to makes of the factory what the task does. -/
theorem after_unfold (h : t.IsAlone) :
    afterAll (unfold f [] t).1 (unfold f [] t).2.2 = t.after f := by
  cases t with
  | acquire l => rfl
  | release l => rfl
  | act change => rfl
  | request r => exact after_request h
  | begin executor => exact after_begin executor
  | halt => exact after_halt
  | retire => simp [unfold, Task.after, afterAll_map, Factory.retire]
  | farewell session =>
      simp only [unfold, Task.after, Factory.farewell]
      cases f.holder? session <;> rfl
  | dismantle => simp [unfold, Task.after, afterAll_map, Factory.takeAllDown]
  | takeDown component =>
      obtain ⟨part, run⟩ := component
      cases part <;> rfl
  | closeBooks run => exact after_closeBooks run
  | enroll run client peer listener => exact after_enroll run client peer listener
  | settle id outcome => rfl
  | decide id outcome =>
      simp only [unfold, Task.after]
      split
      · rename_i hnone
        rw [refuse_of_none hnone]
        rfl
      · rfl
  | enlist w => exact h.elim
  | call id c => exact after_call id c
  | deliver id =>
      simp only [unfold, Task.after]
      cases f.attempts[id]? <;> rfl
  | enter id session =>
      simp only [unfold, Task.after, entered]
      rcases f.sessionOpened session.id with ⟨_ | _, f'⟩ <;> rfl
  | hand id session => exact after_hand id session
  | abort id cause => simp [unfold, Task.after, Factory.abort, Factory.fail]
  | finish id => exact after_finish id

theorem Each.alone (h : Each Task.IsPlain ts) : Each Task.IsAlone ts := by
  intro t ht
  have hplain := h t ht
  cases t with
  | request r => cases hplain
  | enlist w => cases hplain
  | _ => trivial

/-- And nobody comes to wait meanwhile. -/
theorem alone_unfold (h : t.IsAlone) :
    (unfold f [] t).2.1 = [] ∧ Each Task.IsAlone (unfold f [] t).2.2 := by
  cases t with
  | request r =>
      refine ⟨rfl, ?_⟩
      cases r with
      | connect client peer listener socket =>
          simp only [unfold, Request.tasks]
          split
          · cases socket <;> simp [Task.IsAlone]
          · simp
      | onComplete id delivered refused => exact h.elim
      | _ => simp [unfold, Request.tasks, Task.IsAlone]
  | enlist w => exact h.elim
  | farewell session =>
      refine ⟨rfl, ?_⟩
      cases hholder : f.holder? session <;> simp [unfold, hholder, Task.IsAlone]
  | finish id =>
      refine ⟨rfl, ?_⟩
      cases ha : f.attempts[id]? <;> simp [unfold, ha, (plain_forgetting _ _).alone, Task.IsAlone]
  | _ =>
      simp only [unfold]
      repeat' split
      all_goals simp [programsOf, (plain_inChannels _ _).alone, (plain_inPending _ _).alone,
        (plain_inOpened _ _).alone, (plain_forgetting _ _).alone, (plain_generating _ _ _ _).alone,
        Task.IsAlone]

end

end SpdySessions.Chain
