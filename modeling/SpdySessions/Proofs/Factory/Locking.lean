import SpdySessions.Proofs.Factory.Accepted
import SpdySessions.Proofs.Factory.Pieces

/-! What call chains do about locks, whatever they begin with and whoever waits. Where nobody waits, a chain
does what the function of the factory does: what the rest of it is going to make of the factory stays the
same from step to step. -/

namespace SpdySessions.Chain

variable {codec : HeaderCodec}

/-! ### What a chain begins with -/

/-- What the factory's own function makes of it. -/
def Operation.after (f : Factory codec) : Operation → Factory codec
  | .request r => r.after f
  | .deliver id => f.construct id
  | .abort id cause => f.abort id cause
  | .finish id => f.finish id
  | .leave session => (f.sessionClosed session).2
  | .echo id ping => sendBack f id ping
  | .giveBack buffer => { f with pool := f.pool.release buffer }
  | .drop => f.drop.2

/-- Nobody registers a callback. -/
def Operation.IsAlone : Operation → Prop
  | .request (.onComplete _ _ _) => False
  | _ => True

/-- A request that registers a callback is as tame as the callback. -/
def Operation.isTame : Operation → Bool
  | .request r => r.isTame false
  | _ => true

theorem Operation.IsAlone.isTame {o : Operation} (h : o.IsAlone) : o.isTame = true := by
  cases o with
  | request r =>
      cases r with
      | onComplete id delivered refused => exact h.elim
      | _ => rfl
  | _ => rfl

section

variable {calm : Prop} {f : Factory codec} {waiting : List Waiter} {o : Operation} {c c' : Chain codec}
  {id : ChannelId}

/-- The promises of the factory have no callbacks of their own. -/
def Unattended (f : Factory codec) : Prop :=
  ∀ a ∈ f.attempts, a.promise.callbacks = []

theorem after_deliver (h : Unattended f) (id : ChannelId) : (Task.deliver id).after f = f.construct id := by
  unfold Factory.construct
  simp only [Task.after]
  cases ha : f.attempts[id]? with
  | none => rfl
  | some a =>
      have hattempts :=
        Factory.attempts_sessionOpened { f with sessionsMade := (f.newSession a).id } (f.newSession a).id
      have hcallbacks : a.promise.callbacks = [] := h a (List.mem_of_getElem? ha)
      simp only [entered, Factory.openSession]
      generalize Factory.sessionOpened { f with sessionsMade := (f.newSession a).id } (f.newSession a).id =
        opened at hattempts ⊢
      obtain ⟨_ | _, f'⟩ := opened
      · rfl
      · have ha' : f'.attempts[id]? = some a := (congrArg (·[id]?) hattempts).trans ha
        simp only [handed, ha', Factory.settle?_eq, hcallbacks]
        cases a.promise.isDone <;> rfl

theorem after_tasks (h : Unattended f) (o : Operation) :
    afterAll (o.before f) (o.tasks f) = o.after f := by
  cases o with
  | deliver id => exact after_deliver h id
  | echo id ping =>
      simp only [Operation.before, Operation.tasks, Operation.after]
      cases he : f.endpoint? id with
      | none => simp [sendBack, he]
      | some e =>
          refine after_generating fun fault hfault => ?_
          simp only [sendBack, he]
          exact (pool_write_of_error hfault).trans (Factory.pool_endpoint? he)
  | leave session => simp [Operation.before, Operation.tasks, Operation.after, Task.after]
  | giveBack buffer => simp [Operation.before, Operation.tasks, Operation.after, Task.after]
  | drop =>
      simp [Operation.before, Operation.tasks, Operation.after, Task.after, afterAll_map, Factory.drop,
        Factory.takeAllDown]
  | _ => rfl

/-- Nobody waits or comes to wait. -/
structure IsAlone (c : Chain codec) : Prop where
  waiting : c.waiting = []
  todo : Each Task.IsAlone c.todo

theorem IsAlone.step (h : c.IsAlone) (hstep : c.step = some c') :
    c'.IsAlone ∧ afterAll c'.factory c'.todo = afterAll c.factory c.todo := by
  obtain ⟨t, rest, htodo, hfactory, hwaiting, htodo'⟩ := todo_of_step hstep
  obtain ⟨hnone, hall⟩ := h
  rw [htodo, each_cons] at hall
  rw [hnone] at hfactory hwaiting htodo'
  obtain ⟨hnone', hfirst⟩ := alone_unfold (f := c.factory) hall.1
  refine ⟨⟨hwaiting.trans hnone', ?_⟩, ?_⟩
  · rw [htodo', each_append]
    exact ⟨hfirst, hall.2⟩
  · rw [htodo, htodo', hfactory, afterAll_append, after_unfold hall.1, afterAll_cons]

theorem Goes.after (hgoes : Goes c c') (h : c.IsAlone) :
    afterAll c'.factory c'.todo = afterAll c.factory c.todo := by
  have hboth : c'.IsAlone ∧ afterAll c'.factory c'.todo = afterAll c.factory c.todo := by
    induction hgoes with
    | refl => exact ⟨h, rfl⟩
    | tail _ hstep ih => exact (ih.1.step hstep).imp_right fun heq => heq.trans ih.2
  exact hboth.2

theorem isAlone_enter (h : o.IsAlone) : (enter f [] o).IsAlone := by
  refine ⟨rfl, ?_⟩
  cases o with
  | request r =>
      cases r with
      | onComplete id delivered refused => exact h.elim
      | _ => simp [enter, Operation.tasks, Task.IsAlone]
  | echo id ping =>
      simp only [enter, Operation.tasks]
      split <;> simp [(plain_generating _ _ _ _).alone]
  | _ => simp [enter, Operation.tasks, Task.IsAlone]

theorem sound_enter (hwaits : Waits calm waiting) (htame : calm → o.isTame = true) :
    (enter f waiting o).Sound calm := by
  refine ⟨?_, hwaits⟩
  cases o with
  | request r => exact .task (.request (Or.inl rfl) htame) .nil
  | deliver id => exact .task .deliver .nil
  | abort id cause => exact .task .abort .nil
  | finish id => exact .task .finish .nil
  | leave session =>
      refine leads_within List.not_mem_nil (leads_act fun f => ?_)
      exact guarded_sessionClosed List.mem_cons_self f session
  | echo id ping =>
      simp only [enter, Operation.tasks]
      split
      · exact .nil
      · exact leads_generating (by simp) (writes_sendBack id ping) _ _
  | giveBack buffer =>
      exact leads_within List.not_mem_nil (leads_act fun f => guarded_pool List.mem_cons_self _)
  | drop => exact leads_map _ fun component => .task (.takeDown (Or.inl rfl)) .nil

end

/-! ### Locks -/

/-- What an operation does about locks, whatever callbacks wait. -/
structure Locking (f : Factory codec) (waiting : List Waiter) (o : Operation) : Prop where
  /-- A lock that is asked for while it is held is that of the lifecycle, and a start or a stop asks for
  it that a callback has come to within a stop. -/
  again {c : Chain codec} {l : Lock} : Goes (enter f waiting o) c → c.asks? = some l → l ∈ c.held →
    c.AsksAgain
  /-- Whatever a step changes, its lock is held: of the factory, and of those who wait for a promise. -/
  guarded {c c' : Chain codec} : Goes (enter f waiting o) c → c.step = some c' →
    Guarded c.held c.factory c'.factory ∧
      ∀ id, .slot id ∉ c.held → c'.waiting.filter (·.id = id) = c.waiting.filter (·.id = id)
  /-- A callback runs while nothing is held, or nothing but the lock of a stop. -/
  callback {c : Chain codec} {r : Request} {rest : List (Task codec)} : Goes (enter f waiting o) c →
    c.todo = .request r :: rest → c.held = [] ∨ c.held = [.lifecycle]
  /-- A start or a stop that a callback comes to then waits for ever. -/
  waits {c : Chain codec} {r : Request} {rest : List (Task codec)} : Goes (enter f waiting o) c →
    c.todo = .request r :: rest → c.held = [.lifecycle] →
    (r = .stop ∨ ∃ executor, r = .start executor) → ∃ c', c.step = some c' ∧ c'.AsksAgain ∧ c'.step = none
  /-- A chain comes back and has given everything back, unless it comes to that. -/
  ends : ∃ c, Goes (enter f waiting o) c ∧ c.step = none ∧ (c.todo = [] ∧ c.held = [] ∨ c.AsksAgain)
  /-- It does come back if nothing that is to be done during a stop is a start or a stop. -/
  returns : o.isTame = true → (∀ w ∈ waiting, w.isTame = true) →
    (enter f waiting o).AsksOnce ∧ ∃ c, Goes (enter f waiting o) c ∧ c.todo = [] ∧ c.held = []
  /-- If nobody waits, it has done then what the factory's own function does. -/
  alone : waiting = [] → o.IsAlone → Unattended f →
    ∃ c, Goes (enter f waiting o) c ∧ c.todo = [] ∧ c.held = [] ∧ c.factory = o.after f

/-- A start or a stop within a stop has one more step. -/
theorem step_of_request {c : Chain codec} {r : Request} {rest : List (Task codec)}
    (htodo : c.todo = .request r :: rest) (hheld : c.held = [.lifecycle])
    (hr : r = .stop ∨ ∃ executor, r = .start executor) : ∃ c', c.step = some c' ∧ c'.AsksAgain := by
  simp only [Chain.step, htodo, unfold]
  refine ⟨_, rfl, hheld, ?_⟩
  rcases hr with rfl | ⟨executor, rfl⟩
  · exact ⟨.halt, .release .lifecycle :: rest, rfl, Or.inl rfl⟩
  · exact ⟨.begin executor, .release .lifecycle :: rest, rfl, Or.inr ⟨executor, rfl⟩⟩

/-- Whatever a chain begins with and whoever waits: no lock is asked for twice but that of the lifecycle,
and that only by a start or a stop within a stop. -/
theorem asks_again_only_within_stop (f : Factory codec) (waiting : List Waiter) (o : Operation) :
    Locking f waiting o := by
  have hsound : (enter f waiting o).Sound False := sound_enter nofun nofun
  obtain ⟨last, hlast, hstop⟩ := exists_end (enter f waiting o)
  refine ⟨?_, ?_, ?_, ?_, ?_, ?_, ?_⟩
  · intro c l hgoes hasks hheld
    exact ((hgoes.sound hsound).asksAgain hasks hheld).2
  · intro c c' hgoes hstep
    exact ((hgoes.sound hsound).step hstep).2
  · intro c r rest hgoes htodo
    exact (hgoes.sound hsound).request htodo
  · intro c r rest _ htodo hheld hr
    obtain ⟨c', hstep, hagain⟩ := step_of_request htodo hheld hr
    exact ⟨c', hstep, hagain, hagain.step⟩
  · exact ⟨last, hlast, hstop, ((hlast.sound hsound).over hstop).imp_right And.right⟩
  · intro htame hwaits
    have hcalm : (enter f waiting o).Sound True := sound_enter (fun _ => hwaits) fun _ => htame
    refine ⟨fun c l hgoes hasks hheld => ?_, last, hlast, ?_⟩
    · exact ((hgoes.sound hcalm).asksAgain hasks hheld).1 trivial
    · exact ((hlast.sound hcalm).over hstop).resolve_right fun h => h.1 trivial
  · rintro rfl halone hunattended
    have hcalm : (enter f [] o).Sound True := sound_enter nofun fun _ => halone.isTame
    obtain ⟨htodo, hheld⟩ := ((hlast.sound hcalm).over hstop).resolve_right fun h => h.1 trivial
    refine ⟨last, hlast, htodo, hheld, ?_⟩
    have hafter := hlast.after (isAlone_enter halone)
    rw [htodo] at hafter
    exact hafter.trans (after_tasks hunattended o)

open Factory in
/-- Starts a factory, connects, registers a callback that asks for something if there is no session, and
stops the factory while the attempt is pending. -/
def interrupted (r : Request) : Chain .identity :=
  { factory := unused
    todo := [.start (.ok ()), .connect 0 host .silent (.ok ()), .onComplete 0 [] [r], .stop].map .request }

theorem not_asksOnce_interrupted :
    ¬(interrupted .stop).AsksOnce ∧ ¬(interrupted (.start (.ok ()))).AsksOnce :=
  ⟨fun h => h _ .lifecycle (goes_advance 100 _) (by decide +kernel) (by decide +kernel),
    fun h => h _ .lifecycle (goes_advance 100 _) (by decide +kernel) (by decide +kernel)⟩

end SpdySessions.Chain
