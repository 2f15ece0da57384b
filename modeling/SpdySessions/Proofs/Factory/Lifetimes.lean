import SpdySessions.Proofs.Factory.Accepted
import SpdySessions.Proofs.Factory.Beside
import SpdySessions.Proofs.Past

/-! The lifetimes of components. A start makes the components of a new run, and the next stop takes
them down, or whoever drops the factory. The induction is on the life of the factory; the invariant
counts: what has been taken down with what is held is what has been made, and nothing is made twice. -/

namespace SpdySessions.Factory

variable {codec : HeaderCodec} {f f' f₀ : Factory codec} {used : Nat → Prop} {answers : List Answer}
  {c c' : Component} {id : ChannelId}

def held (f : Factory codec) : List Component :=
  f.lifecycle.components.getD []

/-- The components of a run. -/
def componentsOf (f : Factory codec) (run : Nat) : List Component :=
  (Part.needed f.suppliedExecutor).map (⟨·, run⟩)

namespace Answer

def made : Answer → List Component
  | started (.ok made) => made
  | _ => []

def down : Answer → List Component
  | stopped down => down
  | _ => []

end Answer

/-- All components that starts have made. -/
def madeBy (answers : List Answer) : List Component :=
  answers.flatMap Answer.made

/-- All components that stops have taken down. -/
def downBy (answers : List Answer) : List Component :=
  answers.flatMap Answer.down

/-- A component works: an executor if somebody takes in what is registered, a scheduler and a connector
unless they have been stopped. -/
def isUp (f : Factory codec) (c : Component) : Bool :=
  match c.part with
  | .executor => (f.connectors[c.run]?).any (·.attended)
  | .scheduler => (f.schedulers[c.run]?).any (!·.stopped)
  | .connector => (f.connectors[c.run]?).any (·.running)

/-! ### What a start does -/

theorem start_of_fault (hrunning : f.isRunning = false) (hown : f.suppliedExecutor = false)
    (cause : Fault) :
    f.start (.error cause) =
      (.error cause, { f with lifecycle := { f.lifecycle with phase := .stopped } }) := by
  have hstopped : f.lifecycle.isRunning = false := hrunning
  simp [start, Lifecycle.start, Lifecycle.setUp, Lifecycle.markStarting, hstopped, hown]

theorem start_of_ok (hrunning : f.isRunning = false) {executor : Except Fault Unit}
    (hexecutor : f.suppliedExecutor = true ∨ executor = .ok ()) :
    f.start executor = (.ok (f.componentsOf f.lifecycle.runs), { f with
      lifecycle := ⟨.running, f.lifecycle.runs + 1, some (f.componentsOf f.lifecycle.runs)⟩
      connectors := f.connectors ++ [{}]
      schedulers := f.schedulers ++ [{}] }) := by
  have hstopped : f.lifecycle.isRunning = false := hrunning
  have hready : (if f.suppliedExecutor = true then .ok () else executor) = .ok () := by
    rcases hexecutor with hsupplied | rfl
    · rw [if_pos hsupplied]
    · exact ite_self _
  have hset : f.lifecycle.start f.suppliedExecutor executor =
      (.ok (f.componentsOf f.lifecycle.runs),
        ⟨.running, f.lifecycle.runs + 1, some (f.componentsOf f.lifecycle.runs)⟩) := by
    simp only [Lifecycle.start, Lifecycle.setUp, Lifecycle.markStarting, hstopped, hready]
    rfl
  have hsome : ∃ first rest, f.componentsOf f.lifecycle.runs = first :: rest := by
    unfold componentsOf Part.needed
    split <;> exact ⟨_, _, rfl⟩
  obtain ⟨first, rest, hcons⟩ := hsome
  rw [hcons] at hset ⊢
  simp only [start, hset]

/-- A start has nothing to do, or fails with the executor, or makes the components of a new run. -/
theorem start_cases (f : Factory codec) (executor : Except Fault Unit) :
    (f.isRunning = true ∧ f.start executor = (.ok [], f)) ∨
    (∃ cause, f.isRunning = false ∧ f.suppliedExecutor = false ∧ executor = .error cause ∧
      f.start executor =
        (.error cause, { f with lifecycle := { f.lifecycle with phase := .stopped } })) ∨
    (f.isRunning = false ∧ (f.suppliedExecutor = true ∨ executor = .ok ()) ∧
      f.start executor = (.ok (f.componentsOf f.lifecycle.runs), { f with
        lifecycle := ⟨.running, f.lifecycle.runs + 1, some (f.componentsOf f.lifecycle.runs)⟩
        connectors := f.connectors ++ [{}]
        schedulers := f.schedulers ++ [{}] })) := by
  rcases Bool.eq_false_or_eq_true f.isRunning with hrunning | hrunning
  · exact Or.inl ⟨hrunning, start_of_running hrunning executor⟩
  rcases Bool.eq_false_or_eq_true f.suppliedExecutor with hsupplied | hown
  · exact Or.inr (Or.inr ⟨hrunning, Or.inl hsupplied, start_of_ok hrunning (Or.inl hsupplied)⟩)
  cases executor with
  | error cause =>
      exact Or.inr (Or.inl ⟨cause, hrunning, hown, rfl, start_of_fault hrunning hown cause⟩)
  | ok _ => exact Or.inr (Or.inr ⟨hrunning, Or.inr rfl, start_of_ok hrunning (Or.inr rfl)⟩)

/-! ### What a stop does -/

theorem any_modify {α : Type} (xs : List α) (m n : Nat) (change : α → α) (p : α → Bool) :
    ((xs.modify m change)[n]?).any p =
      if m = n then (xs[n]?).any (p ∘ change) else (xs[n]?).any p := by
  rw [List.getElem?_modify]
  cases xs[n]? with
  | none => simp
  | some x =>
      split <;> rfl

/-- What is seen of the connectors when one of them has been stopped. -/
theorem connectors_stopConnector (f : Factory codec) (run n : Nat) {p : Connector → Bool}
    (hp : ∀ k : Connector, k.running = false → p k.stop = p k) :
    ((f.stopConnector run).connectors[n]?).any p =
      if run = n then (f.connectors[n]?).any (p ∘ Connector.stop) else (f.connectors[n]?).any p := by
  cases hc : f.connectors[run]? with
  | none =>
      simp only [stopConnector, hc]
      by_cases hn : run = n
      · rw [if_pos hn, ← hn, hc]
        rfl
      · rw [if_neg hn]
  | some k =>
      rcases Bool.eq_false_or_eq_true k.running with hrunning | hstopped
      · rw [stopConnector_eq hc hrunning, ← any_modify, ← connectors_drain f k]
        rfl
      · simp only [stopConnector, hc, hstopped, Bool.false_eq_true, if_false]
        by_cases hn : run = n
        · rw [if_pos hn, ← hn, hc]
          exact (hp k hstopped).symm
        · rw [if_neg hn]

theorem schedulers_stopConnector (f : Factory codec) (run : Nat) :
    (f.stopConnector run).schedulers = f.schedulers :=
  stopConnector_same schedulers (fun _ _ _ => rfl)
    (fun f id cause => refuse_same schedulers (fun _ _ _ _ _ => rfl) f id (.failed cause))
    (fun _ _ => rfl) f run

/-- A component that is taken down does not work any more, and all others work as before. -/
theorem isUp_takeDown (f : Factory codec) (c c' : Component) :
    (f.takeDown c).isUp c' = (f.isUp c' && decide (c' ≠ c)) := by
  obtain ⟨part, run⟩ := c
  obtain ⟨part', n⟩ := c'
  have hnever : ∀ {α : Type} (o : Option α), (o.any fun _ => false) = false := fun o => by
    cases o <;> rfl
  -- In each case one list changes in one place, and one switch of what stands there.
  cases part with
  | executor =>
      have hup : ∀ p : Connector → Bool, ((f.takeDown ⟨.executor, run⟩).connectors[n]?).any p = _ :=
        fun p => any_modify f.connectors run n Connector.abandon p
      cases part' with
      | executor =>
          refine (hup _).trans ?_
          by_cases hn : run = n
          · simp [isUp, hn, Function.comp_def, Connector.abandon, hnever]
          · simp [isUp, hn, Ne.symm hn]
      | scheduler => simp [isUp, takeDown, modifyConnector]
      | connector =>
          refine (hup _).trans ?_
          simp [isUp, Function.comp_def, Connector.abandon]
  | scheduler =>
      cases part' with
      | executor => simp [isUp, takeDown]
      | scheduler =>
          refine (any_modify f.schedulers run n Scheduler.stop _).trans ?_
          by_cases hn : run = n
          · simp [isUp, hn, Function.comp_def, Scheduler.stop, hnever]
          · simp [isUp, hn, Ne.symm hn]
      | connector => simp [isUp, takeDown]
  | connector =>
      cases part' with
      | executor =>
          refine (connectors_stopConnector f run n fun _ _ => rfl).trans ?_
          simp [isUp, Function.comp_def, Connector.stop]
      | scheduler => simp [isUp, takeDown, schedulers_stopConnector]
      | connector =>
          refine (connectors_stopConnector f run n fun k hk => hk.symm).trans ?_
          by_cases hn : run = n
          · simp [isUp, hn, Function.comp_def, Connector.stop, hnever]
          · simp [isUp, hn, Ne.symm hn]

theorem isUp_foldl_takeDown (cs : List Component) (f : Factory codec) (c : Component) :
    (cs.foldl takeDown f).isUp c = (f.isUp c && decide (c ∉ cs)) := by
  induction cs generalizing f with
  | nil => simp
  | cons first rest ih =>
      rw [List.foldl_cons, ih, isUp_takeDown]
      simp [Bool.and_assoc, not_or]

/-- Which components work is seen from the switches. -/
theorem Beside.isUp (h : f.Beside used f') (c : Component) : f'.isUp c = f.isUp c := by
  have hany : ∀ {α β : Type} {xs ys : List α} (part : α → β) (p : β → Bool) (n : Nat),
      ys.map part = xs.map part → (ys[n]?).any (p ∘ part) = (xs[n]?).any (p ∘ part) := by
    intro α β xs ys part p n hsame
    have hthere := congrArg (fun zs : List β => (zs[n]?).any p) hsame
    simpa only [List.getElem?_map, Option.any_map, Function.comp_def] using hthere
  unfold Factory.isUp
  split
  · exact hany Connector.switches (·.2) c.run h.connectors
  · exact hany Scheduler.stopped (!·) c.run h.schedulers
  · exact hany Connector.switches (·.1) c.run h.connectors

theorem Beside.length_eq (h : f.Beside used f') :
    f'.connectors.length = f.connectors.length ∧ f'.schedulers.length = f.schedulers.length := by
  have hconnectors := congrArg List.length h.connectors
  have hschedulers := congrArg List.length h.schedulers
  rw [List.length_map, List.length_map] at hconnectors hschedulers
  exact ⟨hconnectors, hschedulers⟩

/-- What is left of the components of a factory, and nothing else of the factory matters. -/
structure Downed (f f' : Factory codec) : Prop where
  runs : f'.lifecycle.runs = f.lifecycle.runs
  components : f'.lifecycle.components = none
  supplied : f'.suppliedExecutor = f.suppliedExecutor
  connectors : f'.connectors.length = f.connectors.length
  schedulers : f'.schedulers.length = f.schedulers.length
  up : ∀ c, f'.isUp c = (f.isUp c && decide (c ∉ f.held))

theorem fst_takeAllDown (f : Factory codec) : f.takeAllDown.1 = f.held.reverse :=
  rfl

theorem downed_takeAllDown (f : Factory codec) : f.Downed f.takeAllDown.2 := by
  let part := fun f : Factory codec =>
    (f.lifecycle, f.suppliedExecutor, f.connectors.length, f.schedulers.length)
  have houtlasts : Outlasts part :=
    { connector := fun f run change =>
        congrArg (fun n => (f.lifecycle, f.suppliedExecutor, n, f.schedulers.length))
          (List.length_modify change f.connectors run)
      scheduler := fun f run =>
        congrArg (fun n => (f.lifecycle, f.suppliedExecutor, f.connectors.length, n))
          (List.length_modify Scheduler.stop f.schedulers run)
      fail := fun f id cause => refuse_same part (fun _ _ _ _ _ => rfl) f id (.failed cause)
      close := fun _ _ => rfl }
  have hparts := houtlasts.takeAllDown f
  simp only [part, Prod.mk.injEq] at hparts
  obtain ⟨hlifecycle, hsupplied, hconnectors, hschedulers⟩ := hparts
  refine ⟨?_, ?_, hsupplied, hconnectors, hschedulers, fun c => ?_⟩
  · rw [hlifecycle]
    rfl
  · rw [hlifecycle]
    rfl
  · show (f.held.reverse.foldl takeDown { f with lifecycle := f.lifecycle.takeDown.2 }).isUp c = _
    rw [isUp_foldl_takeDown]
    simp only [List.mem_reverse]
    rfl

theorem beside_farewells (sessions : List SessionId) (f : Factory codec) :
    f.Beside used (sessions.foldl farewell f) := by
  refine Beside.foldl (fun f session => ?_) sessions f
  unfold farewell
  split
  · exact .refl f
  · exact beside_call f _ _

/-- A stop of a running factory takes down what it holds. -/
theorem downed_stop (hrunning : f.isRunning = true) :
    f.stop.1 = f.held.reverse ∧ f.Downed f.stop.2 ∧ f.stop.2.lifecycle.phase = .stopped ∧
      f.stop.2.sessions = [] := by
  have hfarewells : f.markStopping.Beside (fun _ => True) (f.sessions.foldl farewell f.markStopping) :=
    beside_farewells f.sessions f.markStopping
  have hretired := (retire_same f.markStopping).1
  have hdown := downed_takeAllDown f.markStopping.retire
  have hheld : f.markStopping.retire.held = f.held := by
    rw [held, hretired]
    rfl
  refine ⟨?_, ⟨?_, ?_, ?_, ?_, ?_, fun c => ?_⟩, ?_, ?_⟩
  · rw [← hheld, ← fst_takeAllDown]
    simp [stop, hrunning]
  all_goals rw [stop_of_running hrunning]
  · refine hdown.runs.trans ?_
    rw [hretired]
    rfl
  · exact hdown.components
  · exact hdown.supplied.trans hfarewells.supplied
  · exact hdown.connectors.trans hfarewells.length_eq.1
  · exact hdown.schedulers.trans hfarewells.length_eq.2
  · refine (hdown.up c).trans ?_
    rw [hheld]
    exact congrArg (· && _) (hfarewells.isUp c)
  · rfl
  · exact (takeAllDown_same _).2.trans (retire_same f.markStopping).2

/-! ### Lives -/

/-- The components that a start has made are held, while starts find nothing to do, until a stop takes
them down, the last one made first. -/
def Followed (answers : List Answer) (f : Factory codec) : Prop :=
  ∀ before made after, answers = before ++ .started (.ok made) :: after → made ≠ [] →
    (∃ idle later, after = idle ++ .stopped made.reverse :: later ∧
      ∀ m ∈ idle, m = .started (.ok [])) ∨
    (f.held = made ∧ ∀ m ∈ after, m = .started (.ok []))

/-- What a life so far says of the factory. -/
structure Lived (answers : List Answer) (f : Factory codec) : Prop where
  phase : f.lifecycle.phase = if f.lifecycle.components.isSome then .running else .stopped
  held : f.lifecycle.components.isSome = true →
    0 < f.lifecycle.runs ∧ f.held = f.componentsOf f.latestRun
  sessions : f.lifecycle.components = none → f.sessions = []
  connectors : f.connectors.length = f.lifecycle.runs
  schedulers : f.schedulers.length = f.lifecycle.runs
  runs : ∀ c ∈ madeBy answers, c.run < f.lifecycle.runs ∧ c ∈ f.componentsOf c.run
  once : (madeBy answers).Nodup
  count : ∀ c, (downBy answers).count c + f.held.count c = (madeBy answers).count c
  up : ∀ c ∈ madeBy answers, f.isUp c = decide (c ∈ f.held)
  followed : Followed answers f

theorem madeBy_concat (answers : List Answer) (m : Answer) :
    madeBy (answers ++ [m]) = madeBy answers ++ m.made := by
  rw [madeBy, List.flatMap_append, List.flatMap_singleton]
  rfl

theorem downBy_concat (answers : List Answer) (m : Answer) :
    downBy (answers ++ [m]) = downBy answers ++ m.down := by
  rw [downBy, List.flatMap_append, List.flatMap_singleton]
  rfl

/-- A life goes on as it must: with components to hold, a start finds nothing to do or a stop takes
them down, and what a start makes is held. -/
theorem Followed.concat (h : Followed answers f) {m : Answer}
    (hnext : f.held ≠ [] → (m = .started (.ok []) ∧ f'.held = f.held) ∨ m = .stopped f.held.reverse)
    (hmade : ∀ made, m = .started (.ok made) → made ≠ [] → f'.held = made) :
    Followed (answers ++ [m]) f' := by
  intro before made after hcut hsome
  rcases cut_concat hcut with ⟨rfl, hm⟩ | ⟨after', rfl, hpast⟩
  · have hlast : after = [] := by
      have hend := List.append_cancel_left hcut
      exact (List.cons.inj hend).2.symm
    exact Or.inr ⟨hmade made hm.symm hsome, fun m' hm' => absurd (hlast ▸ hm') List.not_mem_nil⟩
  · rcases h before made after' hpast hsome with ⟨idle, later, rfl, hidle⟩ | ⟨hheld, hidle⟩
    · exact Or.inl ⟨idle, later ++ [m], by simp, hidle⟩
    · rcases hnext (hheld ▸ hsome) with ⟨rfl, hsame⟩ | rfl
      · refine Or.inr ⟨hsame.trans hheld, fun m' hm' => ?_⟩
        rcases List.mem_append.mp hm' with hm' | hm'
        · exact hidle m' hm'
        · exact List.mem_singleton.mp hm'
      · exact Or.inl ⟨after', [], by rw [hheld], hidle⟩

theorem Lived.running (h : Lived answers f) :
    f.isRunning = f.lifecycle.components.isSome := by
  have hphase := h.phase
  unfold isRunning Lifecycle.isRunning
  rw [hphase]
  cases f.lifecycle.components <;> rfl

/-- A factory that does not run is stopped and has no components and no sessions. -/
theorem Lived.stopped (h : Lived answers f) (hrunning : f.isRunning = false) :
    f.lifecycle.phase = .stopped ∧ f.lifecycle.components = none ∧ f.sessions = [] := by
  have hnone : f.lifecycle.components = none := by
    rw [h.running] at hrunning
    exact Option.isSome_eq_false_iff.mp hrunning |> Option.isNone_iff_eq_none.mp
  refine ⟨?_, hnone, h.sessions hnone⟩
  rw [h.phase, hnone]
  rfl

theorem held_of_none (h : f.lifecycle.components = none) : f.held = [] := by
  rw [held, h]
  rfl

theorem nodup_componentsOf (f : Factory codec) (run : Nat) : (f.componentsOf run).Nodup := by
  unfold componentsOf Part.needed
  split <;> simp

theorem run_of_mem_componentsOf {run : Nat} (h : c ∈ f.componentsOf run) : c.run = run := by
  obtain ⟨part, -, rfl⟩ := List.mem_map.mp h
  rfl

theorem lived_new (hlifecycle : f.lifecycle = {}) (hconnectors : f.connectors = [])
    (hschedulers : f.schedulers = []) (hsessions : f.sessions = []) : Lived [] f where
  phase := by
    rw [hlifecycle]
    rfl
  held h := by
    rw [hlifecycle] at h
    cases h
  sessions _ := hsessions
  connectors := by
    rw [hconnectors, hlifecycle]
    rfl
  schedulers := by
    rw [hschedulers, hlifecycle]
    rfl
  runs _ h := absurd h List.not_mem_nil
  once := .nil
  count c := by
    rw [held, hlifecycle]
    rfl
  up _ h := absurd h List.not_mem_nil
  followed before made after h := by simp at h

theorem Lived.beside (h : Lived answers f) (hbeside : f.Beside used f') : Lived answers f' := by
  have hheld : f'.held = f.held := by
    rw [Factory.held, hbeside.lifecycle]
    rfl
  have hlatest : f'.latestRun = f.latestRun := by
    rw [latestRun, hbeside.lifecycle]
    rfl
  have hcomponents : ∀ run, f'.componentsOf run = f.componentsOf run := by
    intro run
    rw [componentsOf, hbeside.supplied]
    rfl
  refine ⟨?_, ?_, ?_, ?_, ?_, ?_, h.once, ?_, ?_, ?_⟩
  · rw [hbeside.lifecycle]
    exact h.phase
  · rw [hbeside.lifecycle, hheld, hlatest, hcomponents]
    exact h.held
  · rw [hbeside.lifecycle]
    intro hnone
    refine hbeside.sessions ?_ (h.sessions hnone)
    rw [h.running, hnone]
    rfl
  · rw [hbeside.lifecycle, hbeside.length_eq.1]
    exact h.connectors
  · rw [hbeside.lifecycle, hbeside.length_eq.2]
    exact h.schedulers
  · simp only [hbeside.lifecycle, hcomponents]
    exact h.runs
  · rw [hheld]
    exact h.count
  · simp only [hbeside.isUp, hheld]
    exact h.up
  · intro before made after hcut hsome
    rw [hheld]
    exact h.followed before made after hcut hsome

/-- A call that finds nothing to do. -/
theorem Lived.idle (h : Lived answers f) {m : Answer} (hmade : m.made = []) (hdown : m.down = [])
    (hfollowed : Followed (answers ++ [m]) f) : Lived (answers ++ [m]) f := by
  have hsame : madeBy (answers ++ [m]) = madeBy answers := by
    rw [madeBy_concat, hmade, List.append_nil]
  refine { h with runs := ?_, once := ?_, count := fun c => ?_, up := ?_, followed := hfollowed }
  · rw [hsame]
    exact h.runs
  · rw [hsame]
    exact h.once
  · rw [hsame, downBy_concat, hdown, List.append_nil]
    exact h.count c
  · rw [hsame]
    exact h.up

/-- The components of a new run work, and those of the runs before as they did. -/
theorem isUp_append (lifecycle : Lifecycle) (hconnectors : f.connectors.length = f.lifecycle.runs)
    (hschedulers : f.schedulers.length = f.lifecycle.runs) (c : Component) :
    let f' : Factory codec := { f with
      lifecycle := lifecycle
      connectors := f.connectors ++ [{}]
      schedulers := f.schedulers ++ [{}] }
    (c.run < f.lifecycle.runs → f'.isUp c = f.isUp c) ∧
      (c.run = f.lifecycle.runs → f'.isUp c = true) := by
  obtain ⟨part, run⟩ := c
  dsimp only
  refine ⟨fun hold => ?_, fun hnew => ?_⟩
  · have hconnector : ∀ k : Connector, (f.connectors ++ [k])[run]? = f.connectors[run]? := fun _ =>
      List.getElem?_append_left (hconnectors ▸ hold)
    have hscheduler : ∀ s : Scheduler ChannelId, (f.schedulers ++ [s])[run]? = f.schedulers[run]? :=
      fun _ => List.getElem?_append_left (hschedulers ▸ hold)
    cases part with
    | executor => exact congrArg (Option.any _) (hconnector {})
    | scheduler => exact congrArg (Option.any _) (hscheduler {})
    | connector => exact congrArg (Option.any _) (hconnector {})
  · have hconnector : ∀ k : Connector, (f.connectors ++ [k])[run]? = some k := fun _ => by
      rw [show run = f.connectors.length from hnew.trans hconnectors.symm]
      exact List.getElem?_concat_length
    have hscheduler : ∀ s : Scheduler ChannelId, (f.schedulers ++ [s])[run]? = some s := fun _ => by
      rw [show run = f.schedulers.length from hnew.trans hschedulers.symm]
      exact List.getElem?_concat_length
    cases part with
    | executor => exact congrArg (Option.any _) (hconnector {})
    | scheduler => exact congrArg (Option.any _) (hscheduler {})
    | connector => exact congrArg (Option.any _) (hconnector {})

/-- The components of a new run are new. -/
theorem Lived.make (h : Lived answers f) (hnone : f.lifecycle.components = none) :
    Lived (answers ++ [.started (.ok (f.componentsOf f.lifecycle.runs))]) { f with
      lifecycle := ⟨.running, f.lifecycle.runs + 1, some (f.componentsOf f.lifecycle.runs)⟩
      connectors := f.connectors ++ [{}]
      schedulers := f.schedulers ++ [{}] } := by
  have hempty : f.held = [] := held_of_none hnone
  have hup := isUp_append
    ⟨.running, f.lifecycle.runs + 1, some (f.componentsOf f.lifecycle.runs)⟩ h.connectors h.schedulers
  have hnew : ∀ c ∈ madeBy answers, c ∉ f.componentsOf f.lifecycle.runs := by
    intro c hc hmem
    have hrun := (h.runs c hc).1
    rw [run_of_mem_componentsOf hmem] at hrun
    exact Nat.lt_irrefl _ hrun
  refine ⟨rfl, fun _ => ⟨Nat.succ_pos _, rfl⟩, nofun, ?_, ?_, ?_, ?_, fun c => ?_, ?_, ?_⟩
  · show (f.connectors ++ [_]).length = _
    rw [List.length_append, h.connectors]
    rfl
  · show (f.schedulers ++ [_]).length = _
    rw [List.length_append, h.schedulers]
    rfl
  · intro c hc
    rw [madeBy_concat] at hc
    rcases List.mem_append.mp hc with hc | hc
    · exact ⟨Nat.lt_succ_of_lt (h.runs c hc).1, (h.runs c hc).2⟩
    · have hrun := run_of_mem_componentsOf hc
      exact ⟨Nat.lt_succ_of_le (Nat.le_of_eq hrun), hrun ▸ hc⟩
  · rw [madeBy_concat]
    exact List.nodup_append.mpr ⟨h.once, nodup_componentsOf f _,
      fun c hc c' hc' heq => hnew c hc (heq ▸ hc')⟩
  · have hcount := h.count c
    rw [hempty, List.count_nil, Nat.add_zero] at hcount
    rw [madeBy_concat, downBy_concat]
    show (downBy answers ++ []).count c + (f.componentsOf f.lifecycle.runs).count c =
      (madeBy answers ++ f.componentsOf f.lifecycle.runs).count c
    rw [List.append_nil, List.count_append, hcount]
  · intro c hc
    rw [madeBy_concat] at hc
    rcases List.mem_append.mp hc with hc | hc
    · refine ((hup c).1 (h.runs c hc).1).trans ?_
      rw [h.up c hc, hempty]
      exact (decide_eq_false List.not_mem_nil).trans (decide_eq_false (hnew c hc)).symm
    · exact ((hup c).2 (run_of_mem_componentsOf hc)).trans (decide_eq_true hc).symm
  · exact h.followed.concat (fun hsome => absurd hempty hsome) fun made hm _ =>
      Except.ok.inj (Answer.started.inj hm)

theorem Lived.start (h : Lived answers f) (executor : Except Fault Unit) :
    Lived (answers ++ [.started (f.start executor).1]) (f.start executor).2 := by
  rcases start_cases f executor with ⟨hrunning, hstart⟩ | ⟨cause, hrunning, -, -, hstart⟩ |
    ⟨hrunning, -, hstart⟩
  · rw [hstart]
    refine h.idle rfl rfl (h.followed.concat (fun _ => Or.inl ⟨rfl, rfl⟩) fun made hm hsome => ?_)
    exact absurd (Except.ok.inj (Answer.started.inj hm)).symm hsome
  · obtain ⟨hphase, hnone, -⟩ := h.stopped hrunning
    have hsame : { f with lifecycle := { f.lifecycle with phase := .stopped } } = f := by
      rw [← hphase]
    rw [hstart, hsame]
    exact h.idle rfl rfl (h.followed.concat (fun hsome => absurd (held_of_none hnone) hsome)
      fun made hm => nomatch hm)
  · rw [hstart]
    exact h.make (h.stopped hrunning).2.1

theorem Lived.stop (h : Lived answers f) : Lived (answers ++ [.stopped f.stop.1]) f.stop.2 := by
  rcases Bool.eq_false_or_eq_true f.isRunning with hrunning | hrunning
  · obtain ⟨hanswer, hdown, hphase, hsessions⟩ := downed_stop hrunning
    have hempty : f.stop.2.held = [] := held_of_none hdown.components
    have hsame : madeBy (answers ++ [.stopped f.stop.1]) = madeBy answers := by
      rw [madeBy_concat]
      exact List.append_nil _
    have hcomponents : ∀ run, f.stop.2.componentsOf run = f.componentsOf run := by
      intro run
      rw [componentsOf, hdown.supplied]
      rfl
    refine ⟨?_, ?_, fun _ => hsessions, ?_, ?_, ?_, ?_, fun c => ?_, ?_, ?_⟩
    · rw [hphase, hdown.components]
      rfl
    · rw [hdown.components]
      nofun
    · rw [hdown.connectors, hdown.runs, h.connectors]
    · rw [hdown.schedulers, hdown.runs, h.schedulers]
    · simp only [hsame, hdown.runs, hcomponents]
      exact h.runs
    · rw [hsame]
      exact h.once
    · rw [hsame, hempty, ← h.count c, downBy_concat, List.count_append, Answer.down, hanswer,
        List.count_reverse]
      rfl
    · intro c hc
      rw [hsame] at hc
      rw [hdown.up, h.up c hc, hempty]
      simp
    · exact h.followed.concat (fun _ => Or.inr (congrArg Answer.stopped hanswer))
        fun made hm => nomatch hm
  · rw [stop_of_not_running hrunning]
    have hnone := (h.stopped hrunning).2.1
    exact h.idle rfl rfl (h.followed.concat (fun hsome => absurd (held_of_none hnone) hsome)
      fun made hm => nomatch hm)

theorem Life.lived (h : Life used f₀ answers f) (hnew : Lived [] f₀) : Lived answers f := by
  induction h with
  | refl => exact hnew
  | start h executor ih => exact ih.start executor
  | stop h ih => exact ih.stop
  | beside h hbeside ih => exact ih.beside hbeside

/-! ### Between calls -/

/-- A factory between calls runs when it holds components, and else is stopped and has no sessions. -/
structure Between (f : Factory codec) : Prop where
  running : f.isRunning = f.lifecycle.components.isSome
  stopped : f.isRunning = false → f.lifecycle.phase = .stopped ∧ f.held = [] ∧ f.sessions = []

/-- A start makes the components of a new run, in order, but nothing while the factory runs and nothing
when it fails. -/
structure StartsOnce (f : Factory codec) : Prop where
  again : f.isRunning = true → ∀ executor, f.start executor = (.ok [], f)
  failed : ∀ executor cause f', f.start executor = (.error cause, f') →
    executor = .error cause ∧ f' = f ∧ f.isRunning = false
  fails : f.isRunning = false → f.suppliedExecutor = false → ∀ cause,
    f.start (.error cause) = (.error cause, f)
  makes : f.isRunning = false → ∀ executor, f.suppliedExecutor = true ∨ executor = .ok () →
    ∃ f', f.start executor = (.ok (f.componentsOf f.lifecycle.runs), f') ∧ f'.isRunning = true ∧
      f'.held = f.componentsOf f.lifecycle.runs

theorem Lived.startsOnce (h : Lived answers f) : f.StartsOnce where
  again hrunning executor := start_of_running hrunning executor
  failed executor cause f' hstart := by
    rcases start_cases f executor with ⟨-, hok⟩ | ⟨cause', hrunning, -, rfl, hfault⟩ | ⟨-, -, hok⟩
    · cases hok.symm.trans hstart
    · obtain ⟨hcause, rfl⟩ := Prod.mk.inj (hfault.symm.trans hstart)
      refine ⟨congrArg Except.error (Except.error.inj hcause), ?_, hrunning⟩
      rw [← (h.stopped hrunning).1]
    · cases hok.symm.trans hstart
  fails hrunning hown cause := by
    rw [start_of_fault hrunning hown, ← (h.stopped hrunning).1]
  makes hrunning executor hexecutor := ⟨_, start_of_ok hrunning hexecutor, rfl, rfl⟩

/-- A component is made once, works while it is held, and is taken down once then. -/
structure LivesOnce (answers : List Answer) (f : Factory codec) (c : Component) : Prop where
  made : (madeBy answers).count c = 1
  down : (downBy answers).count c = if c ∈ f.held then 0 else 1
  up : f.isUp c = decide (c ∈ f.held)

theorem Lived.livesOnce (h : Lived answers f) (hc : c ∈ madeBy answers) : LivesOnce answers f c := by
  have hmade : (madeBy answers).count c = 1 := h.once.count.trans (if_pos hc)
  have hcount := h.count c
  rw [hmade] at hcount
  refine ⟨hmade, ?_, h.up c hc⟩
  by_cases hheld : c ∈ f.held
  · have hpos := List.count_pos_iff.mpr hheld
    rw [if_pos hheld]
    omega
  · rw [List.count_eq_zero_of_not_mem hheld] at hcount
    rw [if_neg hheld]
    exact hcount

/-- Nothing is held or taken down that was not made. -/
theorem Lived.mem_madeBy (h : Lived answers f) (hc : c ∈ downBy answers ∨ c ∈ f.held) :
    c ∈ madeBy answers := by
  have hcount := h.count c
  refine List.count_pos_iff.mp ?_
  rcases hc with hc | hc
  · have := List.count_pos_iff.mpr hc
    omega
  · have := List.count_pos_iff.mpr hc
    omega

/-- What ends a run takes down what is held, the last one made first, and nothing works then. -/
theorem Lived.ends (h : Lived answers f) :
    f.stop.1 = f.held.reverse ∧ f.drop.1 = f.held.reverse ∧
      ∀ c ∈ madeBy answers, f.stop.2.isUp c = false ∧ f.drop.2.isUp c = false := by
  have hstop : f.stop.1 = f.held.reverse ∧ ∀ c ∈ madeBy answers, f.stop.2.isUp c = false := by
    rcases Bool.eq_false_or_eq_true f.isRunning with hrunning | hrunning
    · obtain ⟨hanswer, hdown, -⟩ := downed_stop hrunning
      refine ⟨hanswer, fun c hc => ?_⟩
      rw [hdown.up, h.up c hc]
      simp
    · have hempty := held_of_none (h.stopped hrunning).2.1
      rw [stop_of_not_running hrunning, hempty]
      refine ⟨rfl, fun c hc => ?_⟩
      rw [h.up c hc, hempty]
      rfl
  refine ⟨hstop.1, fst_takeAllDown f, fun c hc => ⟨hstop.2 c hc, ?_⟩⟩
  refine ((downed_takeAllDown f).up c).trans ?_
  rw [h.up c hc]
  simp

/-! ### Connects -/

/-- A connect that is accepted has an attempt of the latest run and of its client. -/
theorem connect_ok {client : Nat} {peer : Address} {listener : Session.Listener}
    {socket : Except Fault Unit} (h : f.connect client peer listener socket = (.ok id, f')) :
    f.isRunning = true ∧
      ∃ a, f'.attempts[id]? = some a ∧ a.run = f.latestRun ∧ a.client = client := by
  unfold connect at h
  split at h
  · rename_i hrunning
    refine ⟨hrunning, ?_⟩
    split at h
    · cases h
    · dsimp only at h
      split at h
      · cases h
      · rename_i f'' hregister
        obtain ⟨hid, rfl⟩ := Prod.mk.inj h
        obtain rfl := Except.ok.inj hid
        unfold register at hregister
        dsimp only at hregister
        split at hregister
        · cases hregister
        · split at hregister
          · cases hregister
          · obtain rfl := (Prod.mk.inj hregister).2
            exact ⟨_, List.getElem?_concat_length, rfl, rfl⟩
  · cases h

/-- A connect goes to the components that are held, and what was made before and is not held any more
is of another run. -/
theorem Lived.connect (h : Lived answers f) (hrunning : f.isRunning = true) :
    f.held = f.componentsOf f.latestRun ∧
      ∀ c ∈ madeBy answers, c ∉ f.held → c.run < f.latestRun := by
  rw [h.running] at hrunning
  obtain ⟨hruns, hheld⟩ := h.held hrunning
  refine ⟨hheld, fun c hc hnot => ?_⟩
  obtain ⟨hrun, hpart⟩ := h.runs c hc
  refine Nat.lt_of_le_of_ne (Nat.le_sub_one_of_lt hrun) fun heq => hnot ?_
  rw [hheld]
  exact heq ▸ hpart

/-- **Components live once.** In the life of a new factory, with starts that may fail and stops in any
order and everything else in between, also inside callbacks: between calls the factory runs when it
holds components, and else is stopped. A start while it runs makes nothing and changes nothing, and so
does one that fails. The components that a start has made are held until the next stop takes them down,
the last one made first, or a drop does; each is made once, taken down once and by no other call, and
works while it is held. A connect uses the components that are held, and the attempt goes on using
those of its run, whatever is stopped and started later. -/
theorem components_live_once (hlifecycle : f₀.lifecycle = {}) (hconnectors : f₀.connectors = [])
    (hschedulers : f₀.schedulers = []) (hsessions : f₀.sessions = [])
    (h : Life (fun _ => True) f₀ answers f) :
    f.Between ∧ f.StartsOnce ∧ Followed answers f ∧
    (∀ c ∈ madeBy answers, LivesOnce answers f c) ∧
    (∀ c, c ∈ downBy answers ∨ c ∈ f.held → c ∈ madeBy answers) ∧
    (f.stop.1 = f.held.reverse ∧ f.drop.1 = f.held.reverse ∧
      ∀ c ∈ madeBy answers, f.stop.2.isUp c = false ∧ f.drop.2.isUp c = false) ∧
    (∀ e : Event, e.isBeside = true → f.Acts (fun _ => True) (f.after e)) ∧
    (∀ run client peer listener, f.Beside (· = run) (f.register run client peer listener).2) ∧
    ∀ client peer listener socket,
      f.Beside (· = f.latestRun) (f.connect client peer listener socket).2 ∧
      ∀ id f', f.connect client peer listener socket = (.ok id, f') →
        f.held = f.componentsOf f.latestRun ∧
        (∀ c ∈ madeBy answers, c ∉ f.held → c.run < f.latestRun) ∧
        ∀ answers' f'', Life (fun _ => True) f' answers' f'' →
          ∃ a, f''.attempts[id]? = some a ∧ a.run = f.latestRun ∧
            ∀ e : Event, e.attempt? = some id → f''.Acts (· = f.latestRun) (f''.after e) := by
  have hlived := h.lived (lived_new hlifecycle hconnectors hschedulers hsessions)
  refine ⟨⟨hlived.running, fun hrunning => ?_⟩, hlived.startsOnce, hlived.followed,
    fun c hc => hlived.livesOnce hc, fun c hc => hlived.mem_madeBy hc, hlived.ends,
    fun e he => acts_of_isBeside he (fun _ => trivial) f, fun run client peer listener => ?_,
    fun client peer listener socket => ⟨?_, ?_⟩⟩
  · obtain ⟨hphase, hnone, hsessions⟩ := hlived.stopped hrunning
    exact ⟨hphase, held_of_none hnone, hsessions⟩
  · apply beside_register
    rfl
  · apply beside_connect
    rfl
  · intro id f' hconnect
    obtain ⟨hrunning, a, ha, hrun, -⟩ := connect_ok hconnect
    obtain ⟨hheld, hearlier⟩ := hlived.connect hrunning
    refine ⟨hheld, hearlier, fun answers' f'' hlater => ?_⟩
    obtain ⟨a', ha', hon⟩ := hlater.attempt ha
    refine ⟨a', ha', hon.run.trans hrun, fun e he => acts_of_attempt he fun b hb => ?_⟩
    obtain rfl := Option.some.inj (ha'.symm.trans hb)
    exact hon.run.trans hrun

/-- A factory with an executor of its own and one client. -/
def beginner : Factory .identity :=
  { clients := [{ version := .v3 }] }

/-- It fails to start, is started twice, stopped and started again. -/
def restarted : Factory .identity :=
  let once := ((beginner.after (.start (.error .notRunning))).after (.start (.ok ()))).after
    (.start (.ok ()))
  (once.after .stop).after (.start (.ok ()))

theorem restarted_components :
    restarted.drop.1 = [⟨.connector, 1⟩, ⟨.scheduler, 1⟩, ⟨.executor, 1⟩] ∧
    (∀ c ∈ [⟨.executor, 0⟩, ⟨.scheduler, 0⟩, ⟨.connector, 0⟩], restarted.isUp c = false) ∧
    (∀ c ∈ [⟨.executor, 1⟩, ⟨.scheduler, 1⟩, ⟨.connector, 1⟩],
      restarted.isUp c = true ∧ restarted.drop.2.isUp c = false) ∧
    ∃ a, (restarted.connect 0 host .silent (.ok ())).2.attempts[0]? = some a ∧ a.run = 1 := by
  have hnew : Life (fun _ => True) beginner [] beginner := .refl
  have hfailed := hnew.start (.error .notRunning)
  have hstopped := ((hfailed.start (.ok ())).start (.ok ())).stop
  have hlife : Life (fun _ => True) beginner
      [.started (.error .notRunning),
        .started (.ok [⟨.executor, 0⟩, ⟨.scheduler, 0⟩, ⟨.connector, 0⟩]), .started (.ok []),
        .stopped [⟨.connector, 0⟩, ⟨.scheduler, 0⟩, ⟨.executor, 0⟩],
        .started (.ok [⟨.executor, 1⟩, ⟨.scheduler, 1⟩, ⟨.connector, 1⟩])] restarted :=
    hstopped.start (.ok ())
  obtain ⟨-, -, -, honce, -, ⟨-, hdrop, hdown⟩, -, -, hconnect⟩ :=
    components_live_once rfl rfl rfl rfl hlife
  have hearlier : ∀ c ∈ [⟨.executor, 0⟩, ⟨.scheduler, 0⟩, ⟨.connector, 0⟩], c ∉ restarted.held := by
    decide
  refine ⟨hdrop, fun c hc => ?_, fun c hc => ?_, ?_⟩
  · have hmade : c ∈ [⟨.executor, 0⟩, ⟨.scheduler, 0⟩, ⟨.connector, 0⟩] ++ _ :=
      List.mem_append_left [⟨.executor, 1⟩, ⟨.scheduler, 1⟩, ⟨.connector, 1⟩] hc
    exact (honce c hmade).up.trans (decide_eq_false (hearlier c hc))
  · have hmade : c ∈ [⟨.executor, 0⟩, ⟨.scheduler, 0⟩, ⟨.connector, 0⟩] ++ _ :=
      List.mem_append_right [⟨.executor, 0⟩, ⟨.scheduler, 0⟩, ⟨.connector, 0⟩] hc
    exact ⟨(honce c hmade).up.trans (decide_eq_true hc), (hdown c hmade).2⟩
  · obtain ⟨-, -, hlater⟩ := (hconnect 0 host .silent (.ok ())).2 0 _ rfl
    obtain ⟨a, ha, hrun, -⟩ := hlater [] _ .refl
    exact ⟨a, ha, hrun⟩

end SpdySessions.Factory
