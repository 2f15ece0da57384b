import SpdySessions.Proofs.Promise.Nested

/-! One outcome for everybody. Whatever is done with a promise, in any order and from inside its own
callbacks, one call at most gives it an outcome, and everybody who ever asks is given that one: each
callback once, in the order of registration or at once if it came later, each thread that blocks and
each task that waits once. The invariant has two sides. While the promise is pending nobody has been
told anything and the stored callbacks are all that were registered; afterwards all accounts are even. -/

namespace SpdySessions

/-- What calls say of themselves that bring an outcome about. A cancel says the same to everybody. -/
def Outcome.said {σ : Type} : Outcome σ → List (Outcome σ)
  | completed session => [completed session]
  | failed cause => [failed cause]
  | cancelled => []

namespace Promise.Scene

/-- What is done with a promise: somebody makes a call, a task begins to wait, a thread blocks, or those
who wait look for an outcome. -/
inductive Use where
  | call (who : String) (action : Action)
  | await (who : String)
  | block
  | look

namespace Use

/-- The callback that a use leaves with the promise if there is no outcome yet. -/
def callback? : Use → Option Callback
  | call _ (.onComplete tag program) => some (.program tag program)
  | block => some .thread
  | _ => none

def isBlock : Use → Bool
  | block => true
  | _ => false

def waiter? : Use → Option String
  | await who => some who
  | _ => none

end Use

/-- Does something with a promise: what calls and callbacks leave behind, what is told to those who
waited, and the scene after it. -/
def use (s : Scene) : Use → List Entry × List (String × Except Fault Nat) × Scene
  | .call who action =>
      let (reply, entries, s) := s.perform action
      (entries ++ [.did who action reply], [], s)
  | .await who => ([], [], s.await who)
  | .block => ([], [], s.block)
  | .look => ([], s.wake)

/-- A promise in use for some time, with all that was done and all that came of it. -/
inductive Course (s₀ : Scene) :
    List Use → List Entry → List (String × Except Fault Nat) → Scene → Prop
  | refl : Course s₀ [] [] [] s₀
  | step {uses : List Use} {entries : List Entry} {told : List (String × Except Fault Nat)} {s : Scene}
      (h : Course s₀ uses entries told s) (u : Use) :
      Course s₀ (uses ++ [u]) (entries ++ (s.use u).1) (told ++ (s.use u).2.1) (s.use u).2.2

variable {s s₀ : Scene} {o : Outcome Nat} {uses : List Use} {entries : List Entry}
  {told : List (String × Except Fault Nat)}

/-- There is no outcome: nobody has been told anything, and all who asked to be are remembered. -/
structure Pending (uses : List Use) (entries : List Entry) (told : List (String × Except Fault Nat))
    (s : Scene) : Prop where
  outcome : s.promise.outcome = none
  done : s.promise.done = false
  callbacks : s.promise.callbacks = uses.filterMap Use.callback?
  registered : ∀ tag, entries.countP (Entry.isRegistration tag) = programs tag s.promise.callbacks
  won : ∀ entry ∈ entries, entry.won? = none
  results : ∀ entry ∈ entries, entry.result? = none
  joined : s.joined = []
  untold : told = []
  waiting : s.waiting = uses.filterMap Use.waiter?

/-- There is an outcome: nobody is left to be told, the calls that claim to have brought it about are
the one that did, whoever was given a result was given this one, every registered callback has run
once, every blocked thread has gone on once, and every task that began to wait has been told once or
will be when it looks. -/
structure Over (o : Outcome Nat) (uses : List Use) (entries : List Entry)
    (told : List (String × Except Fault Nat)) (s : Scene) : Prop where
  decided : s.Decided o
  won : entries.filterMap Entry.won? = o.said
  results : ∀ entry ∈ entries, ∀ result, entry.result? = some result → result = o.result
  runs : ∀ tag, entries.countP (Entry.isRun tag) = entries.countP (Entry.isRegistration tag)
  joined : s.joined = List.replicate (uses.countP Use.isBlock) o.result
  answers : ∀ t ∈ told, t.2 = o.result
  waiting : told.map (·.1) ++ s.waiting = uses.filterMap Use.waiter?

/-! ### Calls on a pending promise -/

/-- The scene at the moment at which the promise is given an outcome. -/
def decide (s : Scene) (o : Outcome Nat) : Scene :=
  { s with promise := { outcome := some o, done := true, callbacks := [] } }

theorem decided_decide (s : Scene) (o : Outcome Nat) : (s.decide o).Decided o :=
  ⟨rfl, rfl, rfl⟩

theorem settle_of_pending (h : s.promise.outcome = none) (o : Outcome Nat) :
    s.settle o = (true, runCallbacks o (s.decide o) s.promise.callbacks) := by
  rw [settle, settle?, Promise.decide?, h]
  rfl

/-- The first call that asks for an outcome gives it to the promise and hands it to the callbacks. A
cancel closes the channel besides. -/
theorem perform_of_pending (h : s.promise.outcome = none) {action : Action}
    (ho : action.outcome? = some o) :
    ∃ channel, s.perform action =
      (.flag true, (runCallbacks o (s.decide o) s.promise.callbacks).1,
        { (runCallbacks o (s.decide o) s.promise.callbacks).2 with channel := channel }) := by
  have hpromise := ((s.decided_decide o).runAll s.promise.callbacks).promise
  cases action with
  | complete session =>
      obtain rfl := Option.some.inj ho
      rw [perform, settle_of_pending h]
      exact ⟨_, rfl⟩
  | fail cause =>
      obtain rfl := Option.some.inj ho
      rw [perform, settle_of_pending h]
      exact ⟨_, rfl⟩
  | cancel =>
      obtain rfl := Option.some.inj ho
      simp only [perform, cancel, settle_of_pending h, isCompleted, hpromise]
      exact ⟨_, rfl⟩
  | _ => cases ho

/-- Other calls give no outcome, and nobody is told one. -/
theorem outcome_perform_of_pending (h : s.promise.outcome = none) {action : Action}
    (ho : action.outcome? = none) : (s.perform action).2.2.promise.outcome = none := by
  cases action with
  | complete session => cases ho
  | fail cause => cases ho
  | cancel => cases ho
  | onComplete tag program => simp only [perform, register, Promise.register, h]
  | _ => exact h

/-- The callbacks of a pending promise are what its users have left with it. -/
theorem Pending.threads_eq (h : Pending uses entries told s) :
    threads s.promise.callbacks = uses.countP Use.isBlock := by
  rw [h.callbacks, threads, List.countP_filterMap]
  congr 1
  funext u
  cases u with
  | call who action => cases action <;> rfl
  | _ => rfl

/-- The first call that asks for an outcome evens all accounts. -/
theorem Pending.over (h : Pending uses entries told s) (who : String) {action : Action}
    (ho : action.outcome? = some o) :
    Over o (uses ++ [.call who action]) (entries ++ (s.use (.call who action)).1)
      (told ++ (s.use (.call who action)).2.1) (s.use (.call who action)).2.2 := by
  obtain ⟨channel, hperform⟩ := perform_of_pending h.outcome ho
  have hall := (s.decided_decide o).runAll s.promise.callbacks
  have hsaid : [Entry.did who action (.flag true)].filterMap Entry.won? = o.said := by
    cases action with
    | complete session => obtain rfl := Option.some.inj ho; rfl
    | fail cause => obtain rfl := Option.some.inj ho; rfl
    | cancel => obtain rfl := Option.some.inj ho; rfl
    | _ => cases ho
  have hnew : ∀ tag, (Entry.did who action (.flag true)).isRegistration tag = false := by
    intro tag
    cases action with
    | onComplete other program => cases ho
    | _ => rfl
  have hnone : ∀ tag, entries.countP (Entry.isRun tag) = 0 := by
    intro tag
    rw [List.countP_eq_zero]
    intro entry hentry hrun
    have hresult := h.results entry hentry
    cases entry with
    | ran other result => cases hresult
    | did other action reply => cases hrun
  simp only [use, hperform]
  refine ⟨(s.decided_decide o).of_promise_eq hall.promise, ?_, ?_, fun tag => ?_, ?_, ?_, ?_⟩
  · rw [List.filterMap_append, List.filterMap_append, List.filterMap_eq_nil_iff.mpr h.won,
      List.filterMap_eq_nil_iff.mpr hall.won, hsaid]
    rfl
  · intro entry hentry result hresult
    simp only [List.mem_append, List.mem_singleton] at hentry
    rcases hentry with hentry | hentry | rfl
    · rw [h.results entry hentry] at hresult
      cases hresult
    · exact hall.results entry hentry result hresult
    · cases hresult
  · have hregistered := h.registered tag
    have hruns := hall.runs tag
    have hrun : (Entry.did who action (.flag true)).isRun tag = false := rfl
    simp only [List.countP_append, List.countP_singleton, hnone tag, hrun, hnew tag,
      Bool.false_eq_true, if_false, hregistered, hruns]
    omega
  · have hjoined := hall.joined
    rw [show (s.decide o).joined = [] from h.joined, List.nil_append, h.threads_eq] at hjoined
    rw [hjoined, List.countP_append]
    rfl
  · rw [h.untold]
    exact fun t ht => absurd ht List.not_mem_nil
  · rw [h.untold, List.filterMap_append, ← h.waiting]
    exact hall.waiting.trans (List.append_nil _).symm

/-- What is remembered of a use. -/
theorem Pending.remember (h : Pending uses entries told s) {u : Use} {more : List Entry} {s' : Scene}
    (hpromise : s'.promise =
      { s.promise with callbacks := s.promise.callbacks ++ u.callback?.toList })
    (hjoined : s'.joined = s.joined) (hwaiting : s'.waiting = s.waiting ++ u.waiter?.toList)
    (hregistered : ∀ tag, more.countP (Entry.isRegistration tag) = programs tag u.callback?.toList)
    (hwon : ∀ entry ∈ more, entry.won? = none) (hresults : ∀ entry ∈ more, entry.result? = none) :
    Pending (uses ++ [u]) (entries ++ more) (told ++ []) s' := by
  have hlast : ∀ {α : Type} (g : Use → Option α), [u].filterMap g = (g u).toList := by
    intro α g
    cases hg : g u <;> simp [hg]
  constructor
  · rw [hpromise]
    exact h.outcome
  · rw [hpromise]
    exact h.done
  · rw [hpromise, List.filterMap_append, h.callbacks, hlast]
  · intro tag
    have hbefore := h.registered tag
    have hmore := hregistered tag
    rw [programs] at hbefore hmore
    rw [hpromise, List.countP_append, programs, List.countP_append, hbefore, hmore]
  · intro entry hentry
    rcases List.mem_append.mp hentry with hentry | hentry
    · exact h.won entry hentry
    · exact hwon entry hentry
  · intro entry hentry
    rcases List.mem_append.mp hentry with hentry | hentry
    · exact h.results entry hentry
    · exact hresults entry hentry
  · exact hjoined.trans h.joined
  · rw [h.untold, List.append_nil]
  · rw [hwaiting, h.waiting, List.filterMap_append, hlast]

/-- Other uses leave the promise pending and are remembered. -/
theorem Pending.use (h : Pending uses entries told s) (u : Use)
    (hu : ∀ who action, u = .call who action → action.outcome? = none) :
    Pending (uses ++ [u]) (entries ++ (s.use u).1) (told ++ (s.use u).2.1) (s.use u).2.2 := by
  have hsame : s.promise = { s.promise with callbacks := s.promise.callbacks ++ [] } := by
    rw [List.append_nil]
  have hregister : ∀ callback, s.register callback =
      ([], { s with promise := { s.promise with callbacks := s.promise.callbacks ++ [callback] } }) := by
    intro callback
    simp [register, Promise.register, h.outcome]
  cases u with
  | call who action =>
      cases action with
      | complete session => cases hu who _ rfl
      | fail cause => cases hu who _ rfl
      | cancel => cases hu who _ rfl
      | closeChannel =>
          simp only [Scene.use, perform]
          exact h.remember hsame rfl (List.append_nil _).symm (fun _ => rfl)
            (by simp [Entry.won?]) (by simp [Entry.result?])
      | tryResult =>
          have hnone : s.promise.tryResult = none := by rw [Promise.tryResult, h.outcome]; rfl
          simp only [Scene.use, perform, hnone]
          exact h.remember hsame rfl (List.append_nil _).symm (fun _ => rfl)
            (by simp [Entry.won?]) (by simp [Entry.result?])
      | wait =>
          have hnone : s.promise.poll = none := by rw [Promise.poll, h.done]; rfl
          simp only [Scene.use, perform, hnone]
          exact h.remember hsame rfl (List.append_nil _).symm (fun _ => rfl)
            (by simp [Entry.won?]) (by simp [Entry.result?])
      | describe =>
          simp only [Scene.use, perform]
          exact h.remember hsame rfl (List.append_nil _).symm (fun _ => rfl)
            (by simp [Entry.won?]) (by simp [Entry.result?])
      | onComplete tag program =>
          simp only [Scene.use, perform, hregister]
          exact h.remember rfl rfl (List.append_nil _).symm (fun _ => rfl)
            (by simp [Entry.won?]) (by simp [Entry.result?])
  | await who =>
      simp only [Scene.use]
      exact h.remember hsame rfl rfl (fun _ => rfl) (by simp) (by simp)
  | block =>
      simp only [Scene.use, block, hregister]
      exact h.remember rfl rfl (List.append_nil _).symm (fun _ => rfl) (by simp) (by simp)
  | look =>
      have hwake : s.wake = ([], s) := by
        rw [wake, Promise.poll, h.done]
        rfl
      simp only [Scene.use, hwake]
      exact h.remember hsame rfl (List.append_nil _).symm (fun _ => rfl) (by simp) (by simp)

/-! ### Calls after that -/

theorem Decided.block_eq (h : s.Decided o) :
    s.block = { s with joined := s.joined ++ [o.result] } := by
  rw [block, h.register]
  rfl

theorem Decided.wake_eq (h : s.Decided o) :
    s.wake = (s.waiting.map (·, o.result), { s with waiting := [] }) := by
  rw [wake, h.poll]

/-- An outcome stays. -/
theorem Decided.use (h : s.Decided o) (u : Use) : (s.use u).2.2.Decided o := by
  cases u with
  | call who action => exact h.of_promise_eq (h.promise_perform action)
  | await who => exact h.of_promise_eq rfl
  | block => exact h.of_promise_eq (by rw [Scene.use, h.block_eq])
  | look => exact h.of_promise_eq (by rw [Scene.use, h.wake_eq])

/-- A use that leaves nothing behind. -/
theorem Over.silent (h : Over o uses entries told s) {u : Use}
    {more : List (String × Except Fault Nat)} {s' : Scene} (hdecided : s'.Decided o)
    (hjoined : s'.joined = List.replicate ((uses ++ [u]).countP Use.isBlock) o.result)
    (hanswers : ∀ t ∈ more, t.2 = o.result)
    (hwaiting : (told ++ more).map (·.1) ++ s'.waiting = (uses ++ [u]).filterMap Use.waiter?) :
    Over o (uses ++ [u]) (entries ++ []) (told ++ more) s' := by
  rw [List.append_nil]
  refine ⟨hdecided, h.won, h.results, h.runs, hjoined, fun t ht => ?_, hwaiting⟩
  rcases List.mem_append.mp ht with ht | ht
  · exact h.answers t ht
  · exact hanswers t ht

/-- Once there is an outcome all accounts stay even. -/
theorem Over.use (h : Over o uses entries told s) (u : Use) :
    Over o (uses ++ [u]) (entries ++ (s.use u).1) (told ++ (s.use u).2.1) (s.use u).2.2 := by
  have hdecided := h.decided.use u
  have hwaiting := h.waiting
  cases u with
  | call who action =>
      have hagree := h.decided.agree_perform who action
      have hscene := h.decided.perform_eq action
      refine ⟨hdecided, ?_, ?_, fun tag => ?_, ?_, ?_, ?_⟩
      · rw [List.filterMap_append, h.won]
        exact (congrArg _ (List.filterMap_eq_nil_iff.mpr hagree.won)).trans (List.append_nil _)
      · intro entry hentry
        rcases List.mem_append.mp hentry with hentry | hentry
        · exact h.results entry hentry
        · exact hagree.results entry hentry
      · rw [List.countP_append, List.countP_append, h.runs tag]
        exact congrArg _ (hagree.runs tag)
      · simp [Scene.use, hscene, h.joined, Use.isBlock]
      · simpa [Scene.use] using h.answers
      · simpa [Scene.use, hscene, Use.waiter?, List.filterMap_cons] using hwaiting
  | await who =>
      refine h.silent hdecided ?_ (fun t ht => absurd ht List.not_mem_nil) ?_
      · simpa [Scene.use, Scene.await, Use.isBlock] using h.joined
      · simp [Scene.use, Scene.await, Use.waiter?, ← hwaiting]
  | block =>
      refine h.silent hdecided ?_ (fun t ht => absurd ht List.not_mem_nil) ?_
      · simp [Scene.use, h.decided.block_eq, h.joined, Use.isBlock, List.replicate_succ']
      · simpa [Scene.use, h.decided.block_eq, Use.waiter?, List.filterMap_cons] using hwaiting
  | look =>
      refine h.silent hdecided ?_ ?_ ?_
      · simpa [Scene.use, h.decided.wake_eq, Use.isBlock] using h.joined
      · intro t ht
        simp only [Scene.use, h.decided.wake_eq] at ht
        obtain ⟨who, -, rfl⟩ := List.mem_map.mp ht
        rfl
      · simpa [Scene.use, h.decided.wake_eq, Use.waiter?, List.filterMap_cons, Function.comp_def]
          using hwaiting

/-! ### Courses -/

theorem Course.pending_or_over {channel : Channel} (h : Course { channel } uses entries told s) :
    Pending uses entries told s ∨ ∃ o, Over o uses entries told s := by
  induction h with
  | refl => exact Or.inl (by constructor <;> simp [programs])
  | step h u ih =>
      rcases ih with ih | ⟨o, ih⟩
      · cases u with
        | call who action =>
            cases ho : action.outcome? with
            | none =>
                refine Or.inl (ih.use _ fun who' action' heq => ?_)
                obtain ⟨-, rfl⟩ := Use.call.inj heq
                exact ho
            | some o => exact Or.inr ⟨o, ih.over who ho⟩
        | _ => exact Or.inl (ih.use _ fun _ _ heq => by cases heq)
      · exact Or.inr ⟨o, ih.use u⟩

/-- An outcome stays. -/
theorem Course.decided {s' : Scene} (h : Course s uses entries told s') (hs : s.Decided o) :
    s'.Decided o := by
  induction h with
  | refl => exact hs
  | step h u ih => exact ih.use u

/-! ### One outcome -/

/-- How the next use of a promise is answered. The first call that asks for an outcome is told that it
was the one, and during it the callbacks are handed the outcome in the order of their registration; a
later one is refused, except that a cancel is not told. A callback that comes later is handed the outcome
within the call that registers it, and a thread that comes later goes on with it at once. When those who
wait look for the outcome, all of them are told or, as long as there is none, nobody. -/
structure Answers (s : Scene) : Prop where
  first : ∀ action o, s.promise.outcome = none → action.outcome? = some o →
    ∃ entries s' channel, s.perform action = (.flag true, entries, { s' with channel := channel }) ∧
      s'.Decided o ∧ Handed o (s.decide o) s.promise.callbacks entries s'
  others : ∀ action, s.promise.outcome = none → action.outcome? = none →
    (s.perform action).2.2.promise.outcome = none
  later : ∀ action o o', s.promise.outcome = some o → action.outcome? = some o' →
    (s.perform action).1 = .flag o'.isCancelled ∧ (s.perform action).2.2.promise = s.promise
  atOnce : ∀ tag program o, s.promise.outcome = some o →
    ∃ entries s', s.perform (.onComplete tag program) = (.nothing, entries, s') ∧
      Handed o s [.program tag program] entries s'
  joins : ∀ o, s.promise.outcome = some o → s.block = { s with joined := s.joined ++ [o.result] }
  tried : s.promise.tryResult = s.promise.outcome.map Outcome.result
  waited : s.promise.poll = s.promise.outcome.map Outcome.result
  unheard : s.promise.outcome = none → s.wake = ([], s)
  heard : ∀ o, s.promise.outcome = some o →
    s.wake = (s.waiting.map (·, o.result), { s with waiting := [] })

theorem answers_of_pending (houtcome : s.promise.outcome = none) (hdone : s.promise.done = false) :
    Answers s where
  first := by
    intro action o _ ho
    obtain ⟨channel, hperform⟩ := perform_of_pending houtcome ho
    have hpromise := ((s.decided_decide o).runAll s.promise.callbacks).promise
    exact ⟨_, _, channel, hperform, (s.decided_decide o).of_promise_eq hpromise,
      (s.decided_decide o).handed s.promise.callbacks⟩
  others := fun _ _ ho => outcome_perform_of_pending houtcome ho
  later := by
    intro action o o' hsome
    rw [houtcome] at hsome
    cases hsome
  atOnce := by
    intro tag program o hsome
    rw [houtcome] at hsome
    cases hsome
  joins := by
    intro o hsome
    rw [houtcome] at hsome
    cases hsome
  tried := by rw [Promise.tryResult]
  waited := by
    rw [Promise.poll, hdone, houtcome]
    rfl
  unheard := by
    intro _
    rw [wake, Promise.poll, hdone]
    rfl
  heard := by
    intro o hsome
    rw [houtcome] at hsome
    cases hsome

theorem Decided.answers (h : s.Decided o) : Answers s where
  first := by
    intro action o' hnone
    rw [h.outcome] at hnone
    cases hnone
  others := by
    intro action hnone
    rw [h.outcome] at hnone
    cases hnone
  later := by
    intro action o' o'' _ ho
    refine ⟨?_, h.promise_perform action⟩
    rw [h.perform_eq]
    cases action with
    | complete session => obtain rfl := Option.some.inj ho; rfl
    | fail cause => obtain rfl := Option.some.inj ho; rfl
    | cancel => obtain rfl := Option.some.inj ho; rfl
    | _ => cases ho
  atOnce := by
    intro tag program o' hsome
    obtain rfl := Option.some.inj (h.outcome.symm.trans hsome)
    refine ⟨_, _, ?_, h.handed [.program tag program]⟩
    simp only [perform, h.register, runCallbacks, List.append_nil]
  joins := by
    intro o' hsome
    obtain rfl := Option.some.inj (h.outcome.symm.trans hsome)
    exact h.block_eq
  tried := by rw [Promise.tryResult]
  waited := by rw [h.poll, h.outcome, Option.map_some]
  unheard := by
    intro hnone
    rw [h.outcome] at hnone
    cases hnone
  heard := by
    intro o' hsome
    obtain rfl := Option.some.inj (h.outcome.symm.trans hsome)
    exact h.wake_eq

/-- What has come of the uses of a new promise. As long as there is no outcome nobody has been told one,
and then every account is even and the outcome stays. The next use is answered accordingly, and so is
every call from inside a callback, to any depth. -/
structure OneOutcome (uses : List Use) (entries : List Entry)
    (told : List (String × Except Fault Nat)) (s : Scene) : Prop where
  pending : s.promise.outcome = none → Pending uses entries told s
  decided : ∀ o, s.promise.outcome = some o → Over o uses entries told s
  stays : ∀ o, s.promise.outcome = some o → ∀ uses' entries' told' s',
    Course s uses' entries' told' s' → s'.promise.outcome = some o
  answers : Answers s
  inside : ∀ mid o, mid.Decided o → Answers mid

/-- **One outcome for everybody.** Whatever has been done with a new promise, by anybody and from inside
its callbacks, it has one outcome at most, and everybody who asks is given that one, once. -/
theorem one_outcome_for_all {channel : Channel} (h : Course { channel } uses entries told s) :
    OneOutcome uses entries told s := by
  have hinside : ∀ mid o, Decided mid o → Answers mid := fun _ _ hmid => hmid.answers
  rcases h.pending_or_over with hpending | ⟨o, hover⟩
  · have hnone := hpending.outcome
    refine ⟨fun _ => hpending, fun o ho => ?_, fun o ho => ?_,
      answers_of_pending hnone hpending.done, hinside⟩
    · rw [hnone] at ho
      cases ho
    · rw [hnone] at ho
      cases ho
  · have hsome := hover.decided.outcome
    refine ⟨fun hnone => ?_, fun o' ho' => ?_, fun o' ho' uses' entries' told' s' hlater => ?_,
      hover.decided.answers, hinside⟩
    · rw [hsome] at hnone
      cases hnone
    · obtain rfl := Option.some.inj (hsome.symm.trans ho')
      exact hover
    · rw [(hlater.decided hover.decided).outcome, ← hsome, ho']

/-- When the session comes, a thread is blocked, a task waits, and a callback completes and cancels in
vain and registers another one. -/
def crowd : List Use :=
  [.call "user" (.onComplete "outer" [.complete 2, .cancel,
      .onComplete "inner" [.fail .notRunning, .tryResult], .wait]),
    .block, .await "task", .call "maker" (.complete 1), .call "user" (.onComplete "late" []), .look]

def host : Address := ⟨.v4 127 0 0 1, 9, 0⟩

theorem crowd_one_outcome : ∃ entries told s,
    Course { channel := { id := 1, peer := host } } crowd entries told s ∧
    s.promise.outcome = some (.completed 1) ∧ told = [("task", .ok 1)] ∧ s.joined = [.ok 1] ∧
    OneOutcome crowd entries told s := by
  have hstart : Course { channel := { id := 1, peer := host } } [] [] []
      { channel := { id := 1, peer := host } } := .refl
  have hcalled := hstart.step (.call "user" (.onComplete "outer" [.complete 2, .cancel,
    .onComplete "inner" [.fail .notRunning, .tryResult], .wait]))
  have hwaiting := (hcalled.step .block).step (.await "task")
  have hdone := hwaiting.step (.call "maker" (.complete 1))
  have hcourse := (hdone.step (.call "user" (.onComplete "late" []))).step .look
  exact ⟨_, _, _, hcourse, rfl, rfl, rfl, one_outcome_for_all hcourse⟩

end Promise.Scene

end SpdySessions
