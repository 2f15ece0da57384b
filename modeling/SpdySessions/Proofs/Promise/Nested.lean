import SpdySessions.Promise.Script

/-! Calls from inside callbacks. Once a promise has an outcome, a callback's program makes its calls as
anybody else would: running it is performing its actions one after the other. So the callbacks that a
transition hands out run in order, each once, with everything that they call in between. What the calls
of any program leave behind agrees with the outcome, however deep the programs are nested; the
induction is on actions and programs together. -/

namespace SpdySessions.Promise

/-- The outcome that a call asks for. -/
def Action.outcome? : Action → Option (Outcome Nat)
  | complete session => some (.completed session)
  | fail cause => some (.failed cause)
  | cancel => some .cancelled
  | _ => none

namespace Entry

/-- The outcome that a call says it has brought about. A cancel does not say. -/
def won? : Entry → Option (Outcome Nat)
  | did _ (.complete session) (.flag true) => some (.completed session)
  | did _ (.fail cause) (.flag true) => some (.failed cause)
  | _ => none

/-- The result that a callback or the maker of a call was given. -/
def result? : Entry → Option (Except Fault Nat)
  | ran _ result => some result
  | did _ _ (.result result) => result
  | _ => none

/-- A callback of this name ran. -/
def isRun (tag : String) : Entry → Bool
  | ran other _ => other = tag
  | _ => false

/-- A callback of this name was registered. -/
def isRegistration (tag : String) : Entry → Bool
  | did _ (.onComplete other _) _ => other = tag
  | _ => false

end Entry

/-- What was left behind agrees with an outcome that was there before: no call has brought it about,
whoever was given a result was given this one, and every callback registered on the way has run. -/
structure Agree (o : Outcome Nat) (entries : List Entry) : Prop where
  won : ∀ entry ∈ entries, entry.won? = none
  results : ∀ entry ∈ entries, ∀ result, entry.result? = some result → result = o.result
  runs : ∀ tag, entries.countP (Entry.isRun tag) = entries.countP (Entry.isRegistration tag)

section

variable {o : Outcome Nat} {entries more : List Entry}

theorem Agree.nil : Agree o [] := by
  constructor <;> simp

theorem Agree.append (h : Agree o entries) (h' : Agree o more) : Agree o (entries ++ more) where
  won := by
    intro entry hentry
    rcases List.mem_append.mp hentry with hentry | hentry
    · exact h.won entry hentry
    · exact h'.won entry hentry
  results := by
    intro entry hentry
    rcases List.mem_append.mp hentry with hentry | hentry
    · exact h.results entry hentry
    · exact h'.results entry hentry
  runs := fun tag => by rw [List.countP_append, List.countP_append, h.runs, h'.runs]

/-- A call that registers nothing, with a reply that agrees. -/
theorem Agree.did {who : String} {action : Action} {reply : Reply}
    (hwon : (Entry.did who action reply).won? = none)
    (hresult : ∀ result, (Entry.did who action reply).result? = some result → result = o.result)
    (hnew : ∀ tag, (Entry.did who action reply).isRegistration tag = false) :
    Agree o [.did who action reply] := by
  refine ⟨?_, ?_, fun tag => ?_⟩
  · simpa using hwon
  · simpa using hresult
  · simp [Entry.isRun, hnew tag]

/-- A callback that runs within the call that registers it. -/
theorem Agree.onComplete (h : Agree o entries) (who tag : String) (program : List Action) :
    Agree o (.ran tag o.result :: entries ++ [.did who (.onComplete tag program) .nothing]) := by
  refine ⟨?_, ?_, fun other => ?_⟩
  · intro entry hentry
    simp only [List.cons_append, List.mem_cons, List.mem_append, List.not_mem_nil, or_false] at hentry
    rcases hentry with rfl | hentry | rfl
    · rfl
    · exact h.won entry hentry
    · rfl
  · intro entry hentry
    simp only [List.cons_append, List.mem_cons, List.mem_append, List.not_mem_nil, or_false] at hentry
    rcases hentry with rfl | hentry | rfl
    · exact fun result hresult => (Option.some.inj hresult).symm
    · exact h.results entry hentry
    · exact fun result hresult => by cases hresult
  · have hruns := h.runs other
    by_cases htag : tag = other <;>
      simp [Entry.isRun, Entry.isRegistration, hruns, htag]

end

namespace Scene

/-! ### Programs -/

mutual

/-- A call on a promise with an outcome, wherever it is made. -/
theorem agree_performSettled (o : Outcome Nat) (who : String) (channel : Channel) :
    ∀ action : Action, Agree o ((performSettled o channel action).2.1 ++
      [.did who action (performSettled o channel action).1])
  | .complete _ => .did rfl (fun _ h => by cases h) fun _ => rfl
  | .fail _ => .did rfl (fun _ h => by cases h) fun _ => rfl
  | .cancel => .did rfl (fun _ h => by cases h) fun _ => rfl
  | .closeChannel => .did rfl (fun _ h => by cases h) fun _ => rfl
  | .tryResult => .did rfl (fun _ h => (Option.some.inj h).symm) fun _ => rfl
  | .wait => .did rfl (fun _ h => (Option.some.inj h).symm) fun _ => rfl
  | .describe => .did rfl (fun _ h => by cases h) fun _ => rfl
  | .onComplete tag program => (agree_runProgram o tag channel program).onComplete who tag program

theorem agree_runProgram (o : Outcome Nat) (tag : String) (channel : Channel) :
    ∀ program : List Action, Agree o (runProgram o tag channel program).1
  | [] => .nil
  | action :: rest => by
      have hcall := agree_performSettled o tag channel action
      have hrest := agree_runProgram o tag (performSettled o channel action).2.2 rest
      have heq : (runProgram o tag channel (action :: rest)).1 =
          ((performSettled o channel action).2.1 ++
            [.did tag action (performSettled o channel action).1]) ++
          (runProgram o tag (performSettled o channel action).2.2 rest).1 := by
        rw [List.append_assoc]
        rfl
      rw [heq]
      exact hcall.append hrest

end

/-! ### Calls on a promise that has an outcome -/

/-- The promise has this outcome, its waiters may look, and nobody is left to be told. -/
structure Decided (s : Scene) (o : Outcome Nat) : Prop where
  outcome : s.promise.outcome = some o
  done : s.promise.done = true
  callbacks : s.promise.callbacks = []

variable {s : Scene} {o : Outcome Nat}

theorem Decided.of_promise_eq {s' : Scene} (h : s.Decided o) (hpromise : s'.promise = s.promise) :
    s'.Decided o := by
  obtain ⟨houtcome, hdone, hcallbacks⟩ := h
  constructor <;> rw [hpromise] <;> assumption

theorem Decided.tryResult (h : s.Decided o) : s.promise.tryResult = some o.result := by
  rw [Promise.tryResult, h.outcome, Option.map_some]

theorem Decided.poll (h : s.Decided o) : s.promise.poll = some o.result := by
  rw [Promise.poll, h.done, if_pos rfl, h.tryResult, Option.getD_some]

/-- A later outcome is refused. -/
theorem Decided.settle (h : s.Decided o) (other : Outcome Nat) : s.settle other = (false, [], s) := by
  rw [Scene.settle, settle?, decide?, h.outcome]
  rfl

/-- A later callback runs at once. -/
theorem Decided.register (h : s.Decided o) (callback : Callback) :
    s.register callback = runCallback o s callback := by
  rw [Scene.register, Promise.register, h.outcome]

/-- The words for a promise tell its outcome and no more. -/
theorem describe_congr {p : Promise Nat Callback} (h : p.outcome = some o) (channel : ChannelId) :
    p.describe channel = Promise.describe ({ outcome := some o } : Promise Nat Callback) channel := by
  have hstate : p.state = Promise.state ({ outcome := some o } : Promise Nat Callback) := by
    rw [Promise.state, h, Promise.state]
  unfold Promise.describe
  rw [hstate]

/-- What callbacks do is what anybody could do. -/
theorem Decided.perform_eq (h : s.Decided o) (action : Action) :
    s.perform action = ((performSettled o s.channel action).1,
      (performSettled o s.channel action).2.1,
      { s with channel := (performSettled o s.channel action).2.2 }) := by
  cases action with
  | complete session => rw [perform, h.settle, performSettled]
  | fail cause => rw [perform, h.settle, performSettled]
  | cancel =>
      simp only [perform, cancel, h.settle, performSettled, isCompleted, h.outcome, Option.any_some]
      split <;> rfl
  | closeChannel => rfl
  | tryResult => rw [perform, h.tryResult, performSettled]
  | wait => rw [perform, h.poll, performSettled]
  | describe =>
      rw [perform, performSettled, describe_congr h.outcome s.channel.id]
  | onComplete tag program =>
      simp only [perform, h.register, runCallback, performSettled]

theorem Decided.promise_perform (h : s.Decided o) (action : Action) :
    (s.perform action).2.2.promise = s.promise := by
  rw [h.perform_eq]

theorem Decided.agree_perform (h : s.Decided o) (who : String) (action : Action) :
    Agree o ((s.perform action).2.1 ++ [.did who action (s.perform action).1]) := by
  rw [h.perform_eq]
  exact agree_performSettled o who s.channel action

/-- Makes calls one after the other. -/
def performAll (s : Scene) (who : String) : List Action → List Entry × Scene
  | [] => ([], s)
  | action :: rest =>
      let (reply, entries, s) := s.perform action
      let (more, s) := performAll s who rest
      (entries ++ .did who action reply :: more, s)

theorem Decided.performAll_eq (h : s.Decided o) (who : String) (actions : List Action) :
    s.performAll who actions = ((runProgram o who s.channel actions).1,
      { s with channel := (runProgram o who s.channel actions).2 }) := by
  induction actions generalizing s with
  | nil => rfl
  | cons action rest ih =>
      have hrest := ih (s := { s with channel := (performSettled o s.channel action).2.2 })
        (h.of_promise_eq rfl)
      simp only [performAll, h.perform_eq action, runProgram, hrest]

/-! ### Callbacks -/

/-- Callbacks are handed an outcome one after the other. A program makes its calls as anybody would,
before the next callback runs; a thread goes on with the result. -/
inductive Handed (o : Outcome Nat) : Scene → List Callback → List Entry → Scene → Prop
  | nil (s : Scene) : Handed o s [] [] s
  | program {s s' s'' : Scene} {tag : String} {actions : List Action} {rest : List Callback}
      {entries more : List Entry} (h : s.performAll tag actions = (entries, s'))
      (hrest : Handed o s' rest more s'') :
      Handed o s (.program tag actions :: rest) (.ran tag o.result :: entries ++ more) s''
  | thread {s s' : Scene} {rest : List Callback} {more : List Entry}
      (hrest : Handed o { s with joined := s.joined ++ [o.result] } rest more s') :
      Handed o s (.thread :: rest) more s'

theorem Decided.handed (h : s.Decided o) (callbacks : List Callback) :
    Handed o s callbacks (runCallbacks o s callbacks).1 (runCallbacks o s callbacks).2 := by
  induction callbacks generalizing s with
  | nil => exact .nil s
  | cons callback rest ih =>
      cases callback with
      | program tag actions => exact .program (h.performAll_eq tag actions) (ih (h.of_promise_eq rfl))
      | thread => exact .thread (ih (h.of_promise_eq rfl))

/-- How many of some callbacks are programs of this name. -/
def programs (tag : String) (callbacks : List Callback) : Nat :=
  callbacks.countP fun
    | .program other _ => other = tag
    | .thread => false

/-- How many of some callbacks are threads. -/
def threads (callbacks : List Callback) : Nat :=
  callbacks.countP fun
    | .program _ _ => false
    | .thread => true

/-- What is left behind by the callbacks that a transition hands out: each of them has run. -/
structure RunAll (o : Outcome Nat) (s : Scene) (callbacks : List Callback) (entries : List Entry)
    (s' : Scene) : Prop where
  promise : s'.promise = s.promise
  waiting : s'.waiting = s.waiting
  joined : s'.joined = s.joined ++ List.replicate (threads callbacks) o.result
  won : ∀ entry ∈ entries, entry.won? = none
  results : ∀ entry ∈ entries, ∀ result, entry.result? = some result → result = o.result
  runs : ∀ tag, entries.countP (Entry.isRun tag) =
    entries.countP (Entry.isRegistration tag) + programs tag callbacks

theorem Decided.runAll (h : s.Decided o) (callbacks : List Callback) :
    RunAll o s callbacks (runCallbacks o s callbacks).1 (runCallbacks o s callbacks).2 := by
  induction callbacks generalizing s with
  | nil => constructor <;> simp [runCallbacks, threads, programs]
  | cons callback rest ih =>
      cases callback with
      | program tag actions =>
          have hprogram := agree_runProgram o tag s.channel actions
          have hrest := ih (s := { s with channel := (runProgram o tag s.channel actions).2 })
            (h.of_promise_eq rfl)
          refine ⟨hrest.promise, hrest.waiting, ?_, ?_, ?_, fun other => ?_⟩
          · simpa [runCallbacks, runCallback, threads] using hrest.joined
          · intro entry hentry
            simp only [runCallbacks, runCallback, List.cons_append, List.mem_cons,
              List.mem_append] at hentry
            rcases hentry with rfl | hentry | hentry
            · rfl
            · exact hprogram.won entry hentry
            · exact hrest.won entry hentry
          · intro entry hentry
            simp only [runCallbacks, runCallback, List.cons_append, List.mem_cons,
              List.mem_append] at hentry
            rcases hentry with rfl | hentry | hentry
            · exact fun result hresult => (Option.some.inj hresult).symm
            · exact hprogram.results entry hentry
            · exact hrest.results entry hentry
          · have hruns := hrest.runs other
            have hnested := hprogram.runs other
            have hregistrations : (Entry.ran tag o.result).isRegistration other = false := rfl
            have hprograms : programs other (.program tag actions :: rest) =
                programs other rest + if (Entry.ran tag o.result).isRun other then 1 else 0 :=
              List.countP_cons
            simp only [runCallbacks, runCallback, List.countP_cons, List.countP_append,
              List.cons_append, hregistrations, hprograms, hruns, hnested, Bool.false_eq_true, if_false]
            omega
      | thread =>
          have hrest := ih (s := { s with joined := s.joined ++ [o.result] }) (h.of_promise_eq rfl)
          refine ⟨hrest.promise, hrest.waiting, ?_, hrest.won, hrest.results, fun other => ?_⟩
          · simpa [runCallbacks, runCallback, threads, List.replicate_succ] using hrest.joined
          · simpa [runCallbacks, runCallback, programs] using hrest.runs other

end Scene

end SpdySessions.Promise
