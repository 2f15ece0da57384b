import SpdySessions.Proofs.Promise.Settling

/-! Cancelling and the channel. A cancel asks for an outcome, lets the callbacks run and only then looks
at the outcome again, to close the channel unless there is a session. The callbacks may have called
anything in between, but the outcome is there by then: so the second look finds the one that the calls
from inside found. What becomes of the channel can be read off the calls that were made, whoever made
them: it is closed by those that close it on purpose and, if there is no session, by the cancels. -/

namespace SpdySessions

/-- The channel after calls of which some may have closed it. -/
def Channel.closedIf (channel : Channel) (closing : Bool) : Channel :=
  { channel with isOpen := channel.isOpen && !closing }

namespace Channel

@[simp] theorem closedIf_false (channel : Channel) : channel.closedIf false = channel := by
  rw [closedIf, Bool.not_false, Bool.and_true]

@[simp] theorem closedIf_true (channel : Channel) : channel.closedIf true = channel.close.2 := by
  rw [closedIf, Bool.not_true, Bool.and_false]
  rfl

@[simp] theorem closedIf_closedIf (channel : Channel) (a b : Bool) :
    (channel.closedIf a).closedIf b = channel.closedIf (a || b) := by
  simp [closedIf, Bool.and_assoc]

end Channel

namespace Promise

namespace Entry

/-- Somebody cancelled. -/
def isCancel : Entry → Bool
  | did _ .cancel _ => true
  | _ => false

/-- Somebody closed the channel on purpose. -/
def isShut : Entry → Bool
  | did _ .closeChannel _ => true
  | _ => false

/-- The call closes the channel of a promise that has, or has not, got a session. -/
def closes (completed : Bool) (entry : Entry) : Bool :=
  entry.isShut || entry.isCancel && !completed

theorem closes_of_not_cancel {entry : Entry} (h : entry.isCancel = false) (completed : Bool) :
    entry.closes completed = entry.isShut := by
  rw [closes, h, Bool.false_and, Bool.or_false]

end Entry

namespace Scene

variable {s s₀ : Scene} {o : Outcome Nat} {u : Use} {uses : List Use} {entries : List Entry}
  {told : List (String × Except Fault Nat)}

/-! ### Outcomes

These hold of any scene, also of one in which waiters may not look yet. -/

theorem promise_runCallback (o : Outcome Nat) (s : Scene) (callback : Callback) :
    (runCallback o s callback).2.promise = s.promise := by
  cases callback <;> rfl

theorem promise_runCallbacks (o : Outcome Nat) (s : Scene) (callbacks : List Callback) :
    (runCallbacks o s callbacks).2.promise = s.promise := by
  induction callbacks generalizing s with
  | nil => rfl
  | cons callback rest ih => exact (ih _).trans (promise_runCallback o s callback)

theorem settle_of_outcome (h : s.promise.outcome = some o) (other : Outcome Nat) :
    s.settle other = (false, [], s) := by
  rw [settle, settle?, decide?, h]
  rfl

theorem outcome_settle (s : Scene) (o : Outcome Nat) :
    (s.settle o).2.2.promise.outcome = s.promise.outcome.or (some o) := by
  cases h : s.promise.outcome with
  | none => rw [settle_of_pending h, promise_runCallbacks]; rfl
  | some first => rw [settle_of_outcome h, h]; rfl

/-- The second look: what the callbacks left behind decides about the channel. -/
theorem cancel_eq (s : Scene) :
    s.cancel = (true, (s.settle .cancelled).2.1, { (s.settle .cancelled).2.2 with
      channel := (s.settle .cancelled).2.2.channel.closedIf
        (!(s.settle .cancelled).2.2.promise.isCompleted) }) := by
  rw [cancel]
  cases h : (s.settle .cancelled).2.2.promise.isCompleted <;> simp [h]

theorem outcome_cancel (s : Scene) :
    s.cancel.2.2.promise.outcome = s.promise.outcome.or (some .cancelled) := by
  rw [← outcome_settle, cancel_eq]

theorem outcome_register (s : Scene) (callback : Callback) :
    (s.register callback).2.promise.outcome = s.promise.outcome := by
  cases h : s.promise.outcome with
  | none => simp only [register, Promise.register, h]
  | some first => simp only [register, Promise.register, h, promise_runCallback]

/-- The first call that asks for an outcome gives the promise its own. -/
theorem outcome_perform (s : Scene) (action : Action) :
    (s.perform action).2.2.promise.outcome = s.promise.outcome.or action.outcome? := by
  cases action with
  | complete session => exact s.outcome_settle (.completed session)
  | fail cause => exact s.outcome_settle (.failed cause)
  | cancel => exact s.outcome_cancel
  | onComplete tag program => exact (s.outcome_register _).trans (Option.or_none).symm
  | _ => exact (Option.or_none).symm

/-- The outcome that a use asks for. -/
def Use.outcome? : Use → Option (Outcome Nat)
  | .call _ action => action.outcome?
  | _ => none

theorem outcome_use (s : Scene) (u : Use) :
    (s.use u).2.2.promise.outcome = s.promise.outcome.or u.outcome? := by
  cases u with
  | call who action => exact s.outcome_perform action
  | await who => exact (Option.or_none).symm
  | block => exact (s.outcome_register .thread).trans (Option.or_none).symm
  | look =>
      refine Eq.trans ?_ (Option.or_none).symm
      rw [use, wake]
      split <;> rfl

theorem Course.outcome_eq (h : Course s₀ uses entries told s) :
    s.promise.outcome = s₀.promise.outcome.or (uses.findSome? Use.outcome?) := by
  induction h with
  | refl => exact (Option.or_none).symm
  | step h u ih =>
      rw [outcome_use, ih, List.findSome?_append, Option.or_assoc, List.findSome?_singleton]

/-! ### What closes the channel -/

mutual

/-- A call on a promise with an outcome, wherever it is made. -/
theorem channel_performSettled (o : Outcome Nat) (who : String) (channel : Channel) :
    ∀ action : Action, (performSettled o channel action).2.2 =
      channel.closedIf (((performSettled o channel action).2.1 ++
        [Entry.did who action (performSettled o channel action).1]).any (Entry.closes o.isCompleted))
  | .complete _ => (channel.closedIf_false).symm
  | .fail _ => (channel.closedIf_false).symm
  | .cancel => by
      cases h : o.isCompleted <;>
        simp [performSettled, h, Entry.closes, Entry.isShut, Entry.isCancel]
  | .closeChannel => by simp [performSettled, Entry.closes, Entry.isShut]
  | .tryResult => (channel.closedIf_false).symm
  | .wait => (channel.closedIf_false).symm
  | .describe => (channel.closedIf_false).symm
  | .onComplete tag program => by
      have hprogram := channel_runProgram o tag channel program
      simpa [performSettled, Entry.closes, Entry.isShut, Entry.isCancel] using hprogram

theorem channel_runProgram (o : Outcome Nat) (tag : String) (channel : Channel) :
    ∀ program : List Action, (runProgram o tag channel program).2 =
      channel.closedIf ((runProgram o tag channel program).1.any (Entry.closes o.isCompleted))
  | [] => (channel.closedIf_false).symm
  | action :: rest => by
      have hcall := channel_performSettled o tag channel action
      have hrest := channel_runProgram o tag (performSettled o channel action).2.2 rest
      calc (runProgram o tag channel (action :: rest)).2
        _ = (runProgram o tag (performSettled o channel action).2.2 rest).2 := rfl
        _ = (channel.closedIf _).closedIf _ := hrest.trans (congrArg (Channel.closedIf · _) hcall)
        _ = channel.closedIf ((runProgram o tag channel (action :: rest)).1.any _) := by
            rw [Channel.closedIf_closedIf, ← List.any_append, List.append_assoc]
            rfl

end

theorem channel_runCallback (o : Outcome Nat) (s : Scene) (callback : Callback) :
    (runCallback o s callback).2.channel =
      s.channel.closedIf ((runCallback o s callback).1.any (Entry.closes o.isCompleted)) := by
  cases callback with
  | program tag actions =>
      simpa [runCallback, Entry.closes, Entry.isShut, Entry.isCancel] using
        channel_runProgram o tag s.channel actions
  | thread => exact (s.channel.closedIf_false).symm

theorem channel_runCallbacks (o : Outcome Nat) (s : Scene) (callbacks : List Callback) :
    (runCallbacks o s callbacks).2.channel =
      s.channel.closedIf ((runCallbacks o s callbacks).1.any (Entry.closes o.isCompleted)) := by
  induction callbacks generalizing s with
  | nil => exact (s.channel.closedIf_false).symm
  | cons callback rest ih =>
      have hrest := ih (runCallback o s callback).2
      rw [channel_runCallback, Channel.closedIf_closedIf, ← List.any_append] at hrest
      exact hrest

theorem isCompleted_of_outcome (h : s.promise.outcome = some o) :
    s.promise.isCompleted = o.isCompleted := by
  rw [isCompleted, h, Option.any_some]

/-- Giving the promise an outcome leaves the channel to the callbacks. -/
theorem channel_settle (s : Scene) (o : Outcome Nat) :
    (s.settle o).2.2.channel = s.channel.closedIf
      ((s.settle o).2.1.any (Entry.closes (s.settle o).2.2.promise.isCompleted)) := by
  cases h : s.promise.outcome with
  | none =>
      have houtcome := (s.outcome_settle o).trans (by rw [h, Option.none_or])
      rw [isCompleted_of_outcome houtcome, settle_of_pending h]
      exact channel_runCallbacks o (s.decide o) _
  | some first => rw [settle_of_outcome h]; exact (s.channel.closedIf_false).symm

theorem channel_register (s : Scene) (callback : Callback) :
    (s.register callback).2.channel = s.channel.closedIf
      ((s.register callback).1.any (Entry.closes (s.register callback).2.promise.isCompleted)) := by
  cases h : s.promise.outcome with
  | none =>
      simp only [register, Promise.register, h]
      exact (s.channel.closedIf_false).symm
  | some first =>
      have houtcome := (s.outcome_register callback).trans h
      rw [isCompleted_of_outcome houtcome]
      simp only [register, Promise.register, h]
      exact channel_runCallback first s callback

/-- What a call does to the channel can be read off what it leaves behind. -/
theorem channel_perform (s : Scene) (who : String) (action : Action) :
    (s.perform action).2.2.channel =
      s.channel.closedIf (((s.perform action).2.1 ++ [Entry.did who action (s.perform action).1]).any
        (Entry.closes (s.perform action).2.2.promise.isCompleted)) := by
  have hlast : ∀ (entry : Entry) (completed : Bool),
      [entry].any (Entry.closes completed) = entry.closes completed := by simp
  rw [List.any_append, hlast, ← Channel.closedIf_closedIf]
  cases action with
  | complete session =>
      exact (s.channel_settle (.completed session)).trans (Channel.closedIf_false _).symm
  | fail cause =>
      exact (s.channel_settle (.failed cause)).trans (Channel.closedIf_false _).symm
  | cancel =>
      have hsettle := s.channel_settle .cancelled
      simp only [perform, cancel_eq, hsettle]
      rfl
  | onComplete tag program =>
      exact (s.channel_register (.program tag program)).trans (Channel.closedIf_false _).symm
  | closeChannel => simp [perform, Entry.closes, Entry.isShut]
  | _ => exact ((Channel.closedIf_false _).trans (Channel.closedIf_false _)).symm

theorem channel_use (s : Scene) (u : Use) :
    (s.use u).2.2.channel = s.channel.closedIf
      ((s.use u).1.any (Entry.closes (s.use u).2.2.promise.isCompleted)) := by
  cases u with
  | call who action => exact s.channel_perform who action
  | await who => exact (s.channel.closedIf_false).symm
  | block =>
      cases h : s.promise.outcome <;> simp [use, block, register, Promise.register, h, runCallback]
  | look =>
      refine Eq.trans ?_ (s.channel.closedIf_false).symm
      rw [use, wake]
      split <;> rfl

/-- Before there is an outcome nobody has cancelled. -/
theorem not_cancel_of_pending (h : (s.use u).2.2.promise.outcome = none) :
    ∀ entry ∈ (s.use u).1, entry.isCancel = false := by
  obtain ⟨hpending, hnone⟩ := Option.or_eq_none_iff.mp ((s.outcome_use u).symm.trans h)
  cases u with
  | call who action =>
      cases action with
      | complete session => cases hnone
      | fail cause => cases hnone
      | cancel => cases hnone
      | onComplete tag program =>
          simp [use, perform, register, Promise.register, hpending, Entry.isCancel]
      | _ => simp [use, perform, Entry.isCancel]
  | _ => simp [use]

/-- What has become of the channel can be read off all calls that were made. -/
theorem Course.channel_eq (h : Course s₀ uses entries told s) :
    (s.promise.outcome = none → ∀ entry ∈ entries, entry.isCancel = false) ∧
    s.channel = s₀.channel.closedIf (entries.any (Entry.closes s.promise.isCompleted)) := by
  induction h with
  | refl => exact ⟨fun _ => by simp, (Channel.closedIf_false _).symm⟩
  | @step uses entries told s h u ih =>
      obtain ⟨hcancel, hchannel⟩ := ih
      refine ⟨fun hnone entry hentry => ?_, ?_⟩
      · have hpending := (Option.or_eq_none_iff.mp ((s.outcome_use u).symm.trans hnone)).1
        rcases List.mem_append.mp hentry with hentry | hentry
        · exact hcancel hpending entry hentry
        · exact not_cancel_of_pending hnone entry hentry
      · -- The calls so far: either there was an outcome already, or no cancel is among them.
        have hsofar : entries.any (Entry.closes (s.use u).2.2.promise.isCompleted) =
            entries.any (Entry.closes s.promise.isCompleted) := by
          cases ho : s.promise.outcome with
          | none =>
              rw [List.any_eq, List.any_eq, decide_eq_decide]
              refine exists_congr fun entry => and_congr_right fun hentry => ?_
              rw [Entry.closes_of_not_cancel (hcancel ho entry hentry),
                Entry.closes_of_not_cancel (hcancel ho entry hentry)]
          | some o =>
              have hstays := s.outcome_use u
              rw [ho, Option.some_or] at hstays
              rw [isCompleted_of_outcome ho, isCompleted_of_outcome hstays]
        rw [channel_use, hchannel, Channel.closedIf_closedIf, ← hsofar, List.any_append]

/-! ### Cancelling -/

/-- What a cancel does. It says the same in any case. When it is over, either there is a session, and
it has changed nothing, or the channel is closed. If there was an outcome before, no callback runs and
nobody else is told anything. -/
structure Cancels (s : Scene) : Prop where
  flag : (s.perform .cancel).1 = .flag true
  outcome : (s.perform .cancel).2.2.promise.outcome = s.promise.outcome.or (some .cancelled)
  completed : (s.perform .cancel).2.2.promise.isCompleted = true → (s.perform .cancel).2 = ([], s)
  closed : (s.perform .cancel).2.2.promise.isCompleted = false →
    (s.perform .cancel).2.2.channel.isOpen = false
  late : s.promise.outcome.isSome = true → (s.perform .cancel).2 =
    ([], { s with channel := s.channel.closedIf (!s.promise.isCompleted) })

theorem cancels (s : Scene) : Cancels s where
  flag := rfl
  outcome := s.outcome_perform .cancel
  completed := by
    intro hcompleted
    cases h : s.promise.outcome with
    | none =>
        have houtcome := (s.outcome_perform .cancel).trans (by rw [h])
        rw [isCompleted_of_outcome houtcome] at hcompleted
        cases hcompleted
    | some o =>
        have houtcome := (s.outcome_perform .cancel).trans (by rw [h])
        rw [isCompleted_of_outcome houtcome] at hcompleted
        simp [perform, cancel_eq, settle_of_outcome h, isCompleted_of_outcome h, hcompleted]
  closed := by
    intro hopen
    have hcancel : (s.perform .cancel).2.2 = s.cancel.2.2 := rfl
    rw [hcancel, cancel_eq] at hopen ⊢
    simp only at hopen ⊢
    rw [hopen, Bool.not_false, Channel.closedIf_true, Channel.close]
  late := by
    intro hsome
    obtain ⟨o, ho⟩ := Option.isSome_iff_exists.mp hsome
    simp only [perform, cancel_eq, settle_of_outcome ho]

/-- Completing and failing leave the channel to the callbacks, and do nothing once there is an
outcome. -/
structure Spares (s : Scene) (action : Action) : Prop where
  channel : (s.perform action).2.2.channel = s.channel.closedIf
    ((s.perform action).2.1.any (Entry.closes (s.perform action).2.2.promise.isCompleted))
  late : s.promise.outcome.isSome = true → s.perform action = (.flag false, [], s)

theorem spares (s : Scene) {action : Action} (ho : action.outcome? = some o)
    (hcancel : o.isCancelled = false) : Spares s action := by
  cases action with
  | complete session =>
      refine ⟨s.channel_settle (.completed session), fun hsome => ?_⟩
      obtain ⟨first, hfirst⟩ := Option.isSome_iff_exists.mp hsome
      simp only [perform, settle_of_outcome hfirst]
  | fail cause =>
      refine ⟨s.channel_settle (.failed cause), fun hsome => ?_⟩
      obtain ⟨first, hfirst⟩ := Option.isSome_iff_exists.mp hsome
      simp only [perform, settle_of_outcome hfirst]
  | cancel => obtain rfl := Option.some.inj ho; cases hcancel
  | _ => cases ho

/-- How a new promise with this channel has come through what was done with it. At any moment, in the
middle of other calls too, a cancel does what it should, and completing and failing spare the channel.
The outcome is the one that was asked for first. The channel is closed if it was closed before, if
somebody closed it on purpose, or if somebody has cancelled and there is no session; and once there is a
session it stays as it is whatever is called, until somebody closes it on purpose. -/
structure Reckoned (channel : Channel) (uses : List Use) (entries : List Entry) (s : Scene) :
    Prop where
  cancels : ∀ mid : Scene, Cancels mid
  spares : ∀ (mid : Scene) action o, action.outcome? = some o → o.isCancelled = false →
    Spares mid action
  outcome : s.promise.outcome = uses.findSome? Use.outcome?
  cancelled : s.promise.isCancelled = true ↔ uses.findSome? Use.outcome? = some .cancelled
  closed : s.channel.isOpen = false ↔
    channel.isOpen = false ∨ (∃ entry ∈ entries, entry.isShut = true) ∨
      (∃ entry ∈ entries, entry.isCancel = true) ∧ s.promise.isCompleted = false
  stays : s.promise.isCompleted = true → ∀ uses' entries' told' s',
    Course s uses' entries' told' s' → s'.channel = s.channel.closedIf (entries'.any Entry.isShut)

/-- **Cancelling closes the channel unless there is a session.** Whatever has been done with a new
promise, and whatever its callbacks have called. -/
theorem cancel_closes_unless_completed {channel : Channel}
    (h : Course { channel } uses entries told s) : Reckoned channel uses entries s := by
  have houtcome : s.promise.outcome = uses.findSome? Use.outcome? :=
    h.outcome_eq.trans Option.none_or
  refine ⟨Scene.cancels, fun mid _ _ => mid.spares, houtcome, ?_, ?_, ?_⟩
  · rw [isCancelled, houtcome]
    cases uses.findSome? Use.outcome? with
    | none => simp
    | some o => cases o <;> simp [Outcome.isCancelled]
  · have hchannel := congrArg Channel.isOpen h.channel_eq.2
    rw [hchannel, Channel.closedIf, Bool.and_eq_false_iff, Bool.not_eq_false', List.any_eq_true]
    refine or_congr_right ⟨?_, ?_⟩
    · rintro ⟨entry, hentry, hcloses⟩
      rw [Entry.closes, Bool.or_eq_true, Bool.and_eq_true, Bool.not_eq_true'] at hcloses
      rcases hcloses with hshut | ⟨hcancel, hopen⟩
      · exact Or.inl ⟨entry, hentry, hshut⟩
      · exact Or.inr ⟨⟨entry, hentry, hcancel⟩, hopen⟩
    · rintro (⟨entry, hentry, hshut⟩ | ⟨⟨entry, hentry, hcancel⟩, hopen⟩)
      · exact ⟨entry, hentry, by rw [Entry.closes, hshut, Bool.true_or]⟩
      · exact ⟨entry, hentry, by rw [Entry.closes, hcancel, hopen, Bool.not_false, Bool.and_true,
          Bool.or_true]⟩
  · intro hcompleted uses' entries' told' s' hlater
    obtain ⟨o, ho, hsession⟩ := (Option.any_eq_true _ _).mp hcompleted
    have hstays := hlater.outcome_eq
    rw [ho, Option.some_or] at hstays
    have hclosing : Entry.closes true = Entry.isShut := by
      funext entry
      rw [Entry.closes, Bool.not_true, Bool.and_false, Bool.or_false]
    rw [hlater.channel_eq.2, isCompleted_of_outcome hstays, hsession, hclosing]

/-- The connect fails, whoever is told of it tries to complete it and cancels, and the user cancels
again. -/
def givenUp : List Use :=
  [.call "user" (.onComplete "told" [.complete 1, .cancel]), .call "maker" (.fail .notRunning),
    .call "user" .cancel]

theorem givenUp_closes : ∃ entries told s,
    Course { channel := { id := 1, peer := host } } givenUp entries told s ∧
    s.promise.outcome = some (.failed .notRunning) ∧ s.channel.isOpen = false ∧
    Reckoned { id := 1, peer := host } givenUp entries s := by
  have hstart : Course { channel := { id := 1, peer := host } } [] [] []
      { channel := { id := 1, peer := host } } := .refl
  have htold := hstart.step (.call "user" (.onComplete "told" [.complete 1, .cancel]))
  have hcourse := (htold.step (.call "maker" (.fail .notRunning))).step (.call "user" .cancel)
  exact ⟨_, _, _, hcourse, rfl, rfl, cancel_closes_unless_completed hcourse⟩

end Scene

end Promise

end SpdySessions
