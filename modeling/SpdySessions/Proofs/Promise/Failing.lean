import SpdySessions.Proofs.Promise.Settling
import SpdySessions.Proofs.Promise.Waiting
import SpdySessions.Proofs.Wrapping

/-! Failures on their way to those who asked. Whoever fails a promise gives a reason, and everybody who
is told of the failure, on whatever way, is given this reason inside one failed connect. All that can be
asked of a fault looks through failed connects, so the failure that is told is classified as the reason
was, however often the reason had been handed on before. -/

namespace SpdySessions

/-- What is told of an outcome is a fault for two reasons. -/
theorem Outcome.eq_of_result_error {σ : Type} {o : Outcome σ} {fault : Fault}
    (h : o.result = .error fault) :
    o = .cancelled ∧ fault = .cancelled ∨
      ∃ cause, o = .failed cause ∧ fault = .connectFailed cause := by
  cases o with
  | completed session => cases h
  | failed cause => exact Or.inr ⟨cause, rfl, (Except.error.inj h).symm⟩
  | cancelled => exact Or.inl ⟨rfl, (Except.error.inj h).symm⟩

namespace Promise

theorem isCancelled_of_outcome {σ β : Type} {p : Promise σ β} (h : p.outcome = some .cancelled) :
    p.isCancelled = true := by
  rw [isCancelled, h]
  rfl

/-- The call that fails the promise is the one that says so. -/
theorem Entry.eq_of_won_failed {entry : Entry} {cause : Fault}
    (h : entry.won? = some (.failed cause)) : ∃ who, entry = .did who (.fail cause) (.flag true) := by
  cases entry with
  | ran tag result => cases h
  | did who action reply =>
      rw [Entry.won?.eq_def] at h
      split at h
      · cases h
      · next heq =>
          obtain rfl := Outcome.failed.inj (Option.some.inj h)
          exact ⟨_, heq⟩
      · cases h

namespace Scene

variable {s : Scene} {o : Outcome Nat} {uses : List Use} {entries : List Entry}
  {told : List (String × Except Fault Nat)}

/-- The results that anybody has been given, or is given who asks now: callbacks and calls, tasks that
waited, threads that were blocked, one that only tries and one that begins to wait. -/
inductive Given (entries : List Entry) (told : List (String × Except Fault Nat)) (s : Scene) :
    Except Fault Nat → Prop
  | called {entry : Entry} {result : Except Fault Nat} (hentry : entry ∈ entries)
      (h : entry.result? = some result) : Given entries told s result
  | waited {who : String} {result : Except Fault Nat} (h : (who, result) ∈ told) :
      Given entries told s result
  | joined {result : Except Fault Nat} (h : result ∈ s.joined) : Given entries told s result
  | tries {result : Except Fault Nat} (h : s.promise.tryResult = some result) :
      Given entries told s result
  | waits {result : Except Fault Nat} (h : s.promise.poll = some result) :
      Given entries told s result

theorem Pending.not_given (h : Pending uses entries told s) (result : Except Fault Nat) :
    ¬ Given entries told s result := by
  intro hgiven
  cases hgiven with
  | called hentry hresult =>
      rw [h.results _ hentry] at hresult
      cases hresult
  | waited hmem =>
      rw [h.untold] at hmem
      cases hmem
  | joined hmem =>
      rw [h.joined] at hmem
      cases hmem
  | tries htry =>
      rw [Promise.tryResult, h.outcome] at htry
      cases htry
  | waits hpoll =>
      rw [Promise.poll, h.done] at hpoll
      cases hpoll

theorem Over.given_eq (h : Over o uses entries told s) {result : Except Fault Nat}
    (hgiven : Given entries told s result) : result = o.result := by
  cases hgiven with
  | called hentry hresult => exact h.results _ hentry _ hresult
  | waited hmem => exact h.answers _ hmem
  | joined hmem =>
      rw [h.joined] at hmem
      exact List.eq_of_mem_replicate hmem
  | tries htry => exact Option.some.inj (htry.symm.trans h.decided.tryResult)
  | waits hpoll => exact Option.some.inj (hpoll.symm.trans h.decided.poll)

/-- The promise has failed for this reason just if a call says that it has failed it so. -/
theorem Over.failed_iff (h : Over o uses entries told s) (cause : Fault) :
    o = .failed cause ↔ ∃ who, .did who (.fail cause) (.flag true) ∈ entries := by
  constructor
  · rintro rfl
    have hmem : Outcome.failed cause ∈ entries.filterMap Entry.won? := by
      rw [h.won]
      exact List.mem_singleton.mpr rfl
    obtain ⟨entry, hentry, hwon⟩ := List.mem_filterMap.mp hmem
    obtain ⟨who, rfl⟩ := Entry.eq_of_won_failed hwon
    exact ⟨who, hentry⟩
  · rintro ⟨who, hentry⟩
    have hmem : Outcome.failed cause ∈ entries.filterMap Entry.won? :=
      List.mem_filterMap.mpr ⟨_, hentry, rfl⟩
    rw [h.won] at hmem
    cases o with
    | completed session => cases List.mem_singleton.mp hmem
    | failed first => exact (List.mem_singleton.mp hmem).symm
    | cancelled => cases hmem

/-- How failures are handed on. If somebody has failed the promise, everybody is given this reason
inside a failed connect, and nothing else. And a fault that anybody is given comes from a cancel, or it
is classified as the reason for which somebody has failed the promise. -/
structure HandsOn (entries : List Entry) (told : List (String × Except Fault Nat)) (s : Scene) :
    Prop where
  failed : ∀ who cause, .did who (.fail cause) (.flag true) ∈ entries →
    s.promise.tryResult = some (.error (.connectFailed cause)) ∧
    ∀ result, Given entries told s result → result = .error (.connectFailed cause)
  given : ∀ fault, Given entries told s (.error fault) →
    s.promise.isCancelled = true ∧ fault = .cancelled ∨
    ∃ who cause, .did who (.fail cause) (.flag true) ∈ entries ∧ fault = .connectFailed cause ∧
      fault.Alike cause

theorem Pending.handsOn (h : Pending uses entries told s) : HandsOn entries told s where
  failed := by
    intro who cause hentry
    cases h.won _ hentry
  given := fun fault hgiven => absurd hgiven (h.not_given (.error fault))

theorem Over.handsOn (h : Over o uses entries told s) : HandsOn entries told s where
  failed := by
    intro who cause hentry
    obtain rfl := (h.failed_iff cause).mpr ⟨who, hentry⟩
    exact ⟨h.decided.tryResult, fun result hgiven => h.given_eq hgiven⟩
  given := by
    intro fault hgiven
    rcases Outcome.eq_of_result_error (h.given_eq hgiven).symm with ⟨rfl, rfl⟩ | ⟨cause, rfl, rfl⟩
    · exact Or.inl ⟨isCancelled_of_outcome h.decided.outcome, rfl⟩
    · obtain ⟨who, hentry⟩ := (h.failed_iff cause).mp rfl
      exact Or.inr ⟨who, cause, hentry, rfl, Fault.alike_connectFailed cause⟩

theorem Course.handsOn {channel : Channel} (h : Course { channel } uses entries told s) :
    HandsOn entries told s := by
  rcases h.pending_or_over with hpending | ⟨o, hover⟩
  · exact hpending.handsOn
  · exact hover.handsOn

end Scene

namespace Lobby

variable {σ β : Type} {l : Lobby σ β} {o : Outcome σ}

/-- An outcome was there before or has been asked for. -/
theorem outcome_or_asked {move : Move σ β} (h : (l.step move).promise.outcome = some o) :
    l.promise.outcome = some o ∨ move = .decide o := by
  cases ho : l.promise.outcome with
  | some first => exact Or.inl ((outcome_step ho move).symm.trans h)
  | none =>
      cases move with
      | decide outcome =>
          simp only [step, decide?, ho] at h
          exact Or.inr (congrArg _ (Option.some.inj h))
      | mark =>
          rw [step] at h
          split at h <;> cases ho.symm.trans h
      | register callback =>
          simp only [step, Promise.register, ho] at h
          cases h
      | _ => cases ho.symm.trans h

theorem outcome_or_mem {moves : List (Move σ β)} (h : (l.run moves).promise.outcome = some o) :
    l.promise.outcome = some o ∨ .decide o ∈ moves := by
  induction moves generalizing l with
  | nil => exact Or.inl h
  | cons move moves ih =>
      rcases ih h with hfirst | hmem
      · rcases outcome_or_asked hfirst with hbefore | rfl
        · exact Or.inl hbefore
        · exact Or.inr List.mem_cons_self
      · exact Or.inr (List.mem_cons_of_mem _ hmem)

/-- How failures reach those who wait, perhaps for a limited time: a wait returns a fault because of a
cancel, because its own time is over, or classified as the reason for which the promise was failed. -/
def HandsOn (start : Lobby σ β) (moves : List (Move σ β)) : Prop :=
  ∀ (i : Nat) (w : Wait σ) fault, (start.run moves).waits[i]? = some w →
    w.stage = .returned (.error fault) → (start.run moves).held = true →
    (start.run moves).promise.isCancelled = true ∧ fault = .cancelled ∨
    (∃ limit, w.limit = some limit ∧ fault = .connectionTimeout limit.millis) ∨
    ∃ cause, .decide (.failed cause) ∈ moves ∧
      (start.run moves).promise.outcome = some (.failed cause) ∧ fault = .connectFailed cause ∧
      fault.Alike cause

theorem handsOn_opened (channel : Channel) (limits : List (Option Span)) (moves : List (Move σ β)) :
    HandsOn (opened channel limits) moves := by
  intro i w fault hw hstage hheld
  have hsound : ((opened channel limits : Lobby σ β).run moves).Sound :=
    (sound_opened channel limits).run moves
  rcases (hsound.good i w hw).returned _ hstage hheld with ⟨o, ho, hresult⟩ | ⟨limit, hlimit, hresult⟩
  · rcases Outcome.eq_of_result_error hresult.symm with ⟨rfl, rfl⟩ | ⟨cause, rfl, rfl⟩
    · exact Or.inl ⟨isCancelled_of_outcome ho, rfl⟩
    · rcases outcome_or_mem ho with hnone | hmem
      · cases hnone
      · exact Or.inr (Or.inr ⟨cause, hmem, ho, rfl, Fault.alike_connectFailed cause⟩)
  · exact Or.inr (Or.inl ⟨limit, hlimit, Except.error.inj hresult⟩)

end Lobby

/-- **Failures keep their class.** All that can be asked of a fault looks through any number of failed
connects around it: the class is the same, the words have the same beginning once for each, and as many
more stand behind it. No fault is in a class for another reason than the innermost, every timeout is a
fault of the connection, and no fault of the connection is one of the state. So whatever is done with a
new promise, and whoever waits for it, each failure that is told is classified as the reason for which
the promise was failed. -/
theorem failures_keep_their_class (others : Fault.Others) :
    (∀ (n : Nat) (cause : Fault), cause.SeenThrough others n) ∧
    (∀ fault : Fault, fault.Agrees others ∧ fault.Classified) ∧
    (∀ channel uses entries told s, Scene.Course { channel } uses entries told s →
      Scene.HandsOn entries told s) ∧
    ∀ (σ β : Type) channel limits (moves : List (Move σ β)),
      Lobby.HandsOn (Lobby.opened channel limits) moves := by
  refine ⟨fun n cause => Fault.seenThrough others n cause, ?_, ?_, ?_⟩
  · intro fault
    exact ⟨fault.agrees others, fault.classified⟩
  · intro channel uses entries told s h
    exact h.handsOn
  · intro σ β channel limits moves
    exact Lobby.handsOn_opened channel limits moves

/-- What other libraries say, with nothing behind it. -/
def usual : Fault.Others where
  tls := ⟨"peer sent no certificates", []⟩
  io kind := ⟨kind.name, []⟩
  json category := ⟨category.name, []⟩

def refused : Fault := .io .connectionRefused (some "refused")

/-- A promise is failed because another one was, whose peer had refused the connection. A callback, a
thread and a task are told, and the callback asks once more. -/
def letDown : List Scene.Use :=
  [.call "user" (.onComplete "told" [.tryResult, .fail .notRunning]), .block, .await "task",
    .call "maker" (.fail (.connectFailed refused)), .look]

theorem letDown_keeps_class : ∃ entries told s,
    Scene.Course { channel := { id := 1, peer := Scene.host } } letDown entries told s ∧
    told = [("task", .error (Fault.connectFailed^[2] refused))] ∧
    (Fault.connectFailed^[2] refused).isConnectionError = true ∧
    (Fault.connectFailed^[2] refused).text usual =
      "Connect failed: Connect failed: IO error: refused" ∧
    ((Fault.connectFailed^[2] refused).chain usual).length = 3 ∧
    Scene.HandsOn entries told s := by
  have hlaws := failures_keep_their_class usual
  have hseen := hlaws.1 2 refused
  have hstart : Scene.Course { channel := { id := 1, peer := Scene.host } } [] [] []
      { channel := { id := 1, peer := Scene.host } } := .refl
  have hcalled := hstart.step (.call "user" (.onComplete "told" [.tryResult, .fail .notRunning]))
  have hwaiting := (hcalled.step .block).step (.await "task")
  have hfailed := hwaiting.step (.call "maker" (.fail (.connectFailed refused)))
  have hcourse := hfailed.step .look
  refine ⟨_, _, _, hcourse, rfl, hseen.alike.connection, ?_, hseen.longer, ?_⟩
  · rw [hseen.text]
    rfl
  · exact hlaws.2.2.1 _ _ _ _ _ hcourse

end Promise

end SpdySessions
