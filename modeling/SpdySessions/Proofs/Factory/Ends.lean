import SpdySessions.Proofs.Factory.Accepted
import SpdySessions.Proofs.Factory.Clean

/-! Every end cleans up. However an attempt ends, its promise has an outcome then, its channel is closed,
nothing keeps track of it any more, and its listener has been told of the end of the connection once if
there was a session, and never if there was none. -/

namespace SpdySessions

namespace Factory

variable {codec : HeaderCodec} {f f' : Factory codec} {id : ChannelId} {accepted : List ChannelId}

/-- The moments of a stop are no events of their own here: a stop is whole. -/
def Event.isWhole : Event → Bool
  | .markStopping => false
  | .retire => false
  | .takeDown _ => false
  | .stopConnector _ => false
  | .markStopped => false
  | _ => true

/-- One step, with the attempts that it accepts; starts and stops are whole. -/
inductive WholeStep (f : Factory codec) : List ChannelId → Factory codec → Prop
  | registered {run client : Nat} {peer : Address} {listener : Session.Listener} {f' : Factory codec}
      (h : f.register run client peer listener = (.ok (), f')) : WholeStep f [f.attempts.length] f'
  | refused {run client : Nat} {peer : Address} {listener : Session.Listener} {cause : Fault}
      {f' : Factory codec} (h : f.register run client peer listener = (.error cause, f')) :
      WholeStep f [] f'
  | connected {client : Nat} {peer : Address} {listener : Session.Listener}
      {socket : Except Fault Unit} {id : ChannelId} {f' : Factory codec}
      (h : f.connect client peer listener socket = (.ok id, f')) : WholeStep f [id] f'
  | unconnected {client : Nat} {peer : Address} {listener : Session.Listener}
      {socket : Except Fault Unit} {cause : Fault} {f' : Factory codec}
      (h : f.connect client peer listener socket = (.error cause, f')) : WholeStep f [] f'
  | event (e : Event) (hwhole : e.isWhole = true) : WholeStep f [] (f.after e)

/-- Such steps one after the other, with all the attempts that were accepted. -/
inductive WholeCourse (f : Factory codec) : List ChannelId → Factory codec → Prop
  | refl : WholeCourse f [] f
  | step {accepted new : List ChannelId} {f' f'' : Factory codec} (h : WholeCourse f accepted f')
      (hstep : WholeStep f' new f'') : WholeCourse f (accepted ++ new) f''

theorem WholeStep.step {new : List ChannelId} (h : WholeStep f new f') : Step f new f' := by
  cases h with
  | registered h => exact .registered h
  | refused h => exact .refused h
  | connected h => exact .connected h
  | unconnected h => exact .unconnected h
  | event e _ => exact .event e

theorem WholeCourse.course (h : WholeCourse f accepted f') : Course f accepted f' := by
  induction h with
  | refl => exact .refl
  | step h hstep ih => exact ih.step hstep.step

theorem Clean.after (h : Clean accepted none f) {e : Event} (hwhole : e.isWhole = true) :
    Clean accepted none (f.after e) := by
  cases e with
  | newClient number =>
      refine h.quiet ?_
      show f.Quiet (f.newClient number).2
      unfold newClient
      split
      · exact .refl f
      · exact quiet_of_same rfl rfl rfl rfl rfl rfl
  | configure client change => exact h.quiet (quiet_of_same rfl rfl rfl rfl rfl rfl)
  | start executor => exact h.start executor
  | markStopping => cases hwhole
  | retire => cases hwhole
  | takeDown component => cases hwhole
  | stopConnector run => cases hwhole
  | markStopped => cases hwhole
  | stop => exact h.quiet (quiet_stop f)
  | drop => exact h.quiet (quiet_takeAllDown f)
  | onComplete id callback => exact h.quiet (quiet_onComplete f id callback)
  | call id c => exact h.quiet (quiet_call f id c)
  | cancel id => exact h.quiet (quiet_cancel f id)
  | close id => exact h.quiet (quiet_close f id)
  | noticeClosed id => exact h.noticeClosed id
  | dialed id answer => exact h.dialed id answer
  | establish id engine => exact h.establish id engine
  | secured id handshake => exact h.secured id handshake
  | turn id socket => exact h.turn id socket
  | pass span => exact h.quiet (quiet_of_same rfl rfl rfl rfl rfl rfl)
  | fire run => exact h.quiet (quiet_fire f run)

theorem Clean.connect (h : Clean accepted none f) (client : Nat) (peer : Address)
    (listener : Session.Listener) (socket : Except Fault Unit) :
    Clean (accepted ++ (f.connect client peer listener socket).1.toOption.toList) none
      (f.connect client peer listener socket).2 := by
  unfold Factory.connect
  split
  · split
    · exact (List.append_nil accepted).symm ▸ h
    · dsimp only
      split
      · rename_i fault f' heq
        have hrefused : Clean (accepted ++ []) none f' := h.register heq nofun
        exact hrefused.quiet (quiet_close f' _)
      · rename_i f' heq
        exact h.register heq fun id hid => ⟨rfl, List.mem_singleton.mp hid⟩
  · exact (List.append_nil accepted).symm ▸ h

theorem WholeStep.clean {new : List ChannelId} (hstep : WholeStep f new f')
    (h : Clean accepted none f) : Clean (accepted ++ new) none f' := by
  cases hstep with
  | registered heq => exact h.register heq fun id hid => ⟨rfl, List.mem_singleton.mp hid⟩
  | refused heq => exact h.register heq nofun
  | @connected client peer listener socket id f' heq =>
      have hconnect := h.connect client peer listener socket
      rwa [heq] at hconnect
  | @unconnected client peer listener socket cause f' heq =>
      have hconnect := h.connect client peer listener socket
      rwa [heq] at hconnect
  | event e hwhole =>
      rw [List.append_nil]
      exact h.after hwhole

theorem WholeCourse.clean (h : WholeCourse f accepted f') (hnew : Clean [] none f) :
    Clean accepted none f' := by
  induction h with
  | refl => exact hnew
  | step h hstep ih => exact hstep.clean ih

theorem clean_new {f : Factory codec} (hattempts : f.attempts = []) (hconnectors : f.connectors = [])
    (hnegotiations : f.negotiations.handlers = []) (hsessions : f.sessions = []) :
    Clean [] none f := by
  have hnone : ∀ (id : ChannelId) (a : Attempt codec), f.attempts[id]? ≠ some a := by
    intro id a ha
    rw [hattempts] at ha
    cases ha
  refine ⟨⟨fun run c id hc => ?_, fun handler hhandler => ?_, fun session hs => ?_,
    fun id _ a _ _ ha => absurd ha (hnone id a), fun id a _ ha => absurd ha (hnone id a),
    fun _ => hsessions⟩, nofun, fun id a _ ha => absurd ha (hnone id a)⟩
  · rw [hconnectors] at hc
    cases hc
  · rw [hnegotiations] at hhandler
    cases hhandler
  · rw [hsessions] at hs
    cases hs

/-- Nothing is left of an attempt but its outcome. -/
structure Gone (f : Factory codec) (id : ChannelId) (a : Attempt codec) : Prop where
  done : a.promise.isDone = true
  channel : a.channel.isOpen = false
  books : ∀ (run : Nat) (c : Connector), f.connectors[run]? = some c →
    id ∉ c.channels ∧ id ∉ c.pending ∧ id ∉ c.opened
  negotiations : f.negotiations.get? id = none
  session : ∀ session, a.session? = some session → session ∉ f.sessions
  ends : a.ends = if a.promise.isCompleted then 1 else 0

theorem Clean.gone (h : Clean accepted none f) (hid : id ∈ accepted) {a : Attempt codec}
    (ha : f.attempts[id]? = some a) (hended : a.stage.isEnded = true) : f.Gone id a := by
  obtain ⟨horderly, hsettled⟩ := h.attempt ha
  obtain ⟨hdone, hclosed⟩ := hsettled hid hended
  have hdead : ∀ run, ¬f.Lives id run := by
    rintro run ⟨b, hb, -, halive⟩
    obtain rfl := Option.some.inj (ha.symm.trans hb)
    cases hended.symm.trans halive
  refine ⟨hdone, hclosed, fun run c hc => ?_, ?_, fun session hsession hs => ?_, ?_⟩
  · have hnot : ¬c.Tracks id := fun htracks => hdead run (h.tidy.books run c id hc htracks)
    exact ⟨fun hc => hnot (Or.inl hc), fun hc => hnot (Or.inr (Or.inl hc)),
      fun hc => hnot (Or.inr (Or.inr hc))⟩
  · have hnot : f.negotiations.handlers.find? (·.1 = id) = none := by
      refine List.find?_eq_none.mpr fun handler hhandler heq => ?_
      obtain ⟨run, hlive⟩ := h.tidy.negotiations handler hhandler
      rw [of_decide_eq_true heq] at hlive
      exact hdead run hlive
    rw [Negotiations.get?, hnot, Option.map_none]
  · obtain ⟨other, b, hb, hsession', halive⟩ := h.tidy.sessions session hs
    obtain rfl := h.tidy.numbers id other a b session ha hb hsession hsession'
    obtain rfl := Option.some.inj (ha.symm.trans hb)
    cases hended.symm.trans halive
  · rw [horderly.ends, hended, Bool.true_and]

/-- **Every end cleans up.** On every course of a new factory, in every order of what the environment
answers, of closes and cancels and of whole stops and starts: once an accepted attempt is over, its
promise has an outcome, its channel is closed, it is in no books, it does not negotiate, its session is
not among the open ones, and its listener has been told of an end once if there was a session, and never
otherwise. Nobody is told before the end; every open session belongs to an attempt that is not over; and
no outcome changes later, whatever goes wrong. -/
theorem ends_leave_nothing {f₀ : Factory codec} (hattempts : f₀.attempts = [])
    (hconnectors : f₀.connectors = []) (hnegotiations : f₀.negotiations.handlers = [])
    (hsessions : f₀.sessions = []) (h : WholeCourse f₀ accepted f) :
    (∀ id ∈ accepted, ∃ a : Attempt codec, f.attempts[id]? = some a ∧
      (a.stage.isEnded = true → f.Gone id a) ∧ (a.stage.isEnded = false → a.ends = 0)) ∧
    (∀ session ∈ f.sessions, f.Carried session) ∧
    ∀ accepted' f', WholeCourse f accepted' f' → ∀ (id : ChannelId) (a : Attempt codec) outcome,
      f.attempts[id]? = some a → a.promise.outcome = some outcome →
      ∃ a' : Attempt codec, f'.attempts[id]? = some a' ∧ a'.promise.outcome = some outcome := by
  have hclean := h.clean (clean_new hattempts hconnectors hnegotiations hsessions)
  refine ⟨fun id hid => ?_, hclean.tidy.sessions, fun accepted' f' hlater id a outcome ha houtcome => ?_⟩
  · obtain ⟨a, ha⟩ := hclean.known id hid
    refine ⟨a, ha, hclean.gone hid ha, fun hended => ?_⟩
    rw [(hclean.attempt ha).1.ends, hended, Bool.false_and, if_neg Bool.false_ne_true]
  · obtain ⟨hsound, -⟩ := h.course.leads.1 (sound_new hattempts hconnectors)
    obtain ⟨-, honward⟩ := hlater.course.leads.1 hsound
    obtain ⟨a', ha', -, hkeeps⟩ := honward.attempts id a ha
    exact ⟨a', ha', hkeeps outcome houtcome⟩

/-- The factory is stopped; the connection of the first attempt says farewell and goes, and the second
attempt, which was dialing, notices that its channel is closed. -/
def deserted : Factory .identity :=
  let stopped := Factory.busy.after .stop
  let turned := (List.range 5).foldl (fun f _ => f.after (.turn 0 {})) stopped
  turned.after (.noticeClosed 1)

theorem deserted_left_nothing :
    (∃ a : Attempt .identity, deserted.attempts[0]? = some a ∧ deserted.Gone 0 a) ∧
    ∃ a : Attempt .identity, deserted.attempts[1]? = some a ∧ deserted.Gone 1 a := by
  have hstart := (WholeCourse.refl (f := unused)).step (.event (.start (.ok ())) rfl)
  have hfirst : started.register 0 0 host .silent = (.ok (), registeredOnce) := rfl
  have hsecond : registeredOnce.register 0 0 host .silent = (.ok (), registeredTwice) := rfl
  have hregistered := (hstart.step (.registered hfirst)).step (.registered hsecond)
  have hbusy := (hregistered.step (.event (.dialed 0 (.ok host)) rfl)).step
    (.event (.establish 0 (.ok ())) rfl)
  have hturn := fun f (h : WholeCourse unused [0, 1] f) => h.step (.event (.turn 0 {}) rfl)
  have hturned := hturn _ (hturn _ (hturn _ (hturn _ (hturn _ (hbusy.step (.event .stop rfl))))))
  have hcourse : WholeCourse unused [0, 1] deserted := hturned.step (.event (.noticeClosed 1) rfl)
  obtain ⟨hgone, -⟩ := ends_leave_nothing rfl rfl rfl rfl hcourse
  have hended : ∀ id ∈ [0, 1], (deserted.attempts[id]?).all (·.stage.isEnded) = true := by
    decide +kernel
  have hleft : ∀ id ∈ [0, 1], ∃ a : Attempt .identity,
      deserted.attempts[id]? = some a ∧ deserted.Gone id a := by
    intro id hid
    obtain ⟨a, ha, hover, -⟩ := hgone id hid
    have hover' := hended id hid
    rw [ha, Option.all_some] at hover'
    exact ⟨a, ha, hover hover'⟩
  exact ⟨hleft 0 (by decide), hleft 1 (by decide)⟩

end Factory

end SpdySessions
