import SpdySessions.Proofs.Scheduler.Idle

/-! Idle watchdogs close in time. A clock that leaves no check behind brings every watchdog to look at
the moment when its check is due; moving the clock of an agenda is such a clock, so once nothing
happens any more the channel is closed when the timeout has passed, and not a moment later. -/

namespace SpdySessions.Scheduler.Agenda

/-! ### A clock that leaves nothing behind -/

/-- The clock of a scheduler that fires everything at its own moment. -/
def punctual (a : Agenda) (span : Nat) : Prop :=
  ∀ t ∈ a.scheduler.pending, a.scheduler.now + span ≤ max a.scheduler.now t.due

instance (a : Agenda) (span : Nat) : Decidable (punctual a span) :=
  inferInstanceAs (Decidable (∀ t ∈ a.scheduler.pending, _))

theorem onTime_punctual (index : Nat) : OnTime punctual index := by
  intro a span hclock t ht
  exact hclock t (List.mem_of_mem_filter ht)

/-- Nothing of what happens comes from outside. -/
def Undisturbed (more : List Event) : Prop :=
  ∀ event ∈ more, ∀ index, event.activity? index = none ∧ event ≠ .closed index

variable {start limit : Nat} {past : List Event} {a next : Agenda}

theorem undisturbed_trace (a : Agenda) (job : Job) : Undisturbed [a.trace job] := by
  intro event hevent index
  obtain rfl := List.mem_singleton.mp hevent
  cases job with
  | program tag orders => simp [trace, Event.activity?]
  | check other => cases h : a.watches[other]? <;> simp [trace, h, Event.activity?]

theorem Turn.now_eq {onTime : Prop} {index : Nat} {v v' : View} {event : Event}
    (h : Turn onTime index past v event v') (hpassed : ∀ span, event ≠ .passed span) :
    v'.now = v.now := by
  cases h with
  | pass hclock => exact absurd rfl (hpassed _)
  | engage hw hfirst next =>
      rename_i w
      cases w.watchdog.firstCheck with
      | none => simp
      | some delay => simp
  | aside | halt | stray | create | touch | close | look => simp

theorem Sound.now_goOff (h : Sound a) {t : Timer Job} (ht : t ∈ a.scheduler.pending)
    (hdue : t.due ≤ a.scheduler.now) : (a.goOff t).scheduler.now = a.scheduler.now := by
  have hturn : Turn False 0 [] (a.view 0) (a.trace t.body) ((a.goOff t).view 0) := h.turn_goOff ht hdue
  refine hturn.now_eq fun span => ?_
  cases t.body with
  | program tag orders => simp [trace]
  | check other => cases hw : a.watches[other]? <;> simp [trace, hw]

/-- When nothing fires any more, what is left is later. -/
theorem lt_due_of_fire? (h : a.fire? limit = none) {t : Timer Job} (ht : t ∈ a.scheduler.pending) :
    limit < t.due := by
  unfold Agenda.fire? Scheduler.next? at h
  cases hfirst : earliest a.scheduler.pending with
  | none =>
      rw [earliest_eq_none.mp hfirst] at ht
      simp at ht
  | some first =>
      have hle := due_earliest_le hfirst ht
      by_cases hdue : first.due ≤ limit
      · simp [hfirst, hdue] at h
      · omega

theorem Course.fire? (h : Course punctual start past a) (hfire : a.fire? limit = some next)
    (hlimit : a.scheduler.now ≤ limit) :
    next.scheduler.now ≤ limit ∧
      ∃ more, Undisturbed more ∧ Course punctual start (past ++ more) next := by
  unfold Agenda.fire? at hfire
  split at hfire
  · cases hfire
  · rename_i t s hnext
    obtain ⟨hfirst, hdue, rfl⟩ := next?_eq_some hnext
    have hmem : t ∈ a.scheduler.pending := mem_of_earliest hfirst
    have hclock : punctual a (t.due - a.scheduler.now) := fun t' ht' => by
      have hle := due_earliest_le hfirst ht'
      omega
    have hpass := h.pass hclock
    have hreached : t.due ≤ (a.pass (t.due - a.scheduler.now)).scheduler.now := by
      simp only [Agenda.pass, now_pass]
      omega
    have hgo := hpass.goOff hmem hreached
    have hnow := hpass.sound.now_goOff hmem hreached
    have hsame : next = (a.pass (t.due - a.scheduler.now)).goOff t := (Option.some.inj hfire).symm
    rw [← hsame] at hgo hnow
    refine ⟨?_, _, ?_, by simpa only [List.append_assoc] using hgo⟩
    · simp only [hnow, Agenda.pass, now_pass]
      omega
    · intro event hevent
      rcases List.mem_append.mp hevent with hpassed | htrace
      · obtain rfl := List.mem_singleton.mp hpassed
        simp [Event.activity?]
      · exact undisturbed_trace _ _ event htrace

theorem Course.fireAll (h : Course punctual start past a) (hlimit : a.scheduler.now ≤ limit) :
    (a.fireAll limit).scheduler.now ≤ limit ∧ (a.fireAll limit).fire? limit = none ∧
      ∃ more, Undisturbed more ∧ Course punctual start (past ++ more) (a.fireAll limit) := by
  fun_induction Agenda.fireAll a limit generalizing past with
  | case1 a hnone => exact ⟨hlimit, hnone, [], by simp [Undisturbed], by simpa using h⟩
  | case2 a next hfire hload ih =>
      obtain ⟨hlimit', more, hmore, hcourse⟩ := h.fire? hfire hlimit
      obtain ⟨hnow, hnone, rest, hrest, hcourse'⟩ := ih hcourse hlimit'
      refine ⟨hnow, hnone, more ++ rest, fun event hevent => ?_, by simpa using hcourse'⟩
      rcases List.mem_append.mp hevent with hmem | hmem
      · exact hmore event hmem
      · exact hrest event hmem

/-- Moving the clock is such a course: each timer goes off at its own moment, and nothing comes from
outside. -/
theorem Course.advance (h : Course punctual start past a) (span : Nat) :
    (∀ t ∈ (a.advance span).scheduler.pending, a.scheduler.now + span < t.due) ∧
      ∃ more, Undisturbed more ∧ Course punctual start (past ++ more) (a.advance span) := by
  obtain ⟨hnow, hnone, more, hmore, hcourse⟩ := h.fireAll (Nat.le_add_right a.scheduler.now span)
  have hrest : a.advance span = (a.fireAll (a.scheduler.now + span)).pass
      (a.scheduler.now + span - (a.fireAll (a.scheduler.now + span)).scheduler.now) := by
    simp only [Agenda.advance, Agenda.pass, Scheduler.pass, Nat.add_sub_cancel' hnow]
  have hclock : punctual (a.fireAll (a.scheduler.now + span))
      (a.scheduler.now + span - (a.fireAll (a.scheduler.now + span)).scheduler.now) := fun t ht => by
    have hlate := lt_due_of_fire? hnone ht
    omega
  refine ⟨fun t ht => lt_due_of_fire? hnone ht, more ++ [_], fun event hevent => ?_,
    by simpa [hrest] using hcourse.pass hclock⟩
  rcases List.mem_append.mp hevent with hmem | hmem
  · exact hmore event hmem
  · obtain rfl := List.mem_singleton.mp hmem
    simp [Event.activity?]

theorem lastActivity?_undisturbed {more : List Event} (h : Undisturbed more) (index : Nat) :
    lastActivity? (past ++ more) index = lastActivity? past index := by
  have hnone : more.filterMap (Event.activity? index) = [] :=
    List.filterMap_eq_nil_iff.mpr fun event hevent => (h event hevent index).1
  simp [lastActivity?, List.filterMap_append, hnone]

/-- When the clock moves far enough and nothing happens on the connection, the watchdog closes the
channel on the way, at its moment. -/
theorem Course.closes_in_time (h : Course punctual start past a) {index timeout since last span : Nat}
    (hmade : Made past index timeout) (hsince : .engaged index since ∈ past) (hpos : 0 < timeout)
    (hopen : ¬Closed past index) (hlast : lastActivity? past index = some last)
    (hspan : max since last + timeout ≤ a.scheduler.now + span)
    (hrunning : (a.advance span).scheduler.stopped = false) :
    ∃ more, Undisturbed more ∧ Course punctual start (past ++ more) (a.advance span) ∧
      .looked index (max since last + timeout) .close ∈ more := by
  obtain ⟨hlate, more, hmore, hcourse⟩ := h.advance span
  refine ⟨more, hmore, hcourse, ?_⟩
  have hrun := hcourse.run index
  obtain ⟨made, hcreated⟩ := hmade
  have hmade' : Made (past ++ more) index timeout := ⟨made, List.mem_append_left _ hcreated⟩
  have hsince' : .engaged index since ∈ past ++ more := List.mem_append_left _ hsince
  have hclosed : Closed (past ++ more) index := by
    by_contra hstill
    obtain ⟨t, ht, -, last', hlast', hdue⟩ := hrun.kept.exists_check hmade' hsince' hpos hrunning hstill
    rw [lastActivity?_undisturbed hmore, hlast] at hlast'
    obtain rfl := Option.some.inj hlast'
    have hpast := hlate t (List.mem_of_mem_filter ht)
    omega
  obtain ⟨now, hlook⟩ : ∃ now, .looked index now .close ∈ more := by
    rcases hclosed with hothers | ⟨now, hlook⟩
    · rcases List.mem_append.mp hothers with hbefore | hafter
      · exact absurd (Or.inl hbefore) hopen
      · exact absurd rfl (hmore _ hafter index).2
    · rcases List.mem_append.mp hlook with hbefore | hafter
      · exact absurd (Or.inr ⟨now, hbefore⟩) hopen
      · exact ⟨now, hafter⟩
  obtain ⟨front, rest, rfl⟩ := List.append_of_mem hlook
  obtain ⟨last', hlast', rfl⟩ := hrun.closed_at (onTime_punctual index)
    (List.append_assoc past front _).symm hmade' hsince'
  have hfront : Undisturbed front := fun event hevent => hmore event (List.mem_append_left _ hevent)
  rw [lastActivity?_undisturbed hfront, hlast] at hlast'
  obtain rfl := Option.some.inj hlast'
  exact hlook

/-! ### The watchdog -/

section

variable {index timeout since : Nat}

/-- Whoever arms a watchdog makes it and lets it begin to watch; nobody did so before. -/
theorem Course.arm {clock : Agenda → Nat → Prop} (h : Course clock start past a) (timeout : Nat) :
    Course clock start (past ++ [.created a.watches.length timeout a.scheduler.now,
      .engaged a.watches.length a.scheduler.now]) (a.arm timeout) := by
  have hnone : (a.view a.watches.length).watch = none := List.getElem?_eq_none (Nat.le_refl _)
  obtain ⟨hnew, -⟩ := (h.run a.watches.length).kept.unknown hnone
  have hindex : a.watches.length < (a.create timeout).watches.length := by
    simp [Agenda.create]
  have hfirst : ∀ now, .engaged a.watches.length now ∉
      past ++ [.created a.watches.length timeout a.scheduler.now] := by
    intro now hmem
    rcases List.mem_append.mp hmem with hmem | hmem
    · exact hnew ⟨now, hmem⟩
    · cases List.mem_singleton.mp hmem
  have hengaged := (h.create timeout).engage hindex hfirst
  rw [List.append_assoc] at hengaged
  exact arm_eq a timeout ▸ hengaged

/-- **An idle watchdog never closes early and never gets lost.** On every course of an agenda, a
watchdog with its timeout that began to watch an open channel at some time closes it only when nothing
has happened on the connection for the timeout. While the channel is open and the scheduler not
stopped exactly one check of it is pending, and never more than one; the delay after which it looks
again is positive and at most the timeout, of which the connection has been idle for less; and when
the channel has been closed, the next look is the last one. If no check is left behind by the clock,
the channel, unless somebody else closes it, is closed exactly when the timeout has passed since the
watch began or since the last activity, whichever was later: that moment has not come yet or it was
then, and when the clock moves there with nothing happening it is then. With a timeout of zero there
is never a check. Whoever arms a watchdog makes it and lets it begin to watch. -/
theorem idle_closes_in_time {clock : Agenda → Nat → Prop} (h : Course clock start past a)
    (hmade : Made past index timeout) (hsince : .engaged index since ∈ past) :
    (a.IsOpen index ↔ ¬Closed past index) ∧
    (∀ before now after, past = before ++ .looked index now .close :: after →
      ∃ last, lastActivity? before index = some last ∧ last + timeout ≤ now) ∧
    (a.checks index).length ≤ 1 ∧
    (0 < timeout → a.IsOpen index → a.scheduler.stopped = false → (a.checks index).length = 1) ∧
    (∀ before now delay after, past = before ++ .looked index now (.again delay) :: after →
      0 < delay ∧ delay ≤ timeout ∧ ∃ last, lastActivity? before index = some last ∧
        last ≤ now ∧ now - last < timeout ∧ delay = timeout - (now - last)) ∧
    (∀ before now verdict after, past = before ++ .looked index now verdict :: after →
      Closed before index → verdict = .ended ∧ a.checks index = [] ∧
        ∀ later verdict', .looked index later verdict' ∉ after) ∧
    (OnTime clock index → 0 < timeout → a.scheduler.stopped = false → .closed index ∉ past →
      (a.IsOpen index ∧ ∃ last, lastActivity? past index = some last ∧
        a.scheduler.now ≤ max since last + timeout) ∨
      ∃ before last after, past = before ++ .looked index (max since last + timeout) .close :: after ∧
        lastActivity? before index = some last) ∧
    (Course punctual start past a → 0 < timeout → a.IsOpen index → ∀ last span,
      lastActivity? past index = some last → max since last + timeout ≤ a.scheduler.now + span →
      (a.advance span).scheduler.stopped = false →
      ∃ more, Undisturbed more ∧ Course punctual start (past ++ more) (a.advance span) ∧
        .looked index (max since last + timeout) .close ∈ more) ∧
    (timeout = 0 → a.checks index = [] ∧ ∀ now verdict, .looked index now verdict ∉ past) ∧
    (∀ timeout, Course clock start (past ++ [.created a.watches.length timeout a.scheduler.now,
      .engaged a.watches.length a.scheduler.now]) (a.arm timeout)) := by
  have hrun := h.run index
  have hkept := hrun.kept
  have hopen := hkept.isOpen_iff hmade
  have hchecks := hkept.checks_iff hmade hsince
  refine ⟨hopen, ?_, hkept.single, ?_, ?_, ?_, ?_, ?_, ?_, fun timeout => h.arm timeout⟩
  · intro before now after hpast
    exact hrun.not_early hpast hmade hsince
  · intro hpos hisOpen hstopped
    obtain ⟨t, ht, -⟩ := hkept.exists_check hmade hsince hpos hstopped (hopen.mp hisOpen)
    exact Nat.le_antisymm hkept.single (List.length_pos_of_mem ht)
  · intro before now delay after hpast
    exact hrun.again_spec hpast hmade hsince
  · intro before now verdict after hpast hclosed
    obtain ⟨rfl, hlast⟩ := hrun.ended_of_closed hpast hclosed hmade hsince
    refine ⟨rfl, ?_, hlast⟩
    by_contra hpending
    exact (hchecks.mp hpending).2.2 ⟨now, .ended, by simp [hpast], by simp⟩
  · intro hontime hpos hstopped hothers
    by_cases hclosed : Closed past index
    · right
      obtain ⟨now, hmem⟩ := hclosed.resolve_left hothers
      obtain ⟨before, after, hpast⟩ := List.append_of_mem hmem
      obtain ⟨last, hlast, rfl⟩ := hrun.closed_at hontime hpast hmade hsince
      exact ⟨before, last, after, hpast, hlast⟩
    · left
      obtain ⟨t, ht, hnow, last, hlast, hdue⟩ := hkept.exists_check hmade hsince hpos hstopped hclosed
      exact ⟨hopen.mpr hclosed, last, hlast, Nat.le_trans (hnow hontime) hdue⟩
  · intro hpunctual hpos hisOpen last span hlast hspan hrunning
    exact hpunctual.closes_in_time hmade hsince hpos (hopen.mp hisOpen) hlast hspan hrunning
  · rintro rfl
    refine ⟨?_, fun now verdict hmem => ?_⟩
    · by_contra hpending
      exact Nat.lt_irrefl 0 (hchecks.mp hpending).1
    · obtain ⟨before, after, hpast⟩ := List.append_of_mem hmem
      obtain ⟨_, _, hlook⟩ := hrun.look hpast hmade hsince
      exact Nat.lt_irrefl 0 hlook.timeout_pos

end

/-- A connection that is made at zero and watched from two on, with something happening on it at five. -/
def attended : List Event :=
  [.created 0 10 0, .passed 2, .engaged 0 2, .passed 3, .touched 0 5]

/-- The first check, at twelve, finds the connection idle for seven; the next one closes the channel. -/
theorem attended_closes_in_time :
    ∃ a more, Course punctual 0 attended a ∧ Made attended 0 10 ∧ .engaged 0 2 ∈ attended ∧
      (a.checks 0).length = 1 ∧ Course punctual 0 (attended ++ more) (a.advance 10) ∧
      .looked 0 15 .close ∈ more ∧ ¬(a.advance 10).IsOpen 0 := by
  have hcreated : Course punctual 0 _ _ := Course.start.create 10
  have hengaged := (hcreated.pass (show punctual _ 2 by decide)).engage (show 0 < _ by decide) (by simp)
  have hcourse := (hengaged.pass (show punctual _ 3 by decide)).touch (show 0 < _ by decide)
  have hfrom : Event.created 0 10 0 ∈ attended := by decide
  have hmade : Made attended 0 10 := ⟨0, hfrom⟩
  have hsince : .engaged 0 2 ∈ attended := by decide
  obtain ⟨-, -, -, hone, -, -, -, hcloses, -⟩ := idle_closes_in_time hcourse hmade hsince
  obtain ⟨more, -, hlater, hlook⟩ := hcloses hcourse (by decide) ⟨_, rfl, rfl⟩ 5 10 (by decide)
    (by decide) (by decide +kernel)
  obtain ⟨hopen, -⟩ := idle_closes_in_time hlater ⟨0, List.mem_append_left _ hfrom⟩
    (List.mem_append_left _ hsince)
  refine ⟨_, more, hcourse, hmade, hsince, hone (by decide) ⟨_, rfl, rfl⟩ rfl, hlater, hlook, ?_⟩
  rw [hopen, not_not]
  exact Or.inr ⟨15, List.mem_append_right _ hlook⟩

end SpdySessions.Scheduler.Agenda
