import SpdySessions.Proofs.Scheduler.Watch

/-! Idle watchdogs never close early and never get lost. Between two looks of a watchdog there is one
check pending, due when the connection could have been idle for long enough as far as was known when
the check was scheduled. The invariant ties that time to when the watchdog began to watch and to the
last activity since; what a look finds then follows from the past before it. -/

namespace SpdySessions

namespace Watchdog

variable {w : Watchdog} {channelOpen : Bool} {now delay : Nat}

theorem check_eq_ended : w.check channelOpen now = .ended ↔ channelOpen = false := by
  cases channelOpen with
  | false => simp [check]
  | true => by_cases hidle : w.timeout ≤ now - w.lastActivity <;> simp [check, idleFor, hidle]

theorem check_eq_close :
    w.check channelOpen now = .close ↔ channelOpen = true ∧ w.timeout ≤ now - w.lastActivity := by
  cases channelOpen with
  | false => simp [check]
  | true => by_cases hidle : w.timeout ≤ now - w.lastActivity <;> simp [check, idleFor, hidle]

theorem check_eq_again :
    w.check channelOpen now = .again delay ↔ channelOpen = true ∧
      now - w.lastActivity < w.timeout ∧ delay = w.lastActivity + w.timeout - now := by
  cases channelOpen with
  | false => simp [check]
  | true =>
      by_cases hidle : w.timeout ≤ now - w.lastActivity
      · simp [check, idleFor, hidle, Nat.not_lt.mpr hidle]
      · simp [check, idleFor, hidle, Nat.lt_of_not_le hidle, eq_comm]

end Watchdog

namespace Scheduler.Agenda

/-! ### What the past says of a watch -/

def Event.activity? (index : Nat) : Event → Option Nat
  | created other _ now | touched other now => if other = index then some now else none
  | _ => none

/-- When something last happened on the connection, its making included. -/
def lastActivity? (past : List Event) (index : Nat) : Option Nat :=
  (past.filterMap (Event.activity? index)).getLast?

def Made (past : List Event) (index timeout : Nat) : Prop :=
  ∃ now, .created index timeout now ∈ past

def Engaged (past : List Event) (index : Nat) : Prop :=
  ∃ now, .engaged index now ∈ past

def Closed (past : List Event) (index : Nat) : Prop :=
  .closed index ∈ past ∨ ∃ now, .looked index now .close ∈ past

/-- The watchdog has looked for the last time. -/
def Over (past : List Event) (index : Nat) : Prop :=
  ∃ now verdict, .looked index now verdict ∈ past ∧ ∀ delay, verdict ≠ .again delay

section

variable {past : List Event} {event : Event} {index timeout now : Nat}

@[simp] theorem not_made_nil : ¬Made [] index timeout := by
  simp [Made]

@[simp] theorem not_engaged_nil : ¬Engaged [] index := by
  simp [Engaged]

@[simp] theorem not_closed_nil : ¬Closed [] index := by
  simp [Closed]

@[simp] theorem not_over_nil : ¬Over [] index := by
  simp [Over]

@[simp] theorem lastActivity?_concat :
    lastActivity? (past ++ [event]) index =
      (event.activity? index).or (lastActivity? past index) := by
  cases h : event.activity? index <;> simp [lastActivity?, h]

@[simp] theorem made_concat :
    Made (past ++ [event]) index timeout ↔
      Made past index timeout ∨ ∃ now, event = .created index timeout now := by
  simp only [Made, List.mem_append, List.mem_singleton, exists_or, eq_comm]

@[simp] theorem engaged_concat :
    Engaged (past ++ [event]) index ↔ Engaged past index ∨ ∃ now, event = .engaged index now := by
  simp only [Engaged, List.mem_append, List.mem_singleton, exists_or, eq_comm]

@[simp] theorem closed_concat :
    Closed (past ++ [event]) index ↔
      Closed past index ∨ event = .closed index ∨ ∃ now, event = .looked index now .close := by
  simp only [Closed, List.mem_append, List.mem_singleton, exists_or, eq_comm]
  exact or_or_or_comm

@[simp] theorem over_concat :
    Over (past ++ [event]) index ↔ Over past index ∨
      ∃ now verdict, event = .looked index now verdict ∧ ∀ delay, verdict ≠ .again delay := by
  simp only [Over, List.mem_append, List.mem_singleton, or_and_right, exists_or, eq_comm]

end

/-! ### The invariant -/

/-- What is known of a watch from the past. -/
structure Known (index : Nat) (past : List Event) (v : View) : Prop where
  unknown : v.watch = none → ¬Engaged past index ∧ ¬Closed past index
  made : ∀ timeout, Made past index timeout ↔ ∃ w, v.watch = some w ∧ w.watchdog.timeout = timeout
  last : lastActivity? past index = v.watch.map (·.watchdog.lastActivity)
  last_le : ∀ w, v.watch = some w → w.watchdog.lastActivity ≤ v.now
  opened : ∀ w, v.watch = some w → (w.channelOpen = true ↔ ¬Closed past index)
  finished : Over past index → Engaged past index ∧ Closed past index

/-- A check is pending exactly from when the watchdog begins to watch until its last look or the stop
of the scheduler, and it is due when the connection could have been idle for the timeout. -/
structure Kept (onTime : Prop) (index : Nat) (past : List Event) (v : View) : Prop
    extends Known index past v where
  waiting : v.checks ≠ [] ↔ Engaged past index ∧ (∃ timeout, Made past index timeout ∧ 0 < timeout) ∧
    v.stopped = false ∧ ¬Over past index
  single : v.checks.length ≤ 1
  due : ∀ t ∈ v.checks, ∀ w, v.watch = some w → ∀ since, .engaged index since ∈ past →
    since + w.watchdog.timeout ≤ t.due ∧
      t.due ≤ max since w.watchdog.lastActivity + w.watchdog.timeout
  onTime : onTime → ∀ t ∈ v.checks, v.now ≤ t.due

section

variable {onTime : Prop} {index start : Nat} {past : List Event} {event : Event} {v : View} {w : Watch}

theorem kept_start (start : Nat) : Kept onTime index [] ⟨start, false, none, []⟩ where
  unknown _ := by simp
  made timeout := by simp
  last := by simp [lastActivity?]
  last_le w hw := by simp at hw
  opened w hw := by simp at hw
  finished h := by simp at h
  waiting := by simp
  single := by simp
  due t ht := by simp at ht
  onTime _ t ht := by simp at ht

/-- What happens elsewhere adds nothing to what is known. -/
theorem Kept.concat (h : Kept onTime index past v) (hother : event.index? ≠ some index) :
    Kept onTime index (past ++ [event]) v := by
  have hcreated : ∀ timeout now, event ≠ .created index timeout now := by
    rintro timeout now rfl
    simp [Event.index?] at hother
  have hengaged : ∀ now, event ≠ .engaged index now := by
    rintro now rfl
    simp [Event.index?] at hother
  have hlooked : ∀ now verdict, event ≠ .looked index now verdict := by
    rintro now verdict rfl
    simp [Event.index?] at hother
  have hclosed : event ≠ .closed index := by
    rintro rfl
    simp [Event.index?] at hother
  have hactivity : event.activity? index = none := by
    cases event <;> simp_all [Event.activity?, Event.index?]
  refine
    { h with
      unknown := fun hw => ?_, made := fun timeout => ?_, last := ?_, opened := fun w hw => ?_,
      finished := ?_, waiting := ?_, due := fun t ht w hw since hsince => ?_ }
  · simpa [hengaged, hclosed, hlooked] using h.unknown hw
  · simpa [hcreated] using h.made timeout
  · simpa [hactivity] using h.last
  · simpa [hclosed, hlooked] using h.opened w hw
  · simpa [hengaged, hclosed, hlooked] using h.finished
  · simpa [hengaged, hcreated, hlooked] using h.waiting
  · have hsince' : .engaged index since ∈ past := by simpa [Ne.symm (hengaged since)] using hsince
    exact h.due t ht w hw since hsince'

theorem Kept.halt (h : Kept onTime index past v) : Kept onTime index past v.halt where
  toKnown := { h.toKnown with }
  waiting := by simp [View.halt]
  single := by simp [View.halt]
  due t ht := by simp [View.halt] at ht
  onTime _ t ht := by simp [View.halt] at ht

theorem Kept.pass (h : Kept onTime index past v) {span : Nat}
    (hclock : onTime → ∀ t ∈ v.checks, v.now + span ≤ max v.now t.due) :
    Kept onTime index past { v with now := v.now + span } := by
  refine { h with last_le := fun w hw => ?_, onTime := fun hontime t ht => ?_ }
  · exact Nat.le_add_right_of_le (h.last_le w hw)
  · have hnow := h.onTime hontime t ht
    have hspan := hclock hontime t ht
    simp only
    omega

theorem Kept.create (h : Kept onTime index past v) (hnew : v.watch = none) (timeout : Nat) :
    Kept onTime index (past ++ [.created index timeout v.now])
      { v with watch := some { watchdog := ⟨timeout, v.now⟩ } } := by
  obtain ⟨hengaged, hclosed⟩ := h.unknown hnew
  have hmade : ∀ other, ¬Made past index other := fun other => by simp [h.made, hnew]
  have hchecks : v.checks = [] := by
    by_contra hne
    exact hengaged (h.waiting.mp hne).1
  exact
    { unknown := by simp
      made := by simp [hmade]
      last := by simp [Event.activity?]
      last_le := by simp
      opened := by simp [hclosed]
      finished := by simpa using h.finished
      waiting := by simp [hchecks, hengaged]
      single := h.single
      due := by simp [hchecks]
      onTime := h.onTime }

theorem Kept.touch (h : Kept onTime index past v) (hw : v.watch = some w) :
    Kept onTime index (past ++ [.touched index v.now])
      { v with watch := some { w with watchdog := w.watchdog.touch v.now } } := by
  have hlast := h.last_le w hw
  refine
    { unknown := by simp
      made := by simpa [hw, Watchdog.touch] using h.made
      last := by simp [Event.activity?, Watchdog.touch]
      last_le := by simp [Watchdog.touch]
      opened := by simpa using h.opened w hw
      finished := by simpa using h.finished
      waiting := by simpa using h.waiting
      single := h.single
      due := fun t ht w' hw' since hsince => ?_
      onTime := h.onTime }
  have hdue := h.due t ht w hw since (by simpa using hsince)
  obtain rfl := Option.some.inj hw'
  simp only [Watchdog.touch]
  omega

/-- A channel that is closed stays known as such. -/
theorem Known.close (h : Known index past v) (hw : v.watch = some w)
    (hclosed : Closed (past ++ [event]) index)
    (hover : Over (past ++ [event]) index → Engaged past index)
    (hsame : (∀ timeout now, event ≠ .created index timeout now) ∧ event.activity? index = none) :
    Known index (past ++ [event]) { v with watch := some { w with channelOpen := false } } where
  unknown := by simp
  made := by simpa [hsame.1, hw] using h.made
  last := by simpa [hsame.2, hw] using h.last
  last_le := by simpa using h.last_le w hw
  opened := by
    simpa only [Option.some.injEq, forall_eq', Bool.false_eq_true, false_iff, not_not] using hclosed
  finished hlast := ⟨engaged_concat.mpr (Or.inl (hover hlast)), hclosed⟩

theorem Kept.close (h : Kept onTime index past v) (hw : v.watch = some w) :
    Kept onTime index (past ++ [.closed index])
      { v with watch := some { w with channelOpen := false } } where
  toKnown := by
    refine h.toKnown.close hw (by simp) (fun hover => ?_) (by simp [Event.activity?])
    exact (h.finished (by simpa using hover)).1
  waiting := by simpa using h.waiting
  single := h.single
  due t ht w' hw' since hsince := by
    obtain rfl := Option.some.inj hw'
    exact h.due t ht w hw since (by simpa using hsince)
  onTime := h.onTime

/-- The next check is scheduled where none is pending. -/
theorem Known.await (h : Known index past v) (hnone : v.checks = []) (hw : v.watch = some w)
    (hengaged : Engaged past index) (hpos : 0 < w.watchdog.timeout) (hover : ¬Over past index)
    {t : Timer Job} (hnow : v.now ≤ t.due)
    (hdue : ∀ since, .engaged index since ∈ past → since + w.watchdog.timeout ≤ t.due ∧
      t.due ≤ max since w.watchdog.lastActivity + w.watchdog.timeout) :
    Kept onTime index past (v.await t) := by
  have hmade : ∃ timeout, Made past index timeout ∧ 0 < timeout :=
    ⟨w.watchdog.timeout, (h.made _).mpr ⟨w, hw, rfl⟩, hpos⟩
  cases hstopped : v.stopped with
  | true =>
      rw [View.await, if_pos hstopped]
      exact
        { h with
          waiting := by simp [hnone, hstopped]
          single := by simp [hnone]
          due := by simp [hnone]
          onTime := by simp [hnone] }
  | false =>
      have hview : v.await t = { v with checks := [t] } := by simp [View.await, hstopped, hnone]
      rw [hview]
      refine
        { h with
          waiting := by simp [hengaged, hmade, hover, hstopped]
          single := by simp
          due := fun t' ht' w' hw' => ?_
          onTime := by simpa using fun _ => hnow }
      obtain rfl := List.mem_singleton.mp ht'
      obtain rfl := Option.some.inj (hw.symm.trans hw')
      exact hdue

theorem Kept.engage (h : Kept onTime index past v) (hw : v.watch = some w)
    (hfirst : ∀ now, .engaged index now ∉ past) (next : TaskId) :
    Kept onTime index (past ++ [.engaged index v.now])
      (w.watchdog.firstCheck.elim v fun delay => v.await ⟨next, v.now + delay, .check index⟩) := by
  have hbefore : ¬Engaged past index := fun ⟨now, hmem⟩ => hfirst now hmem
  have hnone : v.checks = [] := by
    by_contra hne
    exact hbefore (h.waiting.mp hne).1
  have hover : ¬Over past index := fun hover => hbefore (h.finished hover).1
  have hknown : Known index (past ++ [.engaged index v.now]) v :=
    { unknown := by simp [hw]
      made := by simpa using h.made
      last := by simpa [Event.activity?] using h.last
      last_le := h.last_le
      opened := by simpa using h.opened
      finished := by simp [hover] }
  by_cases hzero : w.watchdog.timeout = 0
  · simp only [Watchdog.firstCheck, hzero, if_true, Option.elim_none]
    exact
      { hknown with
        waiting := by simp [hnone, h.made, hw, hzero]
        single := h.single
        due := by simp [hnone]
        onTime := h.onTime }
  · simp only [Watchdog.firstCheck, hzero, if_false, Option.elim_some]
    refine hknown.await hnone hw (by simp) (Nat.pos_of_ne_zero hzero) (by simpa using hover)
      (by simp) fun since hsince => ?_
    have hnow : since = v.now := by simpa [hfirst] using hsince
    simp only [hnow]
    omega

/-- Nothing is pending after the last look. -/
theorem Known.last_look (h : Known index past v) (hover : Over past index) (hnone : v.checks = []) :
    Kept onTime index past v :=
  { h with
    waiting := by simp [hnone, hover]
    single := by simp [hnone]
    due := by simp [hnone]
    onTime := by simp [hnone] }

theorem Kept.look (h : Kept onTime index past v) (hw : v.watch = some w) {t : Timer Job}
    (ht : t ∈ v.checks) (hdue : t.due ≤ v.now) (next : TaskId) :
    Kept onTime index (past ++ [.looked index v.now (w.watchdog.check w.channelOpen v.now)])
      ((v.spend t.id).heed w index next (w.watchdog.check w.channelOpen v.now)) := by
  obtain ⟨hengaged, -, -, hover⟩ := h.waiting.mp (List.ne_nil_of_mem ht)
  have hchecks : v.checks = [t] := by
    obtain ⟨t', ht'⟩ := List.length_eq_one_iff.mp
      (Nat.le_antisymm h.single (List.length_pos_of_mem ht))
    rw [ht', List.mem_singleton] at ht
    rw [ht', ht]
  have hspend : v.spend t.id = { v with checks := [] } := by simp [View.spend, hchecks]
  have hknown : Known index past { v with checks := [] } := { h.toKnown with }
  rw [hspend]
  cases hcheck : w.watchdog.check w.channelOpen v.now with
  | ended =>
      have hclosed : Closed past index := by
        have hopen := h.opened w hw
        rw [Watchdog.check_eq_ended.mp hcheck] at hopen
        simpa using hopen
      refine Known.last_look (v := { v with checks := [] }) ?_ (by simp) rfl
      exact
        { hknown with
          unknown := by simp [hw]
          made := by simpa using h.made
          last := by simpa [Event.activity?] using h.last
          opened := by simpa using h.opened
          finished := by simp [hengaged, hclosed] }
  | close =>
      refine Known.last_look ?_ (by simp) rfl
      exact hknown.close hw (by simp) (fun _ => hengaged) (by simp [Event.activity?])
  | again delay =>
      obtain ⟨-, hidle, rfl⟩ := Watchdog.check_eq_again.mp hcheck
      have hlast := h.last_le w hw
      refine Known.await (v := { v with checks := [] }) ?_ rfl hw (by simpa using hengaged) (by omega)
        (by simpa using hover) ?_ ?_
      · exact
          { hknown with
            unknown := by simp [hw]
            made := by simpa using h.made
            last := by simpa [Event.activity?] using h.last
            opened := by simpa using h.opened
            finished := by simpa using h.finished }
      · simp
      · intro since hsince
        have hbefore := h.due t ht w hw since (by simpa using hsince)
        simp only
        omega

theorem Run.kept (h : Run onTime index start past v) : Kept onTime index past v := by
  induction h with
  | start => exact kept_start start
  | turn h hturn ih =>
      cases hturn with
      | aside hother => exact ih.concat hother
      | halt hother => exact (ih.concat hother).halt
      | stray hw ht =>
          exact absurd (ih.waiting.mp (List.ne_nil_of_mem ht)).1 (ih.unknown hw).1
      | pass hclock => exact (ih.concat (by simp [Event.index?])).pass hclock
      | create hnew => exact ih.create hnew _
      | engage hw hfirst next => exact ih.engage hw hfirst next
      | touch hw => exact ih.touch hw
      | close hw => exact ih.close hw
      | look hw ht hdue next => exact ih.look hw ht hdue next

variable {before after : List Event} {now timeout since delay last : Nat} {verdict : Watchdog.Verdict}

/-- A look was a check that was pending and due, on what was known then. -/
theorem Run.looked (h : Run onTime index start past v)
    (hpast : past = before ++ .looked index now verdict :: after) :
    ∃ v w t, Kept onTime index before v ∧ v.now = now ∧ v.watch = some w ∧ t ∈ v.checks ∧
      t.due ≤ now ∧ verdict = w.watchdog.check w.channelOpen now := by
  induction h generalizing after with
  | start => simp at hpast
  | turn h hturn ih =>
      rcases cut_concat hpast with ⟨rfl, hevent⟩ | ⟨after', -, hbefore⟩
      · cases hturn with
        | aside hother => simp [← hevent, Event.index?] at hother
        | halt hother => simp [← hevent, Event.index?] at hother
        | look hw ht hdue next =>
            simp only [Event.looked.injEq, true_and] at hevent
            obtain ⟨rfl, rfl⟩ := hevent
            exact ⟨_, _, _, h.kept, rfl, hw, ht, hdue, rfl⟩
        | stray | pass | create | engage | touch | close => simp at hevent
      · exact ih hbefore

theorem Turn.of_engaged {v' : View} (h : Turn onTime index past v (.engaged index now) v') :
    ∀ since, .engaged index since ∉ past := by
  cases h with
  | aside hother => simp [Event.index?] at hother
  | halt hother => simp [Event.index?] at hother
  | engage hw hfirst next => exact hfirst

theorem Run.engaged_once (h : Run onTime index start past v) {since' : Nat}
    (hsince : .engaged index since ∈ past) (hsince' : .engaged index since' ∈ past) :
    since = since' := by
  induction h with
  | start => simp at hsince
  | turn h hturn ih =>
      simp only [List.mem_append, List.mem_singleton] at hsince hsince'
      rcases hsince with hold | rfl
      · rcases hsince' with hold' | rfl
        · exact ih hold hold'
        · exact absurd hold (hturn.of_engaged since)
      · rcases hsince' with hold' | hsame
        · exact absurd hold' (hturn.of_engaged since')
        · simpa using hsame.symm

/-- What a look finds: how long the connection has been idle, and since when it is watched. -/
structure Look (onTime : Prop) (index timeout since : Nat) (before : List Event) (now : Nat)
    (verdict : Watchdog.Verdict) (last : Nat) (channelOpen : Bool) : Prop where
  lastActivity : lastActivity? before index = some last
  last_le : last ≤ now
  timeout_pos : 0 < timeout
  since_le : since + timeout ≤ now
  le_of_onTime : onTime → now ≤ max since last + timeout
  isOpen : channelOpen = true ↔ ¬Closed before index
  not_over : ¬Over before index
  verdict_eq : verdict = (⟨timeout, last⟩ : Watchdog).check channelOpen now

theorem Run.look (h : Run onTime index start past v)
    (hpast : past = before ++ .looked index now verdict :: after)
    (hmade : Made past index timeout) (hsince : .engaged index since ∈ past) :
    ∃ last channelOpen, Look onTime index timeout since before now verdict last channelOpen := by
  obtain ⟨v, w, t, hkept, rfl, hw, ht, hdue, rfl⟩ := h.looked hpast
  obtain ⟨⟨since', hmem⟩, ⟨timeout', hmade', hpos⟩, -, hover⟩ :=
    hkept.waiting.mp (List.ne_nil_of_mem ht)
  have hsame : since = since' := h.engaged_once hsince (hpast ▸ List.mem_append_left _ hmem)
  subst hsame
  obtain ⟨w', hw', rfl⟩ := (hkept.made timeout').mp hmade'
  obtain rfl := Option.some.inj (hw.symm.trans hw')
  have htimeout : timeout = w.watchdog.timeout := by
    obtain ⟨now, hbefore⟩ := hmade'
    have hold : Made past index w.watchdog.timeout := ⟨now, hpast ▸ List.mem_append_left _ hbefore⟩
    obtain ⟨w₁, hw₁, rfl⟩ := (h.kept.made timeout).mp hmade
    obtain ⟨w₂, hw₂, hsame⟩ := (h.kept.made _).mp hold
    rw [← hsame, Option.some.inj (hw₁.symm.trans hw₂)]
  subst htimeout
  obtain ⟨hfrom, hto⟩ := hkept.due t ht w hw since hmem
  refine ⟨w.watchdog.lastActivity, w.channelOpen,
    { lastActivity := by simp [hkept.last, hw]
      last_le := hkept.last_le w hw
      timeout_pos := hpos
      since_le := Nat.le_trans hfrom hdue
      le_of_onTime := fun hontime => ?_
      isOpen := hkept.opened w hw
      not_over := hover
      verdict_eq := rfl }⟩
  exact Nat.le_trans (hkept.onTime hontime t ht) hto

/-- A look that closes the channel has found the connection idle for the timeout. -/
theorem Look.idle {channelOpen : Bool}
    (h : Look onTime index timeout since before now .close last channelOpen) : last + timeout ≤ now := by
  obtain ⟨-, hidle⟩ := Watchdog.check_eq_close.mp h.verdict_eq.symm
  have hpos := h.timeout_pos
  simp only at hidle
  omega

/-- A watchdog closes only a connection on which nothing has happened for the timeout. -/
theorem Run.not_early (h : Run onTime index start past v)
    (hpast : past = before ++ .looked index now .close :: after)
    (hmade : Made past index timeout) (hsince : .engaged index since ∈ past) :
    ∃ last, lastActivity? before index = some last ∧ last + timeout ≤ now := by
  obtain ⟨last, channelOpen, hlook⟩ := h.look hpast hmade hsince
  exact ⟨last, hlook.lastActivity, hlook.idle⟩

/-- A watchdog that is never late closes at the first moment at which it may. -/
theorem Run.closed_at (h : Run onTime index start past v) (hontime : onTime)
    (hpast : past = before ++ .looked index now .close :: after)
    (hmade : Made past index timeout) (hsince : .engaged index since ∈ past) :
    ∃ last, lastActivity? before index = some last ∧ now = max since last + timeout := by
  obtain ⟨last, channelOpen, hlook⟩ := h.look hpast hmade hsince
  have hidle := hlook.idle
  have hfrom := hlook.since_le
  have hto := hlook.le_of_onTime hontime
  exact ⟨last, hlook.lastActivity, by omega⟩

/-- A watchdog that looks again does so when the rest of the timeout has passed. -/
theorem Run.again_spec (h : Run onTime index start past v)
    (hpast : past = before ++ .looked index now (.again delay) :: after)
    (hmade : Made past index timeout) (hsince : .engaged index since ∈ past) :
    0 < delay ∧ delay ≤ timeout ∧ ∃ last, lastActivity? before index = some last ∧
      last ≤ now ∧ now - last < timeout ∧ delay = timeout - (now - last) := by
  obtain ⟨last, channelOpen, hlook⟩ := h.look hpast hmade hsince
  obtain ⟨-, hidle, hdelay⟩ := Watchdog.check_eq_again.mp hlook.verdict_eq.symm
  have hle := hlook.last_le
  simp only at hidle hdelay
  exact ⟨by omega, by omega, last, hlook.lastActivity, hle, hidle, by omega⟩

/-- The look that finds the channel closed is the last one. -/
theorem Run.ended_of_closed (h : Run onTime index start past v)
    (hpast : past = before ++ .looked index now verdict :: after) (hclosed : Closed before index)
    (hmade : Made past index timeout) (hsince : .engaged index since ∈ past) :
    verdict = .ended ∧ ∀ later verdict', .looked index later verdict' ∉ after := by
  obtain ⟨last, channelOpen, hlook⟩ := h.look hpast hmade hsince
  have hshut : channelOpen = false := by simpa [hclosed] using hlook.isOpen
  have hended : verdict = .ended := hlook.verdict_eq.trans (Watchdog.check_eq_ended.mpr hshut)
  refine ⟨hended, fun later verdict' hmem => ?_⟩
  obtain ⟨between, rest, -, hpast'⟩ := cut_after hpast hmem
  obtain ⟨_, _, hlater⟩ := h.look hpast' hmade hsince
  exact hlater.not_over ⟨now, verdict, by simp, by simp [hended]⟩

end

/-! ### Courses -/

/-- The channel of a watch is open. -/
def IsOpen (a : Agenda) (index : Nat) : Prop :=
  ∃ w, a.watches[index]? = some w ∧ w.channelOpen = true

section

variable {onTime : Prop} {index start timeout since : Nat} {past : List Event} {a : Agenda}

theorem Kept.isOpen_iff (h : Kept onTime index past (a.view index)) (hmade : Made past index timeout) :
    a.IsOpen index ↔ ¬Closed past index := by
  obtain ⟨w, hw, -⟩ := (h.made timeout).mp hmade
  have hopened := h.opened w hw
  simp only [watch_view] at hw
  simp only [IsOpen, hw, Option.some.injEq, exists_eq_left', hopened]

theorem Kept.checks_iff (h : Kept onTime index past (a.view index)) (hmade : Made past index timeout)
    (hsince : .engaged index since ∈ past) :
    a.checks index ≠ [] ↔ 0 < timeout ∧ a.scheduler.stopped = false ∧ ¬Over past index := by
  have hunique : ∀ other, Made past index other ↔ other = timeout := by
    obtain ⟨w, hw, rfl⟩ := (h.made timeout).mp hmade
    intro other
    simp only [h.made, hw, Option.some.injEq, exists_eq_left', eq_comm]
  have hengaged : Engaged past index := ⟨since, hsince⟩
  simpa only [hengaged, hunique, exists_eq_left, true_and, checks_view, stopped_view] using h.waiting

/-- While nobody has closed the channel a check is pending, due within the timeout, counted from when
the watch began or from the last activity, whichever was later. -/
theorem Kept.exists_check (h : Kept onTime index past (a.view index)) (hmade : Made past index timeout)
    (hsince : .engaged index since ∈ past) (hpos : 0 < timeout)
    (hstopped : a.scheduler.stopped = false) (hopen : ¬Closed past index) :
    ∃ t ∈ a.checks index, (onTime → a.scheduler.now ≤ t.due) ∧
      ∃ last, lastActivity? past index = some last ∧ t.due ≤ max since last + timeout := by
  have hpending := (h.checks_iff hmade hsince).mpr
    ⟨hpos, hstopped, fun hover => hopen (h.finished hover).2⟩
  obtain ⟨t, ht⟩ := List.exists_mem_of_ne_nil _ hpending
  obtain ⟨w, hw, rfl⟩ := (h.made timeout).mp hmade
  exact ⟨t, ht, fun hontime => h.onTime hontime t ht, w.watchdog.lastActivity,
    by simp only [h.last, hw, Option.map_some], (h.due t ht w hw since hsince).2⟩

end

end Scheduler.Agenda

end SpdySessions
