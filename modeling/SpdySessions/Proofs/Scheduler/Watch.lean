import SpdySessions.Proofs.Scheduler.Tasks
import SpdySessions.Scheduler.Agenda

/-! What can happen to one watch. Watchdogs share their scheduler and its clock with each other and
with tasks that schedule, cancel and stop. Seen from one watch there is little to all of that: its
own checks come and go, the scheduler stops, time passes, and the rest leaves it as it is. -/

namespace SpdySessions.Scheduler

def Job.looksAt (index : Nat) : Job → Bool
  | .program _ _ => false
  | .check other => other == index

namespace Agenda

/-- A watchdog is made for an open channel. It does not watch yet. -/
def create (a : Agenda) (timeout : Nat) : Agenda :=
  { a with watches := a.watches ++ [{ watchdog := ⟨timeout, a.scheduler.now⟩ }] }

def lookAfter (a : Agenda) (index delay : Nat) : Agenda :=
  { a with scheduler := (a.scheduler.schedule delay (.check index)).2 }

/-- A watchdog begins to watch. -/
def engage (a : Agenda) (index : Nat) : Agenda :=
  ((a.watches[index]?).bind (·.watchdog.firstCheck)).elim a (a.lookAfter index)

/-- A watchdog that is armed is made and watches from then on. -/
theorem arm_eq (a : Agenda) (timeout : Nat) :
    a.arm timeout = (a.create timeout).engage a.watches.length := by
  by_cases hzero : timeout = 0 <;>
    simp [arm, create, engage, lookAfter, Watchdog.firstCheck, hzero]

def pass (a : Agenda) (span : Nat) : Agenda :=
  { a with scheduler := a.scheduler.pass span }

def takeOut (a : Agenda) (id : TaskId) : Agenda :=
  { a with scheduler := (a.scheduler.goOff id).2 }

/-- A timer goes off, and the body of its task runs. -/
def goOff (a : Agenda) (t : Timer Job) : Agenda :=
  (a.takeOut t.id).run t.body

/-- What is remembered of the past of an agenda. -/
inductive Event where
  | ordered
  | ran (tag : String)
  | passed (span : Nat)
  | created (index timeout now : Nat)
  | engaged (index now : Nat)
  | touched (index now : Nat)
  /-- The channel was closed, and not by its watchdog. -/
  | closed (index : Nat)
  | looked (index now : Nat) (verdict : Watchdog.Verdict)
  deriving DecidableEq

def Event.index? : Event → Option Nat
  | ordered | ran _ | passed _ => none
  | created index _ _ | engaged index _ | touched index _ | closed index | looked index _ _ =>
      some index

/-- What a job that begins to run leaves in the past. -/
def trace (a : Agenda) : Job → Event
  | .program tag _ => .ran tag
  | .check index =>
      (a.watches[index]?).elim .ordered fun w =>
        .looked index a.scheduler.now (w.watchdog.check w.channelOpen a.scheduler.now)

/-- An agenda in use. The tasks give their orders when they run or from outside, the watchdogs are
made and touched and their channels closed at any moment, and a timer goes off at any time that is
not before its own. The clock says how far time may move at once. -/
inductive Course (clock : Agenda → Nat → Prop) (start : Nat) : List Event → Agenda → Prop
  | start : Course clock start [] { scheduler := { now := start } }
  | order {past : List Event} {a : Agenda} (h : Course clock start past a) (order : Order) :
      Course clock start (past ++ [.ordered]) (a.obey order)
  | create {past : List Event} {a : Agenda} (h : Course clock start past a) (timeout : Nat) :
      Course clock start (past ++ [.created a.watches.length timeout a.scheduler.now])
        (a.create timeout)
  | engage {past : List Event} {a : Agenda} (h : Course clock start past a) {index : Nat}
      (hindex : index < a.watches.length) (hfirst : ∀ now, .engaged index now ∉ past) :
      Course clock start (past ++ [.engaged index a.scheduler.now]) (a.engage index)
  | touch {past : List Event} {a : Agenda} (h : Course clock start past a) {index : Nat}
      (hindex : index < a.watches.length) :
      Course clock start (past ++ [.touched index a.scheduler.now]) (a.touch index)
  | close {past : List Event} {a : Agenda} (h : Course clock start past a) {index : Nat}
      (hindex : index < a.watches.length) :
      Course clock start (past ++ [.closed index]) (a.close index).2
  | pass {past : List Event} {a : Agenda} (h : Course clock start past a) {span : Nat}
      (hclock : clock a span) : Course clock start (past ++ [.passed span]) (a.pass span)
  | goOff {past : List Event} {a : Agenda} (h : Course clock start past a) {t : Timer Job}
      (ht : t ∈ a.scheduler.pending) (hdue : t.due ≤ a.scheduler.now) :
      Course clock start (past ++ [a.trace t.body]) (a.goOff t)

/-- What follows a look. -/
def heed (a : Agenda) (index : Nat) : Watchdog.Verdict → Agenda
  | .ended => a
  | .close => (a.close index).2
  | .again delay => a.lookAfter index delay

theorem run_check {a : Agenda} {index : Nat} {w : Watch} (hw : a.watches[index]? = some w) :
    a.run (.check index) =
      a.heed index (w.watchdog.check w.channelOpen a.scheduler.now) := by
  simp only [run, hw]
  cases w.watchdog.check w.channelOpen a.scheduler.now <;> rfl

/-! ### The scheduler underneath -/

/-- The scheduler of an agenda has come about by calls and timers, and nobody has the handle of a
check: what can be cancelled is a task. -/
structure Sound (a : Agenda) : Prop where
  course : ∃ start past, Scheduler.Course start past a.scheduler
  latest : ∀ entry ∈ a.latest, entry.2 < a.scheduler.nextId ∧
    ∀ t ∈ a.scheduler.pending, t.id = entry.2 → ∀ index, t.body.looksAt index = false

section

variable {a : Agenda} {s : Scheduler Job} {index : Nat}

theorem Sound.nodup (h : Sound a) : (a.scheduler.pending.map Timer.id).Nodup := by
  obtain ⟨start, past, hcourse⟩ := h.course
  exact hcourse.books.nodup

theorem Sound.below (h : Sound a) {t : Timer Job} (ht : t ∈ a.scheduler.pending) :
    t.id < a.scheduler.nextId := by
  obtain ⟨start, past, hcourse⟩ := h.course
  have hwaits := (hcourse.books.waiting t.id).mp (List.mem_map_of_mem ht)
  exact hcourse.books.below t.id hwaits.1

/-- Whoever schedules anew leaves the handles of the tasks valid. -/
theorem Sound.update (h : Sound a) (hcourse : ∃ start past, Scheduler.Course start past s)
    (hnext : a.scheduler.nextId ≤ s.nextId)
    (hpending : ∀ t ∈ s.pending, t ∈ a.scheduler.pending ∨ t.id = a.scheduler.nextId) :
    Sound { a with scheduler := s } where
  course := hcourse
  latest entry hentry := by
    obtain ⟨hlt, hold⟩ := h.latest entry hentry
    refine ⟨Nat.lt_of_lt_of_le hlt hnext, fun t ht hid => ?_⟩
    rcases hpending t ht with ht | hnew
    · exact hold t ht hid
    · exact absurd (hid.symm.trans hnew) (Nat.ne_of_lt hlt)

theorem nextId_schedule_le {β : Type} (s : Scheduler β) (delay : Nat) (body : β) :
    s.nextId ≤ (s.schedule delay body).2.nextId := by
  unfold Scheduler.schedule
  split <;> simp

theorem mem_pending_schedule {β : Type} {s : Scheduler β} {delay : Nat} {body : β} {t : Timer β}
    (h : t ∈ (s.schedule delay body).2.pending) :
    t ∈ s.pending ∨ t = ⟨s.nextId, s.now + delay, body⟩ := by
  unfold Scheduler.schedule at h
  split at h
  · exact Or.inl h
  · simpa using h

theorem Sound.lookAfter (h : Sound a) (index delay : Nat) : Sound (a.lookAfter index delay) := by
  obtain ⟨start, past, hcourse⟩ := h.course
  refine h.update ⟨start, _, hcourse.schedule delay _⟩ (nextId_schedule_le _ _ _) fun t ht => ?_
  rcases mem_pending_schedule ht with ht | rfl
  · exact Or.inl ht
  · exact Or.inr rfl

theorem Sound.pass (h : Sound a) (span : Nat) : Sound (a.pass span) := by
  obtain ⟨start, past, hcourse⟩ := h.course
  exact h.update ⟨start, _, hcourse.pass span⟩ (by simp) fun t ht => Or.inl (by simpa using ht)

theorem Sound.stop (h : Sound a) : Sound a.stop := by
  obtain ⟨start, past, hcourse⟩ := h.course
  exact h.update ⟨start, _, hcourse.stop⟩ (by simp) fun t ht => by simp [Scheduler.stop] at ht

theorem Sound.cancel (h : Sound a) (tag : String) : Sound (a.cancel tag).2 := by
  obtain ⟨start, past, hcourse⟩ := h.course
  unfold Agenda.cancel
  split
  · exact h
  · exact h.update ⟨start, _, hcourse.cancel _⟩ (Nat.le_refl _) fun t ht =>
      Or.inl (List.mem_of_mem_filter ht)

theorem Sound.schedule (h : Sound a) (tag : String) (delay : Nat) (program : List Order) :
    Sound (a.schedule tag delay program).2 := by
  obtain ⟨start, past, hcourse⟩ := h.course
  have hnext := nextId_schedule_le a.scheduler delay (.program tag program)
  unfold Agenda.schedule
  split
  · exact h
  · split
    · exact h
    · rename_i id s hs
      have hid : id = a.scheduler.nextId := by
        unfold Scheduler.schedule at hs
        split at hs <;> simp_all
      have hlt : id < s.nextId := by
        unfold Scheduler.schedule at hs
        split at hs <;> simp at hs
        simp [← hs.1, ← hs.2]
      have hcourse' := hcourse.schedule delay (Job.program tag program)
      rw [hs] at hcourse' hnext
      refine ⟨⟨start, _, hcourse'⟩, fun entry hentry => ?_⟩
      have hmem (t : Timer Job) (ht : t ∈ s.pending) :
          t ∈ a.scheduler.pending ∨
            t = ⟨a.scheduler.nextId, a.scheduler.now + delay, .program tag program⟩ :=
        mem_pending_schedule (by rwa [hs])
      rcases List.mem_cons.mp hentry with rfl | hentry
      · refine ⟨hlt, fun t ht hsame index => ?_⟩
        rcases hmem t ht with ht | rfl
        · exact absurd (hsame.trans hid) (Nat.ne_of_lt (h.below ht))
        · rfl
      · obtain ⟨hlt', hold⟩ := h.latest entry (List.mem_of_mem_filter hentry)
        refine ⟨Nat.lt_of_lt_of_le hlt' hnext, fun t ht hsame index => ?_⟩
        rcases hmem t ht with ht | rfl
        · exact hold t ht hsame index
        · rfl

theorem Sound.obey (h : Sound a) (order : Order) : Sound (a.obey order) := by
  cases order with
  | schedule tag delay program => exact h.schedule tag delay program
  | cancel tag => exact h.cancel tag
  | stop => exact h.stop

theorem Sound.foldl_obey (h : Sound a) (orders : List Order) : Sound (orders.foldl Agenda.obey a) := by
  induction orders generalizing a with
  | nil => exact h
  | cons order rest ih => exact ih (h.obey order)

theorem Sound.run (h : Sound a) (job : Job) : Sound (a.run job) := by
  cases job with
  | program tag orders =>
      have hfired : Sound { a with fired := a.fired ++ [tag] } := ⟨h.course, h.latest⟩
      simpa only [Agenda.run] using hfired.foldl_obey orders
  | check index =>
      cases hw : a.watches[index]? with
      | none => simpa [Agenda.run, hw] using h
      | some w =>
          rw [run_check hw]
          cases w.watchdog.check w.channelOpen a.scheduler.now with
          | ended => exact h
          | close => exact ⟨h.course, h.latest⟩
          | again delay => exact h.lookAfter index delay

theorem Sound.takeOut (h : Sound a) {t : Timer Job} (ht : t ∈ a.scheduler.pending)
    (hdue : t.due ≤ a.scheduler.now) : Sound (a.takeOut t.id) := by
  obtain ⟨start, past, hcourse⟩ := h.course
  obtain ⟨made, delay, hmade, hat⟩ := hcourse.books.timers t ht
  exact h.update ⟨start, _, hcourse.goOff hmade (by omega)⟩ (Nat.le_refl _) fun t ht =>
    Or.inl (List.mem_of_mem_filter ht)

theorem Course.sound {clock : Agenda → Nat → Prop} {start : Nat} {past : List Event}
    (h : Course clock start past a) : Sound a := by
  induction h with
  | start => exact ⟨⟨start, [], .start⟩, fun entry hentry => absurd hentry List.not_mem_nil⟩
  | order h order ih => exact ih.obey order
  | create h timeout ih => exact ⟨ih.course, ih.latest⟩
  | @engage past a h index hindex hfirst ih =>
      rw [Agenda.engage]
      cases (a.watches[index]?).bind (·.watchdog.firstCheck) with
      | none => exact ih
      | some delay => exact ih.lookAfter index delay
  | touch h hindex ih => exact ⟨ih.course, ih.latest⟩
  | close h hindex ih => exact ⟨ih.course, ih.latest⟩
  | pass h hclock ih => exact ih.pass _
  | goOff h ht hdue ih => exact (ih.takeOut ht hdue).run _

end

/-! ### One watch -/

/-- The pending checks of one watch. -/
def checks (a : Agenda) (index : Nat) : List (Timer Job) :=
  a.scheduler.pending.filter (·.body.looksAt index)

/-- What there is to see of an agenda from one watch. -/
structure View where
  now : Nat
  stopped : Bool
  watch : Option Watch
  checks : List (Timer Job)

def view (a : Agenda) (index : Nat) : View :=
  ⟨a.scheduler.now, a.scheduler.stopped, a.watches[index]?, a.checks index⟩

namespace View

def halt (v : View) : View :=
  { v with stopped := true, checks := [] }

def await (v : View) (t : Timer Job) : View :=
  if v.stopped then v else { v with checks := v.checks ++ [t] }

def spend (v : View) (id : TaskId) : View :=
  { v with checks := v.checks.filter (·.id ≠ id) }

/-- What follows a look, seen from the watch itself. -/
def heed (v : View) (w : Watch) (index : Nat) (next : TaskId) : Watchdog.Verdict → View
  | .ended => v
  | .close => { v with watch := some { w with channelOpen := false } }
  | .again delay => v.await ⟨next, v.now + delay, .check index⟩

@[simp] theorem now_halt (v : View) : v.halt.now = v.now := rfl

@[simp] theorem now_spend (v : View) (id : TaskId) : (v.spend id).now = v.now := rfl

@[simp] theorem now_await (v : View) (t : Timer Job) : (v.await t).now = v.now := by
  by_cases hstopped : v.stopped = true <;> simp [await, hstopped]

@[simp] theorem now_heed (v : View) (w : Watch) (index : Nat) (next : TaskId)
    (verdict : Watchdog.Verdict) : (v.heed w index next verdict).now = v.now := by
  cases verdict <;> simp [heed]

@[simp] theorem halt_halt (v : View) : v.halt.halt = v.halt := rfl

end View

/-- What one step can be to one watch. -/
inductive Turn (onTime : Prop) (index : Nat) (past : List Event) : View → Event → View → Prop
  | aside {v : View} {event : Event} (hother : event.index? ≠ some index) :
      Turn onTime index past v event v
  | halt {v : View} {event : Event} (hother : event.index? ≠ some index) :
      Turn onTime index past v event v.halt
  /-- Nobody made the watch that is looked at. -/
  | stray {v : View} {t : Timer Job} (hw : v.watch = none) (ht : t ∈ v.checks) :
      Turn onTime index past v .ordered (v.spend t.id)
  | pass {v : View} {span : Nat} (hclock : onTime → ∀ t ∈ v.checks, v.now + span ≤ max v.now t.due) :
      Turn onTime index past v (.passed span) { v with now := v.now + span }
  | create {v : View} {timeout : Nat} (hnew : v.watch = none) :
      Turn onTime index past v (.created index timeout v.now)
        { v with watch := some { watchdog := ⟨timeout, v.now⟩ } }
  | engage {v : View} {w : Watch} (hw : v.watch = some w)
      (hfirst : ∀ now, .engaged index now ∉ past) (next : TaskId) :
      Turn onTime index past v (.engaged index v.now)
        (w.watchdog.firstCheck.elim v fun delay => v.await ⟨next, v.now + delay, .check index⟩)
  | touch {v : View} {w : Watch} (hw : v.watch = some w) :
      Turn onTime index past v (.touched index v.now)
        { v with watch := some { w with watchdog := w.watchdog.touch v.now } }
  | close {v : View} {w : Watch} (hw : v.watch = some w) :
      Turn onTime index past v (.closed index) { v with watch := some { w with channelOpen := false } }
  | look {v : View} {w : Watch} {t : Timer Job} (hw : v.watch = some w) (ht : t ∈ v.checks)
      (hdue : t.due ≤ v.now) (next : TaskId) :
      Turn onTime index past v (.looked index v.now (w.watchdog.check w.channelOpen v.now))
        ((v.spend t.id).heed w index next (w.watchdog.check w.channelOpen v.now))

section

variable {a : Agenda} {index other : Nat} {w : Watch}

@[simp] theorem watch_view (a : Agenda) (index : Nat) : (a.view index).watch = a.watches[index]? := rfl

@[simp] theorem now_view (a : Agenda) (index : Nat) : (a.view index).now = a.scheduler.now := rfl

@[simp] theorem stopped_view (a : Agenda) (index : Nat) :
    (a.view index).stopped = a.scheduler.stopped := rfl

@[simp] theorem checks_view (a : Agenda) (index : Nat) : (a.view index).checks = a.checks index := rfl

theorem view_lookAfter (a : Agenda) (index delay : Nat) :
    (a.lookAfter index delay).view index =
      (a.view index).await ⟨a.scheduler.nextId, a.scheduler.now + delay, .check index⟩ := by
  by_cases hstopped : a.scheduler.stopped = true <;>
    simp [view, lookAfter, checks, Scheduler.schedule, View.await, Job.looksAt, hstopped]

theorem view_lookAfter_of_ne (hne : other ≠ index) (delay : Nat) :
    (a.lookAfter other delay).view index = a.view index := by
  by_cases hstopped : a.scheduler.stopped = true <;>
    simp [view, lookAfter, checks, Scheduler.schedule, Job.looksAt, hstopped, hne]

theorem view_close (hw : a.watches[index]? = some w) :
    (a.close index).2.view index =
      { a.view index with watch := some { w with channelOpen := false } } := by
  simp [view, close, checks, hw]

theorem view_close_of_ne (hne : other ≠ index) : (a.close other).2.view index = a.view index := by
  simp [view, close, checks, hne]

theorem view_touch (hw : a.watches[index]? = some w) :
    (a.touch index).view index =
      { a.view index with watch := some { w with watchdog := w.watchdog.touch a.scheduler.now } } := by
  simp [view, touch, checks, hw]

theorem view_touch_of_ne (hne : other ≠ index) : (a.touch other).view index = a.view index := by
  simp [view, touch, checks, hne]

theorem view_stop (a : Agenda) (index : Nat) : a.stop.view index = (a.view index).halt := by
  simp [view, stop, Scheduler.stop, checks, View.halt]

/-- An order is nothing to a watch, unless it stops the scheduler. -/
theorem Sound.view_obey (h : Sound a) (order : Order) (index : Nat) :
    (a.obey order).view index = a.view index ∨ (a.obey order).view index = (a.view index).halt := by
  cases order with
  | schedule tag delay program =>
      left
      simp only [Agenda.obey, Agenda.schedule]
      split
      · rfl
      · split
        · rfl
        · rename_i id s hs
          unfold Scheduler.schedule at hs
          split at hs
          · simp at hs
          · simp only [Prod.mk.injEq] at hs
            simp [view, checks, ← hs.2, Job.looksAt]
  | cancel tag =>
      left
      simp only [Agenda.obey, Agenda.cancel]
      split
      · rfl
      · rename_i id hfind
        have hlatest := (h.latest _ (List.mem_of_find?_eq_some hfind)).2
        simp only [view, checks, Scheduler.cancel, List.filter_filter, View.mk.injEq, true_and]
        refine List.filter_congr fun t ht => ?_
        by_cases hid : t.id = id
        · simp [hlatest t ht hid index]
        · simp [hid]
  | stop => exact Or.inr (view_stop a index)

theorem Sound.view_foldl_obey (h : Sound a) (orders : List Order) (index : Nat) :
    (orders.foldl Agenda.obey a).view index = a.view index ∨
      (orders.foldl Agenda.obey a).view index = (a.view index).halt := by
  induction orders generalizing a with
  | nil => exact Or.inl rfl
  | cons order rest ih =>
      rw [List.foldl_cons]
      rcases h.view_obey order index with hsame | hhalt
      · simpa only [hsame] using ih (h.obey order)
      · right
        simpa only [hhalt, View.halt_halt, or_self] using ih (h.obey order)

theorem Sound.view_takeOut (h : Sound a) {t : Timer Job} (ht : t ∈ a.scheduler.pending)
    (hother : t.body.looksAt index = false) : (a.takeOut t.id).view index = a.view index := by
  simp only [view, Agenda.takeOut, checks, Scheduler.goOff, List.filter_filter, View.mk.injEq,
    true_and]
  refine List.filter_congr fun other hmem => ?_
  by_cases hid : other.id = t.id
  · have hsame : other = t := List.inj_on_of_nodup_map h.nodup hmem ht hid
    simp [hsame, hother]
  · simp [hid]

theorem view_takeOut (a : Agenda) (id : TaskId) (index : Nat) :
    (a.takeOut id).view index = (a.view index).spend id := by
  simp only [view, takeOut, checks, Scheduler.goOff, View.spend, List.filter_filter, Bool.and_comm]

/-- The clock does not leave the time of a pending check of the watch behind. -/
def OnTime (clock : Agenda → Nat → Prop) (index : Nat) : Prop :=
  ∀ a span, clock a span → ∀ t ∈ a.checks index, a.scheduler.now + span ≤ max a.scheduler.now t.due

/-- What has happened to one watch. -/
inductive Run (onTime : Prop) (index start : Nat) : List Event → View → Prop
  | start : Run onTime index start [] ⟨start, false, none, []⟩
  | turn {past : List Event} {v v' : View} {event : Event} (h : Run onTime index start past v)
      (hturn : Turn onTime index past v event v') : Run onTime index start (past ++ [event]) v'

variable {onTime : Prop} {past : List Event} {event : Event} {v : View}

theorem Turn.of_halt (hother : event.index? ≠ some index) (h : v = a.view index ∨ v = (a.view index).halt) :
    Turn onTime index past (a.view index) event v := by
  rcases h with rfl | rfl
  · exact .aside hother
  · exact .halt hother

theorem turn_create (a : Agenda) (index timeout : Nat) :
    Turn onTime index past (a.view index) (.created a.watches.length timeout a.scheduler.now)
      ((a.create timeout).view index) := by
  by_cases hindex : index = a.watches.length
  · subst hindex
    have hview : (a.create timeout).view a.watches.length = { a.view a.watches.length with
        watch := some { watchdog := ⟨timeout, a.scheduler.now⟩ } } := by
      simp [view, create, checks]
    rw [hview]
    exact .create (v := a.view a.watches.length) (by simp)
  · have hview : (a.create timeout).view index = a.view index := by
      simp only [view, create, checks, View.mk.injEq, true_and, and_true]
      rcases Nat.lt_or_ge index a.watches.length with hlt | hge
      · exact List.getElem?_append_left hlt
      · rw [List.getElem?_eq_none hge, List.getElem?_eq_none (by simp; omega)]
    rw [hview]
    exact .aside (by simpa [Event.index?] using Ne.symm hindex)

theorem turn_engage (hw : a.watches[other]? = some w) (hfirst : ∀ now, .engaged other now ∉ past) :
    Turn onTime index past (a.view index) (.engaged other a.scheduler.now)
      ((a.engage other).view index) := by
  simp only [engage, hw, Option.bind_some]
  by_cases hne : other = index
  · subst hne
    have hturn : Turn onTime other past _ _ _ :=
      .engage (v := a.view other) hw hfirst a.scheduler.nextId
    cases hcheck : w.watchdog.firstCheck with
    | none => simpa [hcheck] using hturn
    | some delay => simpa [hcheck, view_lookAfter] using hturn
  · have hview : (w.watchdog.firstCheck.elim a (a.lookAfter other)).view index = a.view index := by
      cases w.watchdog.firstCheck with
      | none => rfl
      | some delay => exact view_lookAfter_of_ne hne delay
    rw [hview]
    exact .aside (by simpa [Event.index?] using hne)

theorem turn_touch (hw : a.watches[other]? = some w) :
    Turn onTime index past (a.view index) (.touched other a.scheduler.now)
      ((a.touch other).view index) := by
  by_cases hne : other = index
  · subst hne
    rw [view_touch hw]
    exact .touch (v := a.view other) hw
  · rw [view_touch_of_ne hne]
    exact .aside (by simpa [Event.index?] using hne)

theorem turn_close (hw : a.watches[other]? = some w) :
    Turn onTime index past (a.view index) (.closed other) ((a.close other).2.view index) := by
  by_cases hne : other = index
  · subst hne
    rw [view_close hw]
    exact .close (v := a.view other) hw
  · rw [view_close_of_ne hne]
    exact .aside (by simpa [Event.index?] using hne)

theorem view_heed (hw : a.watches[index]? = some w) (verdict : Watchdog.Verdict) :
    (a.heed index verdict).view index =
      (a.view index).heed w index a.scheduler.nextId verdict := by
  cases verdict with
  | ended => rfl
  | close => exact view_close hw
  | again delay => exact view_lookAfter a index delay

theorem view_heed_of_ne (hne : other ≠ index) (verdict : Watchdog.Verdict) :
    (a.heed other verdict).view index = a.view index := by
  cases verdict with
  | ended => rfl
  | close => exact view_close_of_ne hne
  | again delay => exact view_lookAfter_of_ne hne delay

/-- A timer that goes off is a look of its own watch, and to every other watch at most a stop. -/
theorem Sound.turn_goOff (h : Sound a) {t : Timer Job} (ht : t ∈ a.scheduler.pending)
    (hdue : t.due ≤ a.scheduler.now) :
    Turn onTime index past (a.view index) (a.trace t.body) ((a.goOff t).view index) := by
  have hsound := h.takeOut ht hdue
  rcases t with ⟨id, due, body⟩
  cases body with
  | program tag orders =>
      have hview : (a.takeOut id).view index = a.view index := h.view_takeOut ht rfl
      have hfired : Sound { a.takeOut id with fired := a.fired ++ [tag] } :=
        ⟨hsound.course, hsound.latest⟩
      have hfold := hfired.view_foldl_obey orders index
      refine .of_halt (by simp [trace, Event.index?]) ?_
      rw [← hview]
      exact hfold
  | check other =>
      have hmem : ⟨id, due, .check other⟩ ∈ a.checks other :=
        List.mem_filter.mpr ⟨ht, by simp [Job.looksAt]⟩
      cases hw : a.watches[other]? with
      | none =>
          have hrun : a.goOff ⟨id, due, .check other⟩ = a.takeOut id := by
            have hw' : (a.takeOut id).watches[other]? = none := hw
            simp only [goOff, Agenda.run, hw']
          rw [hrun, trace, hw]
          by_cases hne : other = index
          · subst hne
            rw [Agenda.view_takeOut]
            exact .stray (v := a.view other) hw hmem
          · rw [h.view_takeOut ht (by simpa [Job.looksAt] using hne)]
            exact .aside (by simp [Event.index?])
      | some w =>
          have hw' : (a.takeOut id).watches[other]? = some w := hw
          rw [goOff, run_check hw', trace, hw]
          by_cases hne : other = index
          · subst hne
            rw [view_heed hw', Agenda.view_takeOut]
            exact .look (v := a.view other) hw hmem hdue _
          · rw [view_heed_of_ne hne, h.view_takeOut ht (by simpa [Job.looksAt] using hne)]
            exact .aside (by simpa [Event.index?] using hne)

theorem Course.run {clock : Agenda → Nat → Prop} {start : Nat} (h : Course clock start past a)
    (index : Nat) : Run (OnTime clock index) index start past (a.view index) := by
  induction h with
  | start => exact .start
  | order h order ih =>
      exact ih.turn (.of_halt (by simp [Event.index?]) (h.sound.view_obey order index))
  | create h timeout ih => exact ih.turn (turn_create _ index timeout)
  | engage h hindex hfirst ih =>
      exact ih.turn (turn_engage (List.getElem?_eq_getElem hindex) hfirst)
  | touch h hindex ih => exact ih.turn (turn_touch (List.getElem?_eq_getElem hindex))
  | close h hindex ih => exact ih.turn (turn_close (List.getElem?_eq_getElem hindex))
  | @pass past a h span hclock ih =>
      exact ih.turn (.pass (v := a.view index) fun hontime => hontime a span hclock)
  | goOff h ht hdue ih => exact ih.turn (h.sound.turn_goOff ht hdue)

end

end Agenda

end SpdySessions.Scheduler
