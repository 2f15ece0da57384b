import Mathlib.Data.Set.Card
import SpdySessions.Proofs.Past
import SpdySessions.Scheduler

/-! Tasks run at most once. Scheduling, cancelling, stopping and the going off of timers all meet at
the table of pending tasks, in any order and from anywhere: whoever takes a task out of the table
decides what becomes of it. The invariant says which tasks are in the table in terms of the past
alone; everything else is read off what each entry of the past says about the entries before it. -/

namespace SpdySessions.Scheduler

variable {β : Type}

/-- The timer of a task goes off: a task that is still pending is taken out, and its body runs. -/
def goOff (s : Scheduler β) (id : TaskId) : Option β × Scheduler β :=
  ((s.pending.find? (·.id = id)).map Timer.body,
    { s with pending := s.pending.filter (·.id ≠ id) })

def pass (s : Scheduler β) (span : Nat) : Scheduler β :=
  { s with now := s.now + span }

@[simp] theorem now_pass (s : Scheduler β) (span : Nat) : (s.pass span).now = s.now + span := rfl

@[simp] theorem pending_pass (s : Scheduler β) (span : Nat) : (s.pass span).pending = s.pending := rfl

@[simp] theorem nextId_pass (s : Scheduler β) (span : Nat) : (s.pass span).nextId = s.nextId := rfl

@[simp] theorem stopped_pass (s : Scheduler β) (span : Nat) : (s.pass span).stopped = s.stopped := rfl

@[simp] theorem nextId_stop (s : Scheduler β) : s.stop.nextId = s.nextId := rfl

theorem earliest_eq_none {timers : List (Timer β)} : earliest timers = none ↔ timers = [] := by
  cases timers with
  | nil => simp [earliest]
  | cons first rest =>
      cases hrest : earliest rest with
      | none => simp [earliest, hrest]
      | some other => by_cases hlt : other.due < first.due <;> simp [earliest, hrest, hlt]

theorem due_earliest_le {timers : List (Timer β)} {t t' : Timer β}
    (h : earliest timers = some t) (ht' : t' ∈ timers) : t.due ≤ t'.due := by
  induction timers generalizing t with
  | nil => simp at ht'
  | cons first rest ih =>
      cases hrest : earliest rest with
      | none =>
          obtain rfl : rest = [] := earliest_eq_none.mp hrest
          obtain rfl : first = t := by simpa [earliest] using h
          obtain rfl := List.mem_singleton.mp ht'
          exact Nat.le_refl _
      | some other =>
          have hmin : t.due ≤ first.due ∧ t.due ≤ other.due := by
            by_cases hlt : other.due < first.due
            · obtain rfl : other = t := by simpa [earliest, hrest, hlt] using h
              omega
            · obtain rfl : first = t := by simpa [earliest, hrest, hlt] using h
              omega
          rcases List.mem_cons.mp ht' with rfl | ht'
          · exact hmin.1
          · exact Nat.le_trans hmin.2 (ih hrest ht')

/-- What fires next does so at its own moment, to which the clock is moved. -/
theorem next?_eq_some {s s' : Scheduler β} {limit : Nat} {t : Timer β}
    (h : s.next? limit = some (t, s')) :
    earliest s.pending = some t ∧ t.due ≤ limit ∧
      s' = ((s.pass (t.due - s.now)).goOff t.id).2 := by
  unfold Scheduler.next? at h
  split at h
  · cases h
  · rename_i first hfirst
    split at h
    · rename_i hdue
      simp only [Option.some.injEq, Prod.mk.injEq] at h
      obtain ⟨rfl, rfl⟩ := h
      have hnow : max s.now first.due = s.now + (first.due - s.now) := by omega
      exact ⟨hfirst, hdue, by simp [Scheduler.goOff, Scheduler.pass, hnow]⟩
    · cases h

/-- What is remembered of the past of a scheduler. -/
inductive Event where
  | scheduled (id : TaskId) (now delay : Nat)
  | refused
  | cancelled (id : TaskId) (removed : Bool)
  | stopped
  | passed (span : Nat)
  /-- A timer has gone off, and a body has begun to run or not. -/
  | wentOff (id : TaskId) (now : Nat) (ran : Bool)
  deriving DecidableEq

namespace Event

def schedules (id : TaskId) : Event → Bool
  | scheduled other _ _ => other == id
  | _ => false

def runs (id : TaskId) : Event → Bool
  | wentOff other _ ran => other == id && ran
  | _ => false

def removes (id : TaskId) : Event → Bool
  | cancelled other removed => other == id && removed
  | _ => false

variable {id : TaskId} {event : Event}

theorem schedules_iff : event.schedules id = true ↔ ∃ now delay, event = scheduled id now delay := by
  cases event <;> simp [schedules]

theorem runs_iff : event.runs id = true ↔ ∃ now, event = wentOff id now true := by
  cases event <;> simp [runs]

theorem removes_iff : event.removes id = true ↔ event = cancelled id true := by
  cases event <;> simp [removes]

end Event

/-- A scheduler in use. The calls come from anywhere, also from bodies that have begun to run, and
each is one step. A timer goes off at any time that is not before its own. -/
inductive Course (start : Nat) : List Event → Scheduler β → Prop
  | start : Course start [] { now := start }
  | schedule {past : List Event} {s : Scheduler β} (h : Course start past s) (delay : Nat) (body : β) :
      Course start
        (past ++ [((s.schedule delay body).1).elim .refused fun id => .scheduled id s.now delay])
        (s.schedule delay body).2
  | cancel {past : List Event} {s : Scheduler β} (h : Course start past s) (id : TaskId) :
      Course start (past ++ [.cancelled id (s.cancel id).1]) (s.cancel id).2
  | stop {past : List Event} {s : Scheduler β} (h : Course start past s) :
      Course start (past ++ [.stopped]) s.stop
  | pass {past : List Event} {s : Scheduler β} (h : Course start past s) (span : Nat) :
      Course start (past ++ [.passed span]) (s.pass span)
  | goOff {past : List Event} {s : Scheduler β} (h : Course start past s) {id : TaskId}
      {made delay : Nat} (hmade : .scheduled id made delay ∈ past) (hdue : made + delay ≤ s.now) :
      Course start (past ++ [.wentOff id s.now (s.goOff id).1.isSome]) (s.goOff id).2

/-! ### What became of a task -/

def Made (past : List Event) (id : TaskId) : Prop :=
  ∃ now delay, .scheduled id now delay ∈ past

def HasRun (past : List Event) (id : TaskId) : Prop :=
  ∃ now, .wentOff id now true ∈ past

def WasCancelled (past : List Event) (id : TaskId) : Prop :=
  .cancelled id true ∈ past

/-- A stop came after the task had been scheduled. -/
def WasStopped (past : List Event) (id : TaskId) : Prop :=
  ∃ before after, past = before ++ .stopped :: after ∧ Made before id

/-- The task has been scheduled and nothing has become of it. -/
def Waits (past : List Event) (id : TaskId) : Prop :=
  Made past id ∧ ¬HasRun past id ∧ ¬WasCancelled past id ∧ ¬WasStopped past id

section

variable {past : List Event} {event : Event} {id other : TaskId} {now delay : Nat} {flag : Bool}

@[simp] theorem not_made_nil : ¬Made [] id := by
  simp [Made]

@[simp] theorem made_concat :
    Made (past ++ [event]) id ↔ Made past id ∨ ∃ now delay, event = .scheduled id now delay := by
  simp only [Made, List.mem_append, List.mem_singleton, exists_or, eq_comm]

@[simp] theorem hasRun_concat :
    HasRun (past ++ [event]) id ↔ HasRun past id ∨ ∃ now, event = .wentOff id now true := by
  simp only [HasRun, List.mem_append, List.mem_singleton, exists_or, eq_comm]

@[simp] theorem wasCancelled_concat :
    WasCancelled (past ++ [event]) id ↔ WasCancelled past id ∨ event = .cancelled id true := by
  simp only [WasCancelled, List.mem_append, List.mem_singleton, eq_comm]

@[simp] theorem wasStopped_concat :
    WasStopped (past ++ [event]) id ↔ WasStopped past id ∨ (event = .stopped ∧ Made past id) := by
  constructor
  · rintro ⟨before, after, hpast, hmade⟩
    rcases cut_concat hpast with ⟨rfl, rfl⟩ | ⟨after', -, hbefore⟩
    · exact Or.inr ⟨rfl, hmade⟩
    · exact Or.inl ⟨before, after', hbefore, hmade⟩
  · rintro (⟨before, after, rfl, hmade⟩ | ⟨rfl, hmade⟩)
    · exact ⟨before, after ++ [event], by simp, hmade⟩
    · exact ⟨past, [], rfl, hmade⟩

theorem WasStopped.made (h : WasStopped past id) : Made past id := by
  obtain ⟨before, after, rfl, now, delay, hmem⟩ := h
  exact ⟨now, delay, List.mem_append_left _ hmem⟩

end

/-! ### The invariant -/

/-- What an entry of the past says about the entries before it. -/
def Fits (before : List Event) : Event → Prop
  | .scheduled id _ _ => ¬Made before id ∧ .stopped ∉ before
  | .refused => .stopped ∈ before
  | .cancelled id removed => removed = true ↔ Waits before id
  | .wentOff id now ran => (ran = true ↔ Waits before id) ∧
      ∃ made delay, .scheduled id made delay ∈ before ∧ made + delay ≤ now
  | _ => True

/-- The table holds the tasks that wait, each once and under a number of its own. -/
structure Books (past : List Event) (s : Scheduler β) : Prop where
  waiting : ∀ id, id ∈ s.pending.map Timer.id ↔ Waits past id
  nodup : (s.pending.map Timer.id).Nodup
  timers : ∀ t ∈ s.pending, ∃ now delay, .scheduled t.id now delay ∈ past ∧ t.due = now + delay
  below : ∀ id, Made past id → id < s.nextId
  known : ∀ id, HasRun past id ∨ WasCancelled past id → Made past id
  stopped : s.stopped = true ↔ .stopped ∈ past
  fits : EachFits Fits past

section

variable {past : List Event} {s : Scheduler β} {id : TaskId}

theorem books_start (start : Nat) : Books [] ({ now := start } : Scheduler β) where
  waiting id := by simp [Waits]
  nodup := List.nodup_nil
  timers t ht := absurd ht List.not_mem_nil
  below id h := by simp at h
  known id h := by simp [HasRun, WasCancelled] at h
  stopped := by simp
  fits := eachFits_nil Fits

theorem mem_map_filter {timers : List (Timer β)} {other : TaskId} :
    other ∈ (timers.filter (·.id ≠ id)).map Timer.id ↔ other ∈ timers.map Timer.id ∧ other ≠ id := by
  simp only [List.mem_map, List.mem_filter, decide_eq_true_eq]
  constructor
  · rintro ⟨t, ⟨ht, hne⟩, rfl⟩
    exact ⟨⟨t, ht, rfl⟩, hne⟩
  · rintro ⟨⟨t, ht, rfl⟩, hne⟩
    exact ⟨t, ⟨ht, hne⟩, rfl⟩

theorem Books.fresh (h : Books past s) : ¬Made past s.nextId :=
  fun hmade => Nat.lt_irrefl _ (h.below _ hmade)

theorem Books.schedule (h : Books past s) (delay : Nat) (body : β) :
    Books (past ++ [((s.schedule delay body).1).elim .refused fun id => .scheduled id s.now delay])
      (s.schedule delay body).2 := by
  cases hstopped : s.stopped with
  | true =>
      have hsame : s.schedule delay body = (none, s) := by simp [Scheduler.schedule, hstopped]
      rw [hsame]
      refine { h with
        waiting := fun id => ?_, timers := fun t ht => ?_, below := fun id => ?_,
        known := fun id => ?_, stopped := ?_, fits := h.fits.concat (h.stopped.mp hstopped) }
      · simpa [Waits] using h.waiting id
      · obtain ⟨now, delay, hmem, hdue⟩ := h.timers t ht
        exact ⟨now, delay, List.mem_append_left _ hmem, hdue⟩
      · simpa using h.below id
      · simpa using h.known id
      · simpa using h.stopped
  | false =>
      have hopen : .stopped ∉ past := fun hmem => by simp [h.stopped.mpr hmem] at hstopped
      have hnew : s.schedule delay body = (some s.nextId, { s with
          pending := s.pending ++ [⟨s.nextId, s.now + delay, body⟩], nextId := s.nextId + 1 }) := by
        simp [Scheduler.schedule, hstopped]
      rw [hnew]
      refine
        { waiting := fun id => ?_, nodup := ?_, timers := fun t ht => ?_, below := fun id => ?_,
          known := fun id => ?_, stopped := ?_, fits := h.fits.concat ⟨h.fresh, hopen⟩ }
      · have hrun : ¬HasRun past s.nextId := fun hrun => h.fresh (h.known _ (Or.inl hrun))
        have hcancelled : ¬WasCancelled past s.nextId := fun hc => h.fresh (h.known _ (Or.inr hc))
        have hwas : ¬WasStopped past s.nextId := fun hwas => h.fresh hwas.made
        have hwaiting := h.waiting id
        by_cases hid : id = s.nextId
        · subst hid
          simp [Waits, hrun, hcancelled, hwas]
        · simpa [Waits, hid, Ne.symm hid] using hwaiting
      · have hnot : s.nextId ∉ s.pending.map Timer.id := fun hmem =>
          h.fresh ((h.waiting _).mp hmem).1
        rw [List.map_append, List.nodup_append]
        refine ⟨h.nodup, List.nodup_singleton _, fun a ha b hb => ?_⟩
        rintro rfl
        rw [List.mem_singleton.mp hb] at ha
        exact hnot ha
      · rcases List.mem_append.mp ht with ht | ht
        · obtain ⟨now, delay, hmem, hdue⟩ := h.timers t ht
          exact ⟨now, delay, List.mem_append_left _ hmem, hdue⟩
        · obtain rfl := List.mem_singleton.mp ht
          exact ⟨s.now, delay, by simp, rfl⟩
      · have hbelow := h.below id
        simp only [made_concat, Option.elim_some, Event.scheduled.injEq]
        rintro (hmade | ⟨now, delay', rfl, -⟩)
        · exact Nat.lt_succ_of_lt (hbelow hmade)
        · exact Nat.lt_succ_self _
      · have hknown := h.known id
        simp only [hasRun_concat, wasCancelled_concat, made_concat, Option.elim_some, reduceCtorEq,
          exists_false, or_false]
        exact fun hdone => Or.inl (hknown hdone)
      · simp [hstopped, hopen]

/-- A task is taken out of the table by what ends its waiting. -/
theorem Books.take (h : Books past s) {event : Event}
    (hwaits : ∀ other, Waits (past ++ [event]) other ↔ Waits past other ∧ other ≠ id)
    (hmade : ∀ other, Made (past ++ [event]) other ↔ Made past other)
    (hdone : ∀ other, HasRun (past ++ [event]) other ∨ WasCancelled (past ++ [event]) other →
      HasRun past other ∨ WasCancelled past other ∨ Made past other)
    (hstopped : event ≠ .stopped) (hfits : Fits past event) :
    Books (past ++ [event]) { s with pending := s.pending.filter (·.id ≠ id) } where
  waiting other := by
    rw [hwaits, mem_map_filter, h.waiting]
  nodup := h.nodup.sublist (List.filter_sublist.map _)
  timers t ht := by
    obtain ⟨now, delay, hmem, hdue⟩ := h.timers t (List.mem_of_mem_filter ht)
    exact ⟨now, delay, List.mem_append_left _ hmem, hdue⟩
  below other hother := h.below other ((hmade other).mp hother)
  known other hother := by
    rw [hmade]
    rcases hdone other hother with hrun | hcancelled | hmade
    · exact h.known other (Or.inl hrun)
    · exact h.known other (Or.inr hcancelled)
    · exact hmade
  stopped := by
    simpa [hstopped.symm] using h.stopped
  fits := h.fits.concat hfits

theorem Books.cancel (h : Books past s) (id : TaskId) :
    Books (past ++ [.cancelled id (s.cancel id).1]) (s.cancel id).2 := by
  have hremoved : (s.cancel id).1 = true ↔ Waits past id := by
    rw [← h.waiting]
    simp [Scheduler.cancel]
  refine h.take (fun other => ?_) (fun other => by simp) (fun other => ?_) (by simp) hremoved
  · simp only [Waits, made_concat, hasRun_concat, wasCancelled_concat, wasStopped_concat,
      Event.cancelled.injEq, reduceCtorEq, exists_false, or_false, false_and]
    by_cases hid : other = id
    · subst hid
      simp only [true_and, not_or, ne_eq, not_true_eq_false, and_false, iff_false, hremoved]
      exact fun hwaits => hwaits.2.2.1.2 ⟨hwaits.1, hwaits.2.1, hwaits.2.2.1.1, hwaits.2.2.2⟩
    · simp [hid, Ne.symm hid]
  · simp only [hasRun_concat, wasCancelled_concat, reduceCtorEq, exists_false, or_false,
      Event.cancelled.injEq]
    rintro (hrun | hcancelled | ⟨rfl, htrue⟩)
    · exact Or.inl hrun
    · exact Or.inr (Or.inl hcancelled)
    · exact Or.inr (Or.inr (hremoved.mp htrue).1)

theorem Books.goOff (h : Books past s) {made delay : Nat}
    (hmade : .scheduled id made delay ∈ past) (hdue : made + delay ≤ s.now) :
    Books (past ++ [.wentOff id s.now (s.goOff id).1.isSome]) (s.goOff id).2 := by
  have hran : (s.goOff id).1.isSome = true ↔ Waits past id := by
    rw [← h.waiting]
    simp [Scheduler.goOff]
  refine h.take (fun other => ?_) (fun other => by simp) (fun other => ?_) (by simp)
    ⟨hran, made, delay, hmade, hdue⟩
  · simp only [Waits, made_concat, hasRun_concat, wasCancelled_concat, wasStopped_concat,
      Event.wentOff.injEq, reduceCtorEq, exists_false, or_false, false_and]
    by_cases hid : other = id
    · subst hid
      simp only [true_and, exists_eq_left', not_or, ne_eq, not_true_eq_false, and_false, iff_false,
        hran]
      exact fun hwaits => hwaits.2.1.2 ⟨hwaits.1, hwaits.2.1.1, hwaits.2.2⟩
    · simp [hid, Ne.symm hid]
  · simp only [hasRun_concat, wasCancelled_concat, reduceCtorEq, or_false, Event.wentOff.injEq]
    rintro ((hrun | ⟨now, rfl, -⟩) | hcancelled)
    · exact Or.inl hrun
    · exact Or.inr (Or.inr ⟨made, delay, hmade⟩)
    · exact Or.inr (Or.inl hcancelled)

theorem Books.stop (h : Books past s) : Books (past ++ [.stopped]) s.stop where
  waiting id := by
    have hnone : ¬Waits (past ++ [.stopped]) id := by
      simp only [Waits, made_concat, wasStopped_concat, reduceCtorEq, exists_false, or_false]
      exact fun hwaits => hwaits.2.2.2 (Or.inr ⟨trivial, hwaits.1⟩)
    simpa [Scheduler.stop] using hnone
  nodup := List.nodup_nil
  timers t ht := absurd ht List.not_mem_nil
  below id := by simpa using h.below id
  known id := by simpa using h.known id
  stopped := by simp [Scheduler.stop]
  fits := h.fits.concat trivial

theorem Books.pass (h : Books past s) (span : Nat) :
    Books (past ++ [.passed span]) (s.pass span) where
  waiting id := by simpa [Waits] using h.waiting id
  nodup := h.nodup
  timers t ht := by
    obtain ⟨now, delay, hmem, hdue⟩ := h.timers t ht
    exact ⟨now, delay, List.mem_append_left _ hmem, hdue⟩
  below id := by simpa using h.below id
  known id := by simpa using h.known id
  stopped := by simpa using h.stopped
  fits := h.fits.concat trivial

theorem Course.books {start : Nat} (h : Course start past s) : Books past s := by
  induction h with
  | start => exact books_start start
  | schedule h delay body ih => exact ih.schedule delay body
  | cancel h id ih => exact ih.cancel id
  | stop h ih => exact ih.stop
  | pass h span ih => exact ih.pass span
  | goOff h hmade hdue ih => exact ih.goOff hmade hdue

/-- What fires does so in two steps: time passes up to its moment, and then it goes off. -/
theorem Course.next? {start limit : Nat} {s' : Scheduler β} {t : Timer β} (h : Course start past s)
    (hnext : s.next? limit = some (t, s')) :
    ∃ span ran, Course start (past ++ [.passed span, .wentOff t.id (s.now + span) ran]) s' := by
  obtain ⟨hfirst, -, rfl⟩ := next?_eq_some hnext
  obtain ⟨made, delay, hmade, hdue⟩ := h.books.timers t (mem_of_earliest hfirst)
  have hreached : made + delay ≤ (s.pass (t.due - s.now)).now := by
    rw [now_pass]
    omega
  have hgo := (h.pass (t.due - s.now)).goOff (List.mem_append_left _ hmade) hreached
  exact ⟨_, _, by simpa using hgo⟩

/-! ### What the past says -/

section

variable {before after : List Event} {now delay : Nat} {flag : Bool}

theorem Books.of_scheduled (h : Books past s) (hpast : past = before ++ .scheduled id now delay :: after) :
    ¬Made before id ∧ .stopped ∉ before :=
  h.fits before _ after hpast

theorem Books.of_cancelled (h : Books past s) (hpast : past = before ++ .cancelled id flag :: after) :
    flag = true ↔ Waits before id :=
  h.fits before _ after hpast

theorem Books.of_wentOff (h : Books past s) (hpast : past = before ++ .wentOff id now flag :: after) :
    (flag = true ↔ Waits before id) ∧
      ∃ made delay, .scheduled id made delay ∈ before ∧ made + delay ≤ now :=
  h.fits before _ after hpast

theorem Books.schedules_once (h : Books past s) (id : TaskId) :
    past.countP (Event.schedules id) ≤ 1 := by
  refine countP_le_one fun before event after hpast hid other hother hother' => ?_
  obtain ⟨now, delay, rfl⟩ := Event.schedules_iff.mp hid
  obtain ⟨now', delay', rfl⟩ := Event.schedules_iff.mp hother'
  exact (h.of_scheduled hpast).1 ⟨now', delay', hother⟩

theorem Books.runs_once (h : Books past s) (id : TaskId) : past.countP (Event.runs id) ≤ 1 := by
  refine countP_le_one fun before event after hpast hid other hother hother' => ?_
  obtain ⟨now, rfl⟩ := Event.runs_iff.mp hid
  obtain ⟨now', rfl⟩ := Event.runs_iff.mp hother'
  have hwaits := (h.of_wentOff hpast).1.mp rfl
  exact hwaits.2.1 ⟨now', hother⟩

theorem Books.removes_once (h : Books past s) (id : TaskId) :
    past.countP (Event.removes id) ≤ 1 := by
  refine countP_le_one fun before event after hpast hid other hother hother' => ?_
  obtain rfl := Event.removes_iff.mp hid
  obtain rfl := Event.removes_iff.mp hother'
  have hwaits := (h.of_cancelled hpast).mp rfl
  exact hwaits.2.2.1 hother

/-- A body does not begin to run before its own time. -/
theorem Books.not_early (h : Books past s) (hpast : past = before ++ .wentOff id now flag :: after)
    {made : Nat} (hmade : .scheduled id made delay ∈ past) : made + delay ≤ now := by
  obtain ⟨-, made', delay', hmade', hdue⟩ := h.of_wentOff hpast
  have hmem : .scheduled id made' delay' ∈ past := hpast ▸ List.mem_append_left _ hmade'
  have hsame : Event.scheduled id made delay = .scheduled id made' delay' :=
    eq_of_countP_le_one (h.schedules_once id) hmade hmem (by simp [Event.schedules])
      (by simp [Event.schedules])
  simp only [Event.scheduled.injEq, true_and] at hsame
  omega

/-- A task that was cancelled in time has not run before and does not run later. -/
theorem Books.not_hasRun (h : Books past s) (hcancelled : WasCancelled past id) : ¬HasRun past id := by
  rintro ⟨now, hran⟩
  obtain ⟨before, after, hpast⟩ := List.append_of_mem hran
  have hwaits := (h.of_wentOff hpast).1.mp rfl
  rw [hpast, WasCancelled, List.mem_append, List.mem_cons] at hcancelled
  rcases hcancelled with hbefore | heq | hafter
  · exact hwaits.2.2.1 hbefore
  · cases heq
  · obtain ⟨between, later, -, hpast'⟩ := cut_after hpast hafter
    have hstill := (h.of_cancelled hpast').mp rfl
    exact hstill.2.1 ⟨now, by simp⟩

/-- Nothing is scheduled after a stop. -/
theorem Books.not_made_after (h : Books past s) (hpast : past = before ++ .stopped :: after) :
    ¬Made after id := by
  rintro ⟨now, delay, hmem⟩
  obtain ⟨between, later, -, hpast'⟩ := cut_after hpast hmem
  exact (h.of_scheduled hpast').2 (by simp)

/-- A stop leaves no task that waits, then or later. -/
theorem Books.not_waits (h : Books past s) (hpast : past = before ++ .stopped :: after) :
    ¬Waits past id := by
  rintro ⟨⟨now, delay, hmem⟩, -, -, hnot⟩
  refine hnot ⟨before, after, hpast, ?_⟩
  rw [hpast, List.mem_append, List.mem_cons] at hmem
  rcases hmem with hbefore | heq | hafter
  · exact ⟨now, delay, hbefore⟩
  · cases heq
  · exact absurd ⟨now, delay, hafter⟩ (h.not_made_after hpast)

/-- No body begins to run after a stop. -/
theorem Books.not_run_after (h : Books past s) (hpast : past = before ++ .stopped :: after) :
    .wentOff id now true ∉ after := by
  intro hmem
  have hnone : ¬Made after id := h.not_made_after hpast
  obtain ⟨between, later, rfl, hpast'⟩ := cut_after hpast hmem
  obtain ⟨⟨made, delay, hmade⟩, -, -, hnot⟩ := (h.of_wentOff hpast').1.mp rfl
  refine hnot ⟨before, between, rfl, made, delay, ?_⟩
  rcases List.mem_append.mp hmade with hbefore | hafter
  · exact hbefore
  · refine absurd ⟨made, delay, ?_⟩ hnone
    simpa using Or.inl hafter

end

theorem Books.pendingCount_eq (h : Books past s) : s.pendingCount = {id | Waits past id}.ncard := by
  have hset : {id | Waits past id} = ((s.pending.map Timer.id).toFinset : Set TaskId) := by
    ext id
    simp only [Set.mem_ofPred_eq, ← h.waiting, List.coe_toFinset]
  rw [hset, Set.ncard_coe_finset, List.toFinset_card_of_nodup h.nodup, List.length_map]
  rfl

theorem Books.pendingCount_of_stopped (h : Books past s) (hstopped : .stopped ∈ past) :
    s.pendingCount = 0 := by
  obtain ⟨before, after, hpast⟩ := List.append_of_mem hstopped
  have hnone : {id | Waits past id} = ∅ := Set.eq_empty_of_forall_notMem fun id => h.not_waits hpast
  rw [h.pendingCount_eq, hnone, Set.ncard_empty]

/-- **Tasks run at most once, and never after a cancel or a stop.** On every course of a scheduler: a
body begins to run at most once and never before its delay is over; when its timer goes off it does,
unless the task was cancelled or a stop came before. A cancel answers true at most once for a task,
which is when the task was still waiting, and then the body never runs. As many tasks are pending as
have been scheduled and neither run nor been cancelled nor stopped. After a stop none is, no body
begins to run, and nothing is scheduled any more. What fires next by itself goes on with the course. -/
theorem tasks_run_once {start : Nat} (h : Course start past s) :
    (∀ id, past.countP (Event.runs id) ≤ 1) ∧
    (∀ before id now ran after, past = before ++ .wentOff id now ran :: after →
      (∀ made delay, .scheduled id made delay ∈ past → made + delay ≤ now) ∧
      ((∀ now' ran', .wentOff id now' ran' ∉ before) →
        (ran = true ↔ ¬WasCancelled before id ∧ ¬WasStopped before id))) ∧
    (∀ id, past.countP (Event.removes id) ≤ 1) ∧
    (∀ before id removed after, past = before ++ .cancelled id removed :: after →
      (removed = true ↔ Waits before id) ∧ (removed = true → ¬HasRun past id)) ∧
    s.pendingCount = {id | Waits past id}.ncard ∧
    (∀ before after, past = before ++ .stopped :: after →
      s.pendingCount = 0 ∧ (∀ id now, .wentOff id now true ∉ after) ∧ (∀ id, ¬Made after id) ∧
        ∀ delay body, (s.schedule delay body).1 = none) ∧
    (∀ limit t s', s.next? limit = some (t, s') →
      ∃ span ran, Course start (past ++ [.passed span, .wentOff t.id (s.now + span) ran]) s') := by
  have hbooks := h.books
  refine ⟨hbooks.runs_once, fun before id now ran after hpast => ⟨fun made delay => ?_, ?_⟩,
    hbooks.removes_once, fun before id removed after hpast => ⟨hbooks.of_cancelled hpast, ?_⟩,
    hbooks.pendingCount_eq,
    fun before after hpast => ⟨?_, fun id now => ?_, fun id => ?_, fun delay body => ?_⟩,
    fun limit t s' hnext => h.next? hnext⟩
  · exact hbooks.not_early hpast
  · intro hfirst
    obtain ⟨hran, made, delay, hmade, -⟩ := hbooks.of_wentOff hpast
    have hnot : ¬HasRun before id := fun ⟨now', hmem⟩ => hfirst now' true hmem
    rw [hran]
    exact ⟨fun hwaits => hwaits.2.2, fun hleft => ⟨⟨made, delay, hmade⟩, hnot, hleft⟩⟩
  · rintro rfl
    refine hbooks.not_hasRun ?_
    rw [WasCancelled, hpast]
    simp
  · exact hbooks.pendingCount_of_stopped (by simp [hpast])
  · exact hbooks.not_run_after hpast
  · exact hbooks.not_made_after hpast
  · have hstopped : s.stopped = true := hbooks.stopped.mpr (by simp [hpast])
    simp [Scheduler.schedule, hstopped]

end

/-- Two tasks are due at one moment. The first one to run cancels the other before that one's timer
goes off, and then stops the scheduler. -/
def contested : List Event :=
  [.scheduled 1 0 5, .scheduled 2 0 5, .scheduled 3 0 9, .passed 5, .wentOff 1 5 true,
    .cancelled 2 true, .wentOff 2 5 false, .stopped, .passed 4, .wentOff 3 9 false, .refused]

theorem contested_run_once :
    ∃ s : Scheduler Unit, Course 0 contested s ∧ s.pendingCount = 0 ∧ ¬HasRun contested 2 ∧
      contested.countP (Event.runs 1) ≤ 1 := by
  have hmade : Course 0 _ (_ : Scheduler Unit) :=
    ((Course.start.schedule 5 ()).schedule 5 ()).schedule 9 ()
  have hran := (hmade.pass 5).goOff (show Event.scheduled 1 0 5 ∈ _ by decide) (by decide)
  have hcancelled := (hran.cancel 2).goOff (show Event.scheduled 2 0 5 ∈ _ by decide) (by decide)
  have hstopped := (hcancelled.stop.pass 4).goOff (show Event.scheduled 3 0 9 ∈ _ by decide) (by decide)
  have hcourse := hstopped.schedule 1 ()
  obtain ⟨honce, -, -, hcancel, -, hstop, -⟩ := tasks_run_once hcourse
  refine ⟨_, hcourse, (hstop (contested.take 7) (contested.drop 8) rfl).1, ?_, honce 1⟩
  exact (hcancel (contested.take 5) 2 true (contested.drop 6) rfl).2 rfl

end SpdySessions.Scheduler
