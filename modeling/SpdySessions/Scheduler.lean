/-!
A scheduler of delayed tasks on a clock in nanoseconds. A task is pending from the moment it is
scheduled until it fires, is cancelled, or the scheduler is stopped; a stopped scheduler takes no
more tasks. A task that fires is no longer pending when its body begins.
-/

namespace SpdySessions

/-- Tasks are numbered from one in the order of their making. -/
abbrev TaskId := Nat

/-- A task that waits for its time. -/
structure Timer (β : Type) where
  id : TaskId
  due : Nat
  body : β

/-- A clock and the tasks that wait on it, in the order in which they were scheduled. -/
structure Scheduler (β : Type) where
  now : Nat := 0
  pending : List (Timer β) := []
  nextId : TaskId := 1
  stopped : Bool := false

namespace Scheduler

variable {β : Type}

def pendingCount (s : Scheduler β) : Nat :=
  s.pending.length

/-- Schedules a task, unless the scheduler has been stopped. -/
def schedule (s : Scheduler β) (delay : Nat) (body : β) : Option TaskId × Scheduler β :=
  if s.stopped then (none, s)
  else
    (some s.nextId, { s with
      pending := s.pending ++ [⟨s.nextId, s.now + delay, body⟩]
      nextId := s.nextId + 1 })

/-- Takes a task away before it fires; true if it was pending. -/
def cancel (s : Scheduler β) (id : TaskId) : Bool × Scheduler β :=
  (s.pending.any (·.id = id), { s with pending := s.pending.filter (·.id ≠ id) })

/-- Drops every pending task and takes no more. -/
def stop (s : Scheduler β) : Scheduler β :=
  { s with pending := [], stopped := true }

/-- The first of the tasks that are due earliest. -/
def earliest : List (Timer β) → Option (Timer β)
  | [] => none
  | t :: rest =>
      match earliest rest with
      | none => some t
      | some other => if other.due < t.due then some other else some t

theorem mem_of_earliest {timers : List (Timer β)} {t : Timer β} (h : earliest timers = some t) :
    t ∈ timers := by
  induction timers with
  | nil => cases h
  | cons first rest ih =>
    simp only [earliest] at h
    split at h
    · cases h; simp
    · rename_i other heq
      split at h
      · cases h; exact List.mem_cons_of_mem _ (ih heq)
      · cases h; simp

/-- Takes out the task that fires next, if it does so up to the given time, and moves the clock to
that moment. -/
def next? (s : Scheduler β) (limit : Nat) : Option (Timer β × Scheduler β) :=
  match earliest s.pending with
  | none => none
  | some t =>
      if t.due ≤ limit then
        some (t, { s with
          now := max s.now t.due
          pending := s.pending.filter (·.id ≠ t.id) })
      else none

def describe (s : Scheduler β) : String :=
  s!"Scheduler \x7b pending: {s.pendingCount}, stopped: {s.stopped} \x7d"

/-- What timers weigh together. -/
def total (weight : Timer β → Nat) (timers : List (Timer β)) : Nat :=
  timers.foldr (fun t sum => weight t + sum) 0

@[simp] theorem total_nil (weight : Timer β → Nat) : total weight [] = 0 := rfl

@[simp] theorem total_cons (weight : Timer β → Nat) (t : Timer β) (timers : List (Timer β)) :
    total weight (t :: timers) = weight t + total weight timers := rfl

theorem total_concat (weight : Timer β → Nat) (timers : List (Timer β)) (t : Timer β) :
    total weight (timers ++ [t]) = total weight timers + weight t := by
  induction timers with
  | nil => simp
  | cons first rest ih => simp [ih, Nat.add_assoc]

/-- What the pending tasks weigh together. -/
def load (weight : Timer β → Nat) (s : Scheduler β) : Nat :=
  total weight s.pending

theorem total_filter_le (p : Timer β → Bool) (w : Timer β → Nat) (timers : List (Timer β)) :
    total w (timers.filter p) ≤ total w timers := by
  induction timers with
  | nil => simp
  | cons t rest ih =>
    by_cases hp : p t <;> simp [hp] <;> omega

theorem total_filter_add_le {p : Timer β → Bool} {t : Timer β} {timers : List (Timer β)}
    (w : Timer β → Nat) (ht : t ∈ timers) (hp : p t = false) :
    total w (timers.filter p) + w t ≤ total w timers := by
  induction timers with
  | nil => cases ht
  | cons first rest ih =>
    rcases List.mem_cons.1 ht with rfl | hrest
    · have := total_filter_le p w rest
      simp [hp]
      omega
    · have := ih hrest
      by_cases hfirst : p first <;> simp [hfirst] <;> omega

theorem load_schedule_le (weight : Timer β → Nat) (s : Scheduler β) (delay : Nat) (body : β) :
    (s.schedule delay body).2.load weight ≤
      s.load weight + weight ⟨s.nextId, s.now + delay, body⟩ := by
  unfold schedule
  split <;> simp [load, total_concat]

theorem load_cancel_le (weight : Timer β → Nat) (s : Scheduler β) (id : TaskId) :
    (s.cancel id).2.load weight ≤ s.load weight :=
  total_filter_le _ _ _

theorem load_stop (weight : Timer β → Nat) (s : Scheduler β) : s.stop.load weight = 0 := by
  simp [load, stop]

theorem load_next? {weight : Timer β → Nat} {s s' : Scheduler β} {limit : Nat} {t : Timer β}
    (h : s.next? limit = some (t, s')) : s'.load weight + weight t ≤ s.load weight := by
  unfold next? at h
  split at h
  · cases h
  · rename_i first heq
    split at h
    · simp only [Option.some.injEq, Prod.mk.injEq] at h
      obtain ⟨rfl, rfl⟩ := h
      exact total_filter_add_le weight (mem_of_earliest heq) (by simp)
    · cases h

theorem due_le_now_of_next? {s s' : Scheduler β} {limit : Nat} {t : Timer β}
    (h : s.next? limit = some (t, s')) : t.due ≤ s'.now := by
  unfold next? at h
  split at h
  · cases h
  · split at h
    · simp only [Option.some.injEq, Prod.mk.injEq] at h
      obtain ⟨rfl, rfl⟩ := h
      exact Nat.le_max_right _ _
    · cases h

end Scheduler

end SpdySessions
