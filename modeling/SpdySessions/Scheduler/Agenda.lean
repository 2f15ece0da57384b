import SpdySessions.Scheduler
import SpdySessions.Watchdog

/-!
Programs on a scheduler. A task may schedule, cancel and stop when it fires, and watchdogs share the
scheduler with the tasks. Moving the clock fires everything that becomes due on the way, each at its
own moment. That comes to an end: a task weighs more than all that it schedules, and a watchdog
looks again at most once before something happens on its connection.
-/

namespace SpdySessions.Scheduler

/-- Something that a task does. -/
inductive Order where
  | schedule (tag : String) (delay : Nat) (program : List Order)
  | cancel (tag : String)
  | stop

/-- The body of a task. -/
inductive Job where
  | program (tag : String) (orders : List Order)
  | check (index : Nat)

/-- A watchdog and whether the channel that it watches is open. -/
structure Watch where
  watchdog : Watchdog
  channelOpen : Bool := true

/-- A scheduler in use, the latest task of each tag, the watchdogs on it and the tags that have
fired. -/
structure Agenda where
  scheduler : Scheduler Job := {}
  /-- The scheduler is gone, and with it everything that was pending. -/
  dropped : Bool := false
  latest : List (String × TaskId) := []
  watches : List Watch := []
  fired : List String := []

/-- What became of a task that was to be scheduled. -/
inductive Scheduled where
  | scheduled
  | refused
  | dropped
  deriving DecidableEq

namespace Agenda

mutual

/-- The number of orders that come of an order, itself included. -/
def orderSize : Order → Nat
  | .schedule _ _ program => 1 + programSize program
  | .cancel _ => 1
  | .stop => 1

/-- The number of orders that come of a program, with one for the program. -/
def programSize : List Order → Nat
  | [] => 1
  | order :: rest => orderSize order + programSize rest

end

/-- How often a task can still fire, counted with what comes of it. A watchdog that looks at the
moment when its connection has been idle for long enough does not look again. -/
def weight (watches : List Watch) (t : Timer Job) : Nat :=
  match t.body with
  | .program _ orders => programSize orders
  | .check index =>
      match watches[index]? with
      | none => 1
      | some w => if w.watchdog.lastActivity + w.watchdog.timeout ≤ t.due then 1 else 2

/-- How often anything can still fire. -/
def load (a : Agenda) : Nat :=
  a.scheduler.load (weight a.watches)

def schedule (a : Agenda) (tag : String) (delay : Nat) (program : List Order) :
    Scheduled × Agenda :=
  if a.dropped then (.dropped, a)
  else
    match a.scheduler.schedule delay (.program tag program) with
    | (none, _) => (.refused, a)
    | (some id, scheduler) =>
        (.scheduled, { a with
          scheduler := scheduler
          latest := (tag, id) :: a.latest.filter (·.1 ≠ tag) })

/-- Cancels the latest task of a tag; nothing to say if there has been none. -/
def cancel (a : Agenda) (tag : String) : Option Bool × Agenda :=
  match a.latest.find? (·.1 = tag) with
  | none => (none, a)
  | some (_, id) =>
      let (removed, scheduler) := a.scheduler.cancel id
      (some removed, { a with scheduler := scheduler })

def stop (a : Agenda) : Agenda :=
  { a with scheduler := a.scheduler.stop }

def drop (a : Agenda) : Agenda :=
  { a with scheduler := a.scheduler.stop, dropped := true }

def arm (a : Agenda) (timeout : Nat) : Agenda :=
  let watchdog : Watchdog := ⟨timeout, a.scheduler.now⟩
  let index := a.watches.length
  { a with
    watches := a.watches ++ [{ watchdog }]
    scheduler :=
      match watchdog.firstCheck with
      | none => a.scheduler
      | some delay => (a.scheduler.schedule delay (.check index)).2 }

/-- Something happens on the connection of a watchdog. -/
def touch (a : Agenda) (index : Nat) : Agenda :=
  { a with watches := a.watches.modify index fun w =>
      { w with watchdog := w.watchdog.touch a.scheduler.now } }

def close (a : Agenda) (index : Nat) : Bool × Agenda :=
  ((a.watches[index]?).any (·.channelOpen),
    { a with watches := a.watches.modify index fun w => { w with channelOpen := false } })

def obey (a : Agenda) : Order → Agenda
  | .schedule tag delay program => (a.schedule tag delay program).2
  | .cancel tag => (a.cancel tag).2
  | .stop => a.stop

def run (a : Agenda) : Job → Agenda
  | .program tag orders => orders.foldl obey { a with fired := a.fired ++ [tag] }
  | .check index =>
      match a.watches[index]? with
      | none => a
      | some w =>
          match w.watchdog.check w.channelOpen a.scheduler.now with
          | .ended => a
          | .close => (a.close index).2
          | .again delay =>
              { a with scheduler := (a.scheduler.schedule delay (.check index)).2 }

/-- Fires what is due next up to a moment, if anything is. -/
def fire? (a : Agenda) (limit : Nat) : Option Agenda :=
  match a.scheduler.next? limit with
  | none => none
  | some (timer, scheduler) => some ({ a with scheduler := scheduler }.run timer.body)

theorem weight_close (a : Agenda) (index : Nat) :
    weight (a.close index).2.watches = weight a.watches := by
  funext t
  unfold weight
  split
  · rfl
  · rename_i i _
    simp only [close, List.getElem?_modify]
    by_cases h : index = i
    · subst h
      cases a.watches[index]? <;> simp
    · cases a.watches[i]? <;> simp [h]

theorem weight_pos (watches : List Watch) (t : Timer Job) : 0 < weight watches t := by
  unfold weight
  split
  · rename_i orders _
    cases orders with
    | nil => simp [programSize]
    | cons order rest =>
      have : 0 < orderSize order := by cases order <;> unfold orderSize <;> omega
      simp only [programSize]
      omega
  · split
    · decide
    · split <;> decide

theorem watches_obey (a : Agenda) (order : Order) : (a.obey order).watches = a.watches := by
  cases order with
  | schedule tag delay program =>
    simp only [obey, schedule]
    split
    · rfl
    · split <;> rfl
  | cancel tag =>
    simp only [obey, cancel]
    split <;> rfl
  | stop => rfl

theorem load_obey_le (a : Agenda) (order : Order) :
    (a.obey order).load ≤ a.load + orderSize order := by
  unfold load
  rw [watches_obey]
  cases order with
  | schedule tag delay program =>
    have h := load_schedule_le (weight a.watches) a.scheduler delay (.program tag program)
    simp only [obey, schedule, orderSize]
    split
    · exact Nat.le_add_right _ _
    · split
      · exact Nat.le_add_right _ _
      · rename_i heq
        rw [heq] at h
        simp only [weight] at h ⊢
        omega
  | cancel tag =>
    simp only [obey, cancel]
    split
    · exact Nat.le_add_right _ _
    · exact Nat.le_trans (load_cancel_le _ _ _) (Nat.le_add_right _ _)
  | stop =>
    simp [obey, stop, load_stop]

theorem load_foldl_obey_lt (a : Agenda) (orders : List Order) :
    (orders.foldl obey a).load < a.load + programSize orders := by
  induction orders generalizing a with
  | nil => simp [programSize]
  | cons order rest ih =>
    have := load_obey_le a order
    have := ih (a.obey order)
    simp only [List.foldl_cons, programSize]
    omega

/-- Whatever fires, less can fire after it. -/
theorem load_fire? {a a' : Agenda} {limit : Nat} (h : a.fire? limit = some a') :
    a'.load < a.load := by
  unfold fire? at h
  split at h
  · cases h
  · rename_i timer scheduler hnext
    cases h
    have hload : scheduler.load (weight a.watches) + weight a.watches timer ≤
        a.scheduler.load (weight a.watches) := load_next? hnext
    have hdue := due_le_now_of_next? hnext
    have hpos := weight_pos a.watches timer
    rcases timer with ⟨id, due, body⟩
    cases body with
    | program tag orders =>
      have := load_foldl_obey_lt
        { a with scheduler := scheduler, fired := a.fired ++ [tag] } orders
      simp only [run, load, weight] at this hload ⊢
      omega
    | check index =>
      simp only [run]
      split
      · simp only [load]
        omega
      · rename_i w hw
        cases hcheck : w.watchdog.check w.channelOpen scheduler.now with
        | ended =>
          simp only [load]
          omega
        | close =>
          have := weight_close { a with scheduler := scheduler } index
          simp only [load] at this ⊢
          rw [this]
          simp only [close]
          omega
        | again delay =>
          have hschedule := load_schedule_le (weight a.watches) scheduler delay (.check index)
          have hnot : ¬w.watchdog.timeout ≤ scheduler.now - w.watchdog.lastActivity := by
            intro hle
            simp [Watchdog.check, Watchdog.idleFor, hle] at hcheck
            split at hcheck <;> cases hcheck
          have hdelay : delay = w.watchdog.lastActivity + w.watchdog.timeout - scheduler.now := by
            simp only [Watchdog.check, Watchdog.idleFor, hnot, if_false] at hcheck
            split at hcheck <;> cases hcheck
            rfl
          simp only [load, weight, hw] at hload hschedule hdue ⊢
          split at hload <;> split at hschedule <;> omega

/-- Fires everything that is due up to a moment, and everything that becomes due by it. -/
def fireAll (a : Agenda) (limit : Nat) : Agenda :=
  match h : a.fire? limit with
  | none => a
  | some next =>
      have := load_fire? h
      next.fireAll limit
  termination_by a.load

def advance (a : Agenda) (span : Nat) : Agenda :=
  let limit := a.scheduler.now + span
  let a := a.fireAll limit
  { a with scheduler := { a.scheduler with now := limit } }

/-- The tags that have fired, and the agenda without them. -/
def takeFired (a : Agenda) : List String × Agenda :=
  (a.fired, { a with fired := [] })

end Agenda

end SpdySessions.Scheduler
