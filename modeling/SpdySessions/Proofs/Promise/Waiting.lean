import SpdySessions.Channel
import SpdySessions.Promise

/-! Those who wait only look. A transition writes twice, first the outcome and then the mark that lets
waiters look, and anything may come between: other calls, and steps of any number of waits, each of
which asks to be told of the mark, sees it, reads the outcome, runs out of time or is given up. The mark
is never there without the outcome, which carries everything that a wait can return. And the steps of a
wait touch nothing but the wait: take them out of a run, and nobody else sees a difference. -/

namespace SpdySessions.Promise

variable {σ β : Type}

/-- What a wait does on its own. -/
inductive Glance where
  | subscribe
  | look
  | read
  | expire
  | drop
  deriving DecidableEq

/-- How far a wait is. -/
inductive Stage (σ : Type) where
  /-- Made, but not begun. -/
  | made
  /-- It will be told of the mark. -/
  | subscribed
  /-- It has seen the mark and is about to read the outcome. -/
  | seen
  | returned (result : Except Fault σ)
  /-- Given up by its owner. -/
  | dropped

namespace Stage

/-- The wait holds a receiver for the mark. -/
def isSubscribed : Stage σ → Bool
  | subscribed | seen => true
  | _ => false

/-- The wait has run out of its time. -/
def timedOut : Stage σ → Bool
  | returned (.error (.connectionTimeout _)) => true
  | _ => false

/-- Nothing more comes of the wait. -/
def isOver : Stage σ → Bool
  | returned _ | dropped => true
  | _ => false

/-- The steps that are left to a wait that will find the mark when it looks. -/
def rest (looking : Glance) : Stage σ → List Glance
  | made => [.subscribe, looking, .read]
  | subscribed => [looking, .read]
  | seen => [.read]
  | _ => []

end Stage

/-- A wait for the outcome, perhaps for a limited time. -/
structure Wait (σ : Type) where
  limit : Option Span := none
  stage : Stage σ := .made

namespace Wait

def subscribe (w : Wait σ) : Wait σ :=
  match w.stage with
  | .made => { w with stage := .subscribed }
  | _ => w

def drop (w : Wait σ) : Wait σ :=
  if w.stage.isOver then w else { w with stage := .dropped }

/-- The wait looks for the mark. If the promise is gone no mark will come. -/
def look (p : Promise σ β) (held : Bool) (w : Wait σ) : Wait σ :=
  match w.stage with
  | .subscribed =>
      if p.done then { w with stage := .seen }
      else if held then w
      else { w with stage := .returned (.error .connectionClosed) }
  | _ => w

/-- The wait reads the outcome, once it has seen the mark. -/
def read (p : Promise σ β) (w : Wait σ) : Wait σ :=
  match w.stage with
  | .seen => { w with stage := .returned (p.tryResult.getD (.error .connectionClosed)) }
  | _ => w

/-- The time is over: the wait looks once more. -/
def expire (p : Promise σ β) (held : Bool) (w : Wait σ) : Wait σ :=
  match (w.look p held).stage, w.limit with
  | .subscribed, some limit => { w with stage := .returned (.error (.connectionTimeout limit.millis)) }
  | _, _ => w.look p held

def step (p : Promise σ β) (held : Bool) (w : Wait σ) : Glance → Wait σ
  | .subscribe => w.subscribe
  | .look => w.look p held
  | .read => w.read p
  | .expire => w.expire p held
  | .drop => w.drop

end Wait

/-- A promise with its channel and with those who wait for it. -/
structure Lobby (σ β : Type) where
  channel : Channel
  promise : Promise σ β := {}
  /-- A transition has stored the outcome and not set the mark yet. -/
  telling : Bool := false
  /-- Somebody holds the promise. -/
  held : Bool := true
  waits : List (Wait σ) := []

/-- What happens in a lobby: the two halves of a transition, other calls on the promise, its channel is
closed, the promise goes away, or a wait makes a step. -/
inductive Move (σ β : Type) where
  | decide (outcome : Outcome σ)
  | mark
  | register (callback : β)
  | closeChannel
  | release
  | glance (wait : Nat) (step : Glance)

/-- The wait that makes the step. -/
def Move.wait? : Move σ β → Option Nat
  | glance wait _ => some wait
  | _ => none

/-- What one wait does. -/
def Move.glance? (wait : Nat) : Move σ β → Option Glance
  | glance other step => if other = wait then some step else none
  | _ => none

theorem Move.eq_of_glance? {move : Move σ β} {wait : Nat} {step : Glance}
    (h : move.glance? wait = some step) : move = .glance wait step := by
  cases move with
  | glance other own =>
      rw [glance?] at h
      split at h
      · next hwait => rw [hwait, Option.some.inj h]
      · cases h
  | _ => cases h

namespace Lobby

/-- A lobby for a new promise. Of the waits nobody has begun yet. -/
def opened (channel : Channel) (limits : List (Option Span)) : Lobby σ β :=
  { channel, waits := limits.map fun limit => { limit } }

def step (l : Lobby σ β) : Move σ β → Lobby σ β
  | .decide outcome =>
      match l.promise.decide? outcome with
      | none => l
      | some (_, promise) => { l with promise := promise, telling := true }
  | .mark => if l.telling then { l with promise := l.promise.wake, telling := false } else l
  | .register callback => { l with promise := (l.promise.register callback).2 }
  | .closeChannel => { l with channel := l.channel.close.2 }
  | .release => { l with held := false }
  | .glance wait step => { l with waits := l.waits.modify wait (·.step l.promise l.held step) }

def run (l : Lobby σ β) (moves : List (Move σ β)) : Lobby σ β :=
  moves.foldl step l

/-- A wait holds a receiver for the mark. -/
def isSubscribed (l : Lobby σ β) (wait : Nat) : Bool :=
  l.waits[wait]?.any (·.stage.isSubscribed)

variable {l l' : Lobby σ β}

@[simp] theorem run_nil (l : Lobby σ β) : l.run [] = l := rfl

@[simp] theorem run_cons (l : Lobby σ β) (move : Move σ β) (moves : List (Move σ β)) :
    l.run (move :: moves) = (l.step move).run moves := rfl

/-! ### What runs -/

/-- A transition with nothing between its halves. -/
theorem decide_mark (h : l.telling = false) (outcome : Outcome σ) :
    (l.step (.decide outcome)).step .mark =
      match l.promise.settle? outcome with
      | none => l
      | some (_, promise) => { l with promise := promise } := by
  cases hdecide : l.promise.decide? outcome with
  | none => simp [step, settle?, hdecide, h]
  | some settled => simp [step, settle?, hdecide, h]

/-- A wait that looks and reads sees what a waiter sees. -/
theorem look_read (p : Promise σ β) (w : Wait σ) (h : w.stage = .subscribed) :
    ((w.step p true .look).step p true .read).stage = p.poll.elim .subscribed .returned := by
  cases hdone : p.done <;> simp [Wait.step, Wait.look, Wait.read, h, hdone, poll]

/-- A wait whose time is over, and which then reads if it may, returns what a waiter sees whose time is
over. -/
theorem expire_read (p : Promise σ β) (w : Wait σ) (h : w.stage = .subscribed) {limit : Span}
    (hlimit : w.limit = some limit) :
    ((w.step p true .expire).step p true .read).stage = .returned (p.pollAtDeadline limit) := by
  cases hdone : p.done <;>
    simp [Wait.step, Wait.look, Wait.read, Wait.expire, h, hlimit, hdone, pollAtDeadline, poll]

end Lobby

/-! ### What waits return -/

namespace Wait

variable {p : Promise σ β} {held : Bool} {w : Wait σ} {o : Outcome σ}

/-- The wait has seen the mark only if it is there, and as long as the promise is there it has returned
the outcome or run out of its time. -/
structure Good (p : Promise σ β) (held : Bool) (w : Wait σ) : Prop where
  seen : w.stage = .seen → p.done = true
  returned : ∀ result, w.stage = .returned result → held = true →
    (∃ o, p.outcome = some o ∧ result = o.result) ∨
    ∃ limit, w.limit = some limit ∧ result = .error (.connectionTimeout limit.millis)

theorem Good.of_stage (hseen : w.stage ≠ .seen)
    (hreturned : ∀ result, w.stage ≠ .returned result) : w.Good p held :=
  ⟨fun h => absurd h hseen, fun result h => absurd h (hreturned result)⟩

theorem Good.mono {p' : Promise σ β} {held' : Bool} (h : w.Good p held)
    (hdone : p.done = true → p'.done = true)
    (houtcome : ∀ o, p.outcome = some o → p'.outcome = some o)
    (hheld : held' = true → held = true) : w.Good p' held' where
  seen := fun hseen => hdone (h.seen hseen)
  returned := fun result hresult hheld' =>
    (h.returned result hresult (hheld hheld')).imp_left fun ⟨o, ho, hr⟩ => ⟨o, houtcome o ho, hr⟩

theorem Good.look (h : w.Good p held) : (w.look p held).Good p held := by
  rw [Wait.look]
  split
  · split
    · next hdone => exact ⟨fun _ => hdone, fun _ hresult => (by cases hresult)⟩
    · split
      · exact h
      · next hgone => exact ⟨fun hseen => (by cases hseen), fun _ _ hheld => absurd hheld hgone⟩
  · exact h

theorem Good.read (h : w.Good p held) (hmark : p.done = true → ∃ o, p.outcome = some o) :
    (w.read p).Good p held := by
  rw [Wait.read]
  split
  · next hseen =>
      obtain ⟨o, ho⟩ := hmark (h.seen hseen)
      refine ⟨fun hseen => (by cases hseen), fun result hresult _ => Or.inl ⟨o, ho, ?_⟩⟩
      rw [Promise.tryResult, ho] at hresult
      exact (Stage.returned.inj hresult).symm
  · exact h

theorem Good.expire (h : w.Good p held) : (w.expire p held).Good p held := by
  rw [Wait.expire]
  split
  · next limit _ hlimit =>
      refine ⟨fun hseen => (by cases hseen), fun result hresult _ => Or.inr ⟨limit, hlimit, ?_⟩⟩
      exact (Stage.returned.inj hresult).symm
  · exact h.look

theorem Good.step (h : w.Good p held) (hmark : p.done = true → ∃ o, p.outcome = some o)
    (step : Glance) : (w.step p held step).Good p held := by
  cases step with
  | subscribe =>
      rw [Wait.step, subscribe]
      split
      · exact .of_stage (by simp) (by simp)
      · exact h
  | look => exact h.look
  | read => exact h.read hmark
  | expire => exact h.expire
  | drop =>
      rw [Wait.step, drop]
      split
      · exact h
      · exact .of_stage (by simp) (by simp)

/-- A wait does not go on waiting when it sees the mark. -/
theorem look_of_done (hdone : p.done = true) (w : Wait σ) :
    (w.look p held).stage ≠ .subscribed := by
  unfold Wait.look
  split
  · rw [if_pos hdone]
    exact fun h => by cases h
  · next hstage => exact hstage

/-- Looking ends no wait because of its time, -/
theorem timedOut_look (w : Wait σ) : (w.look p held).stage.timedOut = w.stage.timedOut := by
  unfold Wait.look
  split
  · next hstage =>
      split
      · rw [hstage]; rfl
      · split
        · rfl
        · rw [hstage]; rfl
  · rfl

/-- and no outcome is that somebody has waited too long. -/
theorem timedOut_read (w : Wait σ) : (w.read p).stage.timedOut = w.stage.timedOut := by
  unfold Wait.read
  split
  · next hstage =>
      rw [hstage]
      rcases ho : p.outcome with _ | (session | cause | _) <;>
        simp [Promise.tryResult, ho, Stage.timedOut, Outcome.result]
  · rfl

/-- A wait runs out of its time when it looks at its deadline, and in vain. -/
theorem expire_of_timedOut {step : Glance} (h : w.stage.timedOut = false)
    (htimeout : (w.step p held step).stage.timedOut = true) : step = .expire ∧ p.done = false := by
  cases step with
  | subscribe =>
      rw [Wait.step, subscribe] at htimeout
      split at htimeout
      · cases htimeout
      · exact absurd htimeout (by rw [h]; decide)
  | look =>
      rw [Wait.step, timedOut_look, h] at htimeout
      cases htimeout
  | read =>
      rw [Wait.step, timedOut_read, h] at htimeout
      cases htimeout
  | expire =>
      refine ⟨rfl, Bool.eq_false_iff.mpr fun hdone => ?_⟩
      rw [Wait.step, expire] at htimeout
      split at htimeout
      · next hstage _ => exact absurd hstage (look_of_done hdone w)
      · rw [timedOut_look, h] at htimeout
        cases htimeout
  | drop =>
      rw [Wait.step, drop] at htimeout
      split at htimeout
      · exact absurd htimeout (by rw [h]; decide)
      · cases htimeout

/-- A promise with an outcome, whose waiters may look. -/
def told (o : Outcome σ) : Promise σ β :=
  { outcome := some o, done := true }

/-- Once the mark is there nothing else matters to a wait. -/
theorem step_of_done (hdone : p.done = true) (ho : p.outcome = some o) (step : Glance) :
    w.step p held step = w.step (told o : Promise σ β) true step := by
  have hlook : w.look p held = w.look (told o : Promise σ β) true := by
    simp only [look, hdone, told, if_true]
  cases step with
  | look => exact hlook
  | read => simp only [Wait.step, read, Promise.tryResult, ho, told]
  | expire => simp only [Wait.step, expire, hlook]
  | _ => rfl

/-- A wait that has not failed to see the outcome will see it. -/
theorem returned_of_told (h : ∀ result, w.stage = .returned result → result = o.result)
    (step : Glance) {result : Except Fault σ}
    (hresult : (w.step (told o : Promise σ β) true step).stage = .returned result) :
    result = o.result := by
  rcases w with ⟨limit, stage⟩
  cases stage with
  | returned r =>
      refine h result ?_
      cases step <;> exact hresult
  | seen =>
      cases step with
      | read => exact (Stage.returned.inj hresult).symm
      | _ => cases hresult
  | _ => cases step <;> cases hresult

end Wait

namespace Lobby

variable {l l' : Lobby σ β} {o : Outcome σ}

/-- What holds in a lobby at any time. -/
structure Sound (l : Lobby σ β) : Prop where
  done : l.promise.done = (l.promise.outcome.isSome && !l.telling)
  telling : l.telling = true → l.promise.outcome.isSome = true
  good : ∀ (i : Nat) (w : Wait σ), l.waits[i]? = some w → w.Good l.promise l.held

theorem sound_opened (channel : Channel) (limits : List (Option Span)) :
    (opened channel limits : Lobby σ β).Sound where
  done := rfl
  telling := fun h => by cases h
  good := by
    intro i w hw
    rw [opened, List.getElem?_map] at hw
    obtain ⟨limit, -, rfl⟩ := Option.map_eq_some_iff.mp hw
    exact .of_stage (by simp) (by simp)

theorem Sound.outcome (h : l.Sound) (hdone : l.promise.done = true) :
    ∃ o, l.promise.outcome = some o := by
  rw [h.done, Bool.and_eq_true] at hdone
  exact Option.isSome_iff_exists.mp hdone.1

/-- What a move does to a wait. -/
theorem waits_step (l : Lobby σ β) (move : Move σ β) (i : Nat) :
    (l.step move).waits[i]? = l.waits[i]?.map fun w =>
      ((move.glance? i).map (w.step l.promise l.held)).getD w := by
  cases move with
  | glance wait step =>
      simp only [Lobby.step, List.getElem?_modify, Move.glance?]
      by_cases h : wait = i <;> simp [h]
  | decide outcome =>
      simp only [Lobby.step, Move.glance?]
      split <;> simp
  | mark =>
      simp only [Lobby.step, Move.glance?]
      split <;> simp
  | _ => simp [Lobby.step, Move.glance?]

theorem outcome_step (ho : l.promise.outcome = some o) (move : Move σ β) :
    (l.step move).promise.outcome = some o := by
  cases move with
  | decide outcome => rw [step, decide?, ho]; exact ho
  | mark => rw [step]; split <;> exact ho
  | register callback => rw [step, Promise.register, ho]; exact ho
  | _ => exact ho

theorem Sound.done_step (h : l.Sound) (hdone : l.promise.done = true) (move : Move σ β) :
    (l.step move).promise.done = true := by
  obtain ⟨o, ho⟩ := h.outcome hdone
  cases move with
  | decide outcome => rw [step, decide?, ho]; exact hdone
  | mark =>
      rw [step]
      split
      · rfl
      · exact hdone
  | register callback => rw [step, Promise.register, ho]; exact hdone
  | _ => exact hdone

theorem held_step (move : Move σ β) (h : (l.step move).held = true) : l.held = true := by
  cases move with
  | decide outcome => rw [step] at h; split at h <;> exact h
  | mark => rw [step] at h; split at h <;> exact h
  | release => cases h
  | _ => exact h

theorem Sound.step (h : l.Sound) (move : Move σ β) : (l.step move).Sound where
  done := by
    have hdone := h.done
    cases move with
    | decide outcome =>
        cases ho : l.promise.outcome with
        | none => simp_all [Lobby.step, decide?]
        | some first => simp_all [Lobby.step, decide?]
    | mark =>
        cases htelling : l.telling with
        | true => simp [Lobby.step, htelling, Promise.wake, h.telling htelling]
        | false => simp_all [Lobby.step]
    | register callback => cases ho : l.promise.outcome <;> simp_all [Lobby.step, Promise.register]
    | _ => exact hdone
  telling := by
    cases move with
    | decide outcome =>
        cases ho : l.promise.outcome with
        | none => simp [Lobby.step, decide?, ho]
        | some first => simp [Lobby.step, decide?, ho]
    | mark =>
        simp only [Lobby.step]
        split
        · exact fun htelling => by cases htelling
        · exact h.telling
    | register callback =>
        intro htelling
        obtain ⟨o, ho⟩ := Option.isSome_iff_exists.mp (h.telling htelling)
        rw [outcome_step ho]
        rfl
    | _ => exact h.telling
  good := by
    intro i w' hw'
    rw [waits_step] at hw'
    obtain ⟨w, hw, rfl⟩ := Option.map_eq_some_iff.mp hw'
    have hgood : (((move.glance? i).map (w.step l.promise l.held)).getD w).Good l.promise l.held := by
      cases move.glance? i with
      | none => exact h.good i w hw
      | some step => exact (h.good i w hw).step h.outcome step
    exact hgood.mono (h.done_step · move) (fun o ho => outcome_step ho move) (held_step move)

theorem Sound.run (h : l.Sound) (moves : List (Move σ β)) : (l.run moves).Sound := by
  induction moves generalizing l with
  | nil => exact h
  | cons move moves ih => exact ih (h.step move)

/-! ### Once there is an outcome -/

/-- What becomes of a wait is then a matter of its own steps. -/
theorem Sound.waits_run (h : l.Sound) (hdone : l.promise.done = true)
    (ho : l.promise.outcome = some o) (moves : List (Move σ β)) (i : Nat) :
    (l.run moves).waits[i]? = l.waits[i]?.map fun w =>
      (moves.filterMap (Move.glance? i)).foldl (Wait.step (Wait.told o : Promise σ β) true) w := by
  induction moves generalizing l with
  | nil => simp
  | cons move moves ih =>
      rw [run_cons, ih (h.step move) (h.done_step hdone move) (outcome_step ho move), waits_step,
        Option.map_map]
      refine Option.map_congr fun w _ => ?_
      cases hglance : move.glance? i with
      | none => simp [hglance]
      | some step => simp [hglance, Wait.step_of_done hdone ho]

/-- A wait that goes on to the end returns the outcome, also if its time is over. -/
theorem stage_of_told (w : Wait σ) (h : w.stage.isOver = false) {looking : Glance}
    (hlooking : looking = .look ∨ looking = .expire) :
    ((w.stage.rest looking).foldl (Wait.step (Wait.told o : Promise σ β) true) w).stage =
      .returned o.result := by
  obtain ⟨limit, stage⟩ := w
  cases stage with
  | returned result => cases h
  | dropped => cases h
  | _ => rcases hlooking with rfl | rfl <;> rfl

/-- A wait that has returned nothing yet returns nothing but the outcome. -/
theorem result_of_told (w : Wait σ) (h : ∀ result, w.stage = .returned result → result = o.result)
    (steps : List Glance) {result : Except Fault σ}
    (hresult : (steps.foldl (Wait.step (Wait.told o : Promise σ β) true) w).stage = .returned result) :
    result = o.result := by
  induction steps generalizing w with
  | nil => exact h result hresult
  | cons step steps ih =>
      exact ih _ (fun r hr => Wait.returned_of_told (β := β) h step hr) hresult

/-! ### Who does not look -/

/-- Two lobbies that differ at most in some waits. -/
structure Alike (gone : Nat → Bool) (l l' : Lobby σ β) : Prop where
  channel : l'.channel = l.channel
  promise : l'.promise = l.promise
  telling : l'.telling = l.telling
  held : l'.held = l.held
  waits : ∀ i, gone i = false → l'.waits[i]? = l.waits[i]?

variable {gone : Nat → Bool}

theorem Alike.step (h : Alike gone l l') (move : Move σ β) :
    Alike gone (l.step move) (l'.step move) := by
  obtain ⟨hchannel, hpromise, htelling, hheld, hwaits⟩ := h
  have hafter : ∀ i, gone i = false → (l'.step move).waits[i]? = (l.step move).waits[i]? := by
    intro i hi
    rw [waits_step, waits_step, hwaits i hi, hpromise, hheld]
  cases move with
  | decide outcome =>
      refine ⟨?_, ?_, ?_, ?_, hafter⟩ <;> simp only [Lobby.step, hpromise] <;> split <;> trivial
  | mark =>
      cases ht : l.telling <;> refine ⟨?_, ?_, ?_, ?_, hafter⟩ <;>
        simp [Lobby.step, htelling, ht, hchannel, hpromise, hheld]
  | register callback =>
      exact ⟨hchannel, by rw [Lobby.step, Lobby.step, hpromise], htelling, hheld, hafter⟩
  | closeChannel =>
      exact ⟨by rw [Lobby.step, Lobby.step, hchannel], hpromise, htelling, hheld, hafter⟩
  | release => exact ⟨hchannel, hpromise, htelling, rfl, hafter⟩
  | glance wait step => exact ⟨hchannel, hpromise, htelling, hheld, hafter⟩

/-- The steps of a wait touch nothing but the wait. -/
theorem Alike.glance (h : Alike gone l l') {wait : Nat} (hgone : gone wait = true) (step : Glance) :
    Alike gone (l.step (.glance wait step)) l' where
  channel := h.channel
  promise := h.promise
  telling := h.telling
  held := h.held
  waits := by
    intro i hi
    have hother : wait ≠ i := by
      rintro rfl
      rw [hgone] at hi
      cases hi
    rw [waits_step, h.waits i hi, Move.glance?, if_neg hother]
    simp

theorem Alike.run (h : Alike gone l l') (moves : List (Move σ β)) :
    Alike gone (l.run moves) (l'.run (moves.filter fun move => !move.wait?.any gone)) := by
  induction moves generalizing l l' with
  | nil => exact h
  | cons move moves ih =>
      cases hmove : move.wait?.any gone with
      | false =>
          rw [List.filter_cons_of_pos (by simp [hmove])]
          exact ih (h.step move)
      | true =>
          rw [List.filter_cons_of_neg (by simp [hmove])]
          cases move with
          | glance wait step => exact ih (h.glance hmove step)
          | _ => cases hmove

/-- A wait that makes no step stays as it is. -/
theorem waits_run_of_still {i : Nat} {moves : List (Move σ β)}
    (h : ∀ move ∈ moves, move.glance? i = none) : (l.run moves).waits[i]? = l.waits[i]? := by
  induction moves generalizing l with
  | nil => rfl
  | cons move moves ih =>
      rw [run_cons, ih fun m hm => h m (List.mem_cons_of_mem _ hm), waits_step,
        h move List.mem_cons_self]
      simp

theorem isSubscribed_opened (channel : Channel) (limits : List (Option Span)) (i : Nat) :
    (opened channel limits : Lobby σ β).isSubscribed i = false := by
  simp only [isSubscribed, opened, List.getElem?_map]
  cases limits[i]? <;> rfl

theorem glance?_of_not_gone {move : Move σ β} (h : move.wait?.any gone = false) {i : Nat}
    (hi : gone i = true) : move.glance? i = none := by
  cases move with
  | glance wait step =>
      refine if_neg ?_
      rintro rfl
      exact absurd hi (by rw [show gone wait = false from h]; decide)
  | _ => rfl

/-- Waits that are over, or that have never begun, are not in the way of anybody's receivers. -/
theorem isSubscribed_without (channel : Channel) (limits : List (Option Span))
    (moves : List (Move σ β)) (hover : ∀ i, gone i = true →
      ((opened channel limits : Lobby σ β).run moves).isSubscribed i = false) (i : Nat) :
    ((opened channel limits).run (moves.filter fun move => !move.wait?.any gone)).isSubscribed i =
      ((opened channel limits).run moves).isSubscribed i := by
  have hsame : Alike gone (opened channel limits : Lobby σ β) (opened channel limits) :=
    ⟨rfl, rfl, rfl, rfl, fun _ _ => rfl⟩
  cases hi : gone i with
  | false => rw [isSubscribed, isSubscribed, (hsame.run moves).waits i hi]
  | true =>
      rw [hover i hi, isSubscribed, waits_run_of_still, ← isSubscribed, isSubscribed_opened]
      intro move hmove
      have hstays := (List.mem_filter.mp hmove).2
      exact glance?_of_not_gone (by simpa using hstays) hi

/-! ### Waiting -/

theorem toNat_millis (d : Span) : d.millis.toNat = min (d.toNanos / 1_000_000) (UInt64.size - 1) := by
  rw [Span.millis, UInt64.toNat_ofNat', UInt64.size]
  omega

/-- What a wait has after two steps of its own. -/
theorem waits_two {i : Nat} {w : Wait σ} (hw : l.waits[i]? = some w) (first second : Glance) :
    (l.run [.glance i first, .glance i second]).waits[i]? =
      some ((w.step l.promise l.held first).step l.promise l.held second) := by
  have hglance : ∀ step, (Move.glance i step : Move σ β).glance? i = some step :=
    fun step => if_pos rfl
  rw [run_cons, run_cons, run_nil, waits_step, waits_step, hw, hglance, hglance]
  rfl

/-- Waiters see the outcome, except between the two halves of a transition. -/
theorem Sound.poll_eq (h : l.Sound) :
    l.promise.poll = if l.telling then none else l.promise.tryResult := by
  rw [poll, h.done]
  cases l.telling with
  | true => rw [Bool.not_true, Bool.and_false, if_neg (by decide), if_pos rfl]
  | false =>
      rw [Bool.not_false, Bool.and_true, if_neg Bool.false_ne_true, tryResult]
      cases l.promise.outcome <;> rfl

/-- After the second half they see what the first has stored. -/
theorem Sound.poll_mark (h : l.Sound) (htelling : l.telling = true) :
    ∃ o, l.promise.outcome = some o ∧ (l.step .mark).promise.poll = some o.result := by
  obtain ⟨o, ho⟩ := Option.isSome_iff_exists.mp (h.telling htelling)
  have hmarked : (l.step .mark).telling = false := by rw [Lobby.step, if_pos htelling]
  refine ⟨o, ho, ?_⟩
  rw [(h.step .mark).poll_eq, hmarked, tryResult, outcome_step ho]
  rfl

/-- What a lobby shows to those who wait. The mark is there when a transition is over, and not before; a
transition with nothing between its halves is one of the promise. A wait that looks sees the outcome,
unless a transition is between its halves: then it sees nothing yet, and after the mark what was stored.
One whose time is over returns what it sees when it looks for the last time. As long as the promise is
there a wait has returned its outcome, or it had a limit and has run out of time; this happens only to
one that looks at its deadline and finds no mark: there is no outcome then, or it was stored a moment ago
and is about to be told. After the mark no wait runs out of time any more, however short its limit:
whatever else happens, it returns the outcome when it goes on to the end, and looking for the last time
is as good as any. -/
structure Shows (l : Lobby σ β) : Prop where
  mark : l.promise.done = true ↔ l.promise.outcome.isSome = true ∧ l.telling = false
  whole : l.telling = false → ∀ outcome, (l.step (.decide outcome)).step .mark =
    match l.promise.settle? outcome with
    | none => l
    | some (_, promise) => { l with promise := promise }
  poll : l.promise.poll = if l.telling then none else l.promise.tryResult
  between : l.telling = true →
    ∃ o, l.promise.outcome = some o ∧ (l.step .mark).promise.poll = some o.result
  look : ∀ (i : Nat) (w : Wait σ), l.waits[i]? = some w → w.stage = .subscribed → l.held = true →
    ((l.run [.glance i .look, .glance i .read]).waits[i]?).map Wait.stage =
      some (l.promise.poll.elim .subscribed .returned)
  deadline : ∀ (i : Nat) (w : Wait σ) limit, l.waits[i]? = some w → w.stage = .subscribed →
    w.limit = some limit → l.held = true →
    ((l.run [.glance i .expire, .glance i .read]).waits[i]?).map Wait.stage =
      some (.returned (l.promise.pollAtDeadline limit))
  returned : ∀ (i : Nat) (w : Wait σ) result, l.waits[i]? = some w → w.stage = .returned result →
    l.held = true → (∃ o, l.promise.outcome = some o ∧ result = o.result) ∨
      ∃ limit, w.limit = some limit ∧ result = .error (.connectionTimeout limit.millis)
  timedOut : ∀ move (i : Nat) (w w' : Wait σ), l.waits[i]? = some w → w.stage.timedOut = false →
    (l.step move).waits[i]? = some w' → w'.stage.timedOut = true →
    move = .glance i .expire ∧ l.promise.done = false ∧
      (l.promise.outcome = none ∨ l.telling = true)
  told : l.promise.done = true → ∃ o, l.promise.outcome = some o ∧ ∀ (i : Nat) (w : Wait σ),
    l.waits[i]? = some w → w.stage.isOver = false → ∀ more, ∃ w', (l.run more).waits[i]? = some w' ∧
      (∀ result, w'.stage = .returned result → result = o.result) ∧
      ∀ looking, looking = .look ∨ looking = .expire →
        more.filterMap (Move.glance? i) = w.stage.rest looking → w'.stage = .returned o.result

theorem Sound.shows (h : l.Sound) : l.Shows := by
  have hmark : l.promise.done = true ↔
      l.promise.outcome.isSome = true ∧ l.telling = false := by
    rw [h.done, Bool.and_eq_true, Bool.not_eq_true']
  refine ⟨hmark, decide_mark, h.poll_eq, h.poll_mark, ?_, ?_, ?_, ?_, ?_⟩
  · intro i w hw hstage hheld
    rw [waits_two hw, hheld, Option.map_some, look_read _ _ hstage]
  · intro i w limit hw hstage hlimit hheld
    rw [waits_two hw, hheld, Option.map_some, expire_read _ _ hstage hlimit]
  · intro i w result hw hresult hheld
    exact (h.good i w hw).returned result hresult hheld
  · intro move i w w' hw hbefore hw' hafter
    rw [waits_step, hw, Option.map_some] at hw'
    obtain rfl := Option.some.inj hw'
    cases hglance : move.glance? i with
    | none =>
        rw [hglance] at hafter
        exact absurd (hbefore.symm.trans hafter) (by decide)
    | some step =>
        rw [hglance] at hafter
        obtain ⟨rfl, hdone⟩ := Wait.expire_of_timedOut hbefore hafter
        refine ⟨Move.eq_of_glance? hglance, hdone, ?_⟩
        rw [h.done, Bool.and_eq_false_iff, Bool.not_eq_false'] at hdone
        exact hdone.imp_left fun hnone => Option.isNone_iff_eq_none.mp
          (by rw [← Option.not_isSome, hnone]; rfl)
  · intro hdone
    obtain ⟨o, ho⟩ := h.outcome hdone
    refine ⟨o, ho, fun i w hw hover more => ?_⟩
    refine ⟨_, (h.waits_run hdone ho more i).trans (by rw [hw]; rfl), ?_, ?_⟩
    · intro result hresult
      refine result_of_told (β := β) w (fun r hr => ?_) _ hresult
      rw [hr] at hover
      cases hover
    · intro looking hlooking hsteps
      rw [hsteps]
      exact stage_of_told w hover hlooking

/-- Nobody can tell who has waited. Taking waits out of what has happened changes nothing but those
waits; and if they are over, the same receivers are subscribed without them. -/
structure Unnoticed (start : Lobby σ β) (moves : List (Move σ β)) : Prop where
  others : ∀ gone, Alike gone (start.run moves)
    (start.run (moves.filter fun move => !move.wait?.any gone))
  receivers : ∀ gone : Nat → Bool,
    (∀ (i : Nat) (w : Wait σ), gone i = true → (start.run moves).waits[i]? = some w →
      w.stage.isOver = true) →
    ∀ i, (start.run (moves.filter fun move => !move.wait?.any gone)).isSubscribed i =
      (start.run moves).isSubscribed i

theorem unnoticed_opened (channel : Channel) (limits : List (Option Span))
    (moves : List (Move σ β)) : Unnoticed (opened channel limits) moves := by
  refine ⟨fun gone => ?_, fun gone hover => ?_⟩
  · exact Alike.run ⟨rfl, rfl, rfl, rfl, fun _ _ => rfl⟩ moves
  · refine isSubscribed_without channel limits moves fun i hi => ?_
    rw [isSubscribed]
    cases hw : ((opened channel limits : Lobby σ β).run moves).waits[i]? with
    | none => rfl
    | some w =>
        have hstage := hover i w hi hw
        obtain ⟨limit, stage⟩ := w
        cases stage with
        | subscribed => cases hstage
        | seen => cases hstage
        | _ => rfl

/-- **Waiting only observes.** For any number of waits and whatever happens, one thing at a time, between
the halves of a transition too: every wait sees the outcome and nothing else, once it may be told, or runs
out of its time in whole milliseconds, as many as a 64-bit number can tell; and nobody can tell that it
has waited. -/
theorem waiting_only_observes (channel : Channel) (limits : List (Option Span))
    (moves : List (Move σ β)) :
    ((opened channel limits : Lobby σ β).run moves).Shows ∧
    Unnoticed (opened channel limits : Lobby σ β) moves ∧
    ∀ limit : Span, limit.millis.toNat = min (limit.toNanos / 1_000_000) (UInt64.size - 1) := by
  refine ⟨?_, unnoticed_opened channel limits moves, toNat_millis⟩
  exact ((sound_opened channel limits).run moves).shows

/-! ### Between the halves -/

/-- Once there is an outcome, every wait that begins returns it, whatever its limit is. -/
def Answers (l : Lobby σ β) : Prop :=
  ∀ (i : Nat) (w : Wait σ) o, l.promise.outcome = some o → l.held = true → l.waits[i]? = some w →
    w.stage = .made →
    ((l.run [.glance i .subscribe, .glance i .expire, .glance i .read]).waits[i]?).map Wait.stage =
      some (.returned o.result)

/-- A wait runs out of its time only as long as there is no outcome. -/
def Bides (l : Lobby σ β) : Prop :=
  ∀ (i : Nat) (w w' : Wait σ), l.waits[i]? = some w → w.stage.timedOut = false →
    (l.step (.glance i .expire)).waits[i]? = some w' → w'.stage.timedOut = true →
    l.promise.isDone = false

/-- A transition has stored its outcome and not set the mark. Somebody is about to wait for no time. -/
def overtaken : Lobby Nat Unit :=
  (opened { id := 1, peer := ⟨.v4 127 0 0 1, 9, 0⟩ } [some .zero]).step (.decide (.completed 7))

/-- A wait that comes between the halves of a transition runs out of its time, although everybody who
asks is told the outcome. -/
theorem overtaken_runs_out : overtaken.promise.tryResult = some (.ok 7) ∧
    ¬ overtaken.Answers ∧ ¬ (overtaken.step (.glance 0 .subscribe)).Bides := by
  refine ⟨rfl, fun hanswers => ?_, fun hbides => ?_⟩
  · have hresult := hanswers 0 ⟨some .zero, .made⟩ (.completed 7) rfl rfl rfl rfl
    cases hresult
  · have hpending := hbides 0 ⟨some .zero, .subscribed⟩ _ rfl rfl rfl rfl
    cases hpending

end Lobby

end SpdySessions.Promise
