import Mathlib.Logic.Hydra
import SpdySessions.Proofs.Factory.Chains

/-! How call chains come to an end. No step makes the requests more that are still to come, those of the
callbacks that wait included; a task that is no request unfolds to tasks of lower ranks, so the ranks of
what is to be done form a multiset that goes down meanwhile. -/

namespace SpdySessions.Chain

variable {codec : HeaderCodec}

/-! ### What is left -/

mutual

/-- How many requests may come of one, itself included. -/
def Request.size : Request → Nat
  | .onComplete _ delivered refused => 1 + sizes delivered + sizes refused
  | .start _ => 1
  | .stop => 1
  | .sessions => 1
  | .isRunning => 1
  | .connect _ _ _ _ => 1
  | .cancel _ => 1
  | .tryResult _ => 1
  | .call _ _ => 1

def sizes : List Request → Nat
  | [] => 0
  | r :: rest => r.size + sizes rest

end

def Waiter.size (w : Waiter) : Nat :=
  sizes w.delivered + sizes w.refused

/-- How many requests a task holds. -/
def Task.size : Task codec → Nat
  | .request r => r.size
  | .enlist w => w.size
  | _ => 0

def load (tasks : List (Task codec)) : Nat :=
  (tasks.map Task.size).sum

def waitingLoad (waiting : List Waiter) : Nat :=
  (waiting.map Waiter.size).sum

/-- A task unfolds to tasks of lower ranks, and requests. -/
def Task.rank? : Task codec → Option Nat
  | .request _ => none
  | .acquire _ => some 0
  | .release _ => some 0
  | .act _ => some 0
  | .begin _ => some 1
  | .call _ _ => some 1
  | .decide _ _ => some 1
  | .enlist _ => some 1
  | .enroll _ _ _ _ => some 1
  | .finish _ => some 1
  | .settle _ _ => some 2
  | .farewell _ => some 2
  | .retire => some 3
  | .closeBooks _ => some 3
  | .abort _ _ => some 3
  | .takeDown _ => some 4
  | .hand _ _ => some 4
  | .dismantle => some 5
  | .enter _ _ => some 5
  | .halt => some 6
  | .deliver _ => some 6

/-- The ranks of what is left to do. -/
def ranks (tasks : List (Task codec)) : Multiset Nat :=
  (tasks.filterMap Task.rank? : List Nat)

/-- Each of some tasks is one of those. -/
def Each (p : Task codec → Prop) (tasks : List (Task codec)) : Prop :=
  ∀ t ∈ tasks, p t

/-- A lock that is taken or given back, or a change. -/
def Task.IsPlain (t : Task codec) : Prop :=
  t.rank? = some 0

/-- A request, or of a lower rank. -/
def Task.IsBelow (n : Nat) (t : Task codec) : Prop :=
  ∀ m, t.rank? = some m → m < n

section

variable {n m : Nat} {t : Task codec} {rest ts ts' : List (Task codec)} {l : Lock} {run : Nat}
  {id : ChannelId} {f : Factory codec} {waiting : List Waiter} {rs : List Request}
  {p : Task codec → Prop}

@[simp] theorem each_nil : Each p [] := by
  simp [Each]

@[simp] theorem each_cons : Each p (t :: ts) ↔ p t ∧ Each p ts := by
  simp [Each]

@[simp] theorem each_append : Each p (ts ++ ts') ↔ Each p ts ∧ Each p ts' := by
  simp [Each, or_imp, forall_and]

@[simp] theorem each_map {α : Type} {g : α → Task codec} {xs : List α} :
    Each p (xs.map g) ↔ ∀ x ∈ xs, p (g x) := by
  simp [Each]

@[simp] theorem each_within : Each p (within l ts) ↔ p (.acquire l) ∧ Each p ts ∧ p (.release l) := by
  simp [within]

theorem each_programs (hrequest : ∀ r, p (.request r)) (waiting : List Waiter) (id : ChannelId)
    (completed : Bool) : Each p (programsOf waiting id completed) := by
  intro t ht
  obtain ⟨w, -, ht⟩ := List.mem_flatMap.mp ht
  obtain ⟨r, -, rfl⟩ := List.mem_map.mp ht
  exact hrequest r

theorem plain_acquire (l : Lock) : (Task.acquire l : Task codec).IsPlain := rfl

theorem plain_release (l : Lock) : (Task.release l : Task codec).IsPlain := rfl

theorem plain_act (change : Factory codec → Factory codec) : (Task.act change).IsPlain := rfl

theorem plain_inChannels (run : Nat) (change : List ChannelId → List ChannelId) :
    Each Task.IsPlain (inChannels run change : List (Task codec)) := by
  simp [inChannels, plain_acquire, plain_release, plain_act]

theorem plain_inPending (run : Nat) (change : List ChannelId → List ChannelId) :
    Each Task.IsPlain (inPending run change : List (Task codec)) := by
  simp [inPending, plain_acquire, plain_release, plain_act]

theorem plain_inOpened (run : Nat) (change : List ChannelId → List ChannelId) :
    Each Task.IsPlain (inOpened run change : List (Task codec)) := by
  simp [inOpened, plain_acquire, plain_release, plain_act]

theorem plain_forgetting (run : Nat) (id : ChannelId) :
    Each Task.IsPlain (forgetting run id : List (Task codec)) := by
  simp [forgetting, plain_inChannels, plain_inPending, plain_inOpened]

theorem plain_generating (id : ChannelId) (e : Endpoint codec) (frame : Frame)
    (change : Factory codec → Factory codec) : Each Task.IsPlain (generating id e frame change) := by
  unfold generating
  split <;> simp [plain_acquire, plain_release, plain_act]

theorem Each.below (h : Each Task.IsPlain ts) (n : Nat) : Each (Task.IsBelow (n + 1)) ts := by
  intro t ht m hm
  obtain rfl : 0 = m := Option.some.inj ((h t ht).symm.trans hm)
  exact n.succ_pos

/-- Requests apart, what a task unfolds to is of lower ranks. -/
theorem below_unfold (hrank : t.rank? = some n) : Each (Task.IsBelow n) (unfold f waiting t).2.2 := by
  have hrequest (n : Nat) (r : Request) : (Task.request r : Task codec).IsBelow n := nofun
  cases t with
  | request r => cases hrank
  | farewell session =>
      obtain rfl := Option.some.inj hrank
      cases h : f.holder? session <;> simp [unfold, h, Task.IsBelow, Task.rank?]
  | finish id =>
      obtain rfl := Option.some.inj hrank
      cases h : f.attempts[id]? <;>
        simp [unfold, h, (plain_forgetting _ _).below, Task.IsBelow, Task.rank?]
  | _ =>
      obtain rfl := Option.some.inj hrank
      simp only [unfold]
      repeat' split
      all_goals simp [(plain_inChannels _ _).below, (plain_inPending _ _).below,
        (plain_inOpened _ _).below, (plain_forgetting _ _).below, (plain_generating _ _ _ _).below,
        each_programs (hrequest _), Task.IsBelow, Task.rank?]

/-! ### How many requests are left -/

@[simp] theorem load_nil : load ([] : List (Task codec)) = 0 := rfl

@[simp] theorem load_cons : load (t :: ts) = t.size + load ts := by
  simp [load]

@[simp] theorem load_append : load (ts ++ ts') = load ts + load ts' := by
  simp [load]

@[simp] theorem load_within : load (within l ts) = load ts := by
  simp [within, Task.size]

@[simp] theorem load_map {α : Type} (g : α → Task codec) (xs : List α) :
    load (xs.map g) = (xs.map fun x => (g x).size).sum := by
  simp [load, Function.comp_def]

theorem load_plain (h : Each Task.IsPlain ts) : load ts = 0 := by
  induction ts with
  | nil => rfl
  | cons t ts ih =>
      obtain ⟨hplain, hrest⟩ := each_cons.mp h
      have hsize : t.size = 0 := by
        cases t with
        | request r => cases hplain
        | enlist w => cases hplain
        | _ => rfl
      rw [load_cons, hsize, ih hrest]

theorem load_requests : load (rs.map .request : List (Task codec)) = sizes rs := by
  induction rs with
  | nil => rfl
  | cons r rest ih => rw [List.map_cons, load_cons, ih, Task.size, sizes]

theorem Waiter.sizes_program_le (w : Waiter) (completed : Bool) :
    sizes (w.program completed) ≤ w.size := by
  unfold Waiter.program Waiter.size
  split <;> omega

/-- Callbacks that are told wait no longer. -/
theorem load_programs (waiting : List Waiter) (id : ChannelId) (completed : Bool) :
    load (programsOf waiting id completed : List (Task codec)) +
      waitingLoad (waiting.filter (·.id ≠ id)) ≤ waitingLoad waiting := by
  unfold programsOf waitingLoad
  induction waiting with
  | nil => simp
  | cons w waiting ih =>
      have hw := w.sizes_program_le completed
      by_cases hid : w.id = id
      · simp only [hid, decide_true, List.filter_cons_of_pos, List.flatMap_cons, load_append,
          load_requests, ne_eq, not_true_eq_false, decide_false, Bool.false_eq_true, not_false_eq_true,
          List.filter_cons_of_neg, List.map_cons, List.sum_cons] at ih ⊢
        omega
      · simp only [hid, decide_false, Bool.false_eq_true, not_false_eq_true, List.filter_cons_of_neg,
          ne_eq, decide_true, List.filter_cons_of_pos, List.map_cons, List.sum_cons] at ih ⊢
        omega

/-- A request is one more than the requests that come of it. -/
theorem load_request (f : Factory codec) (r : Request) : load (r.tasks f) < r.size := by
  cases r with
  | onComplete id delivered refused =>
      simp [Request.tasks, Request.size, Task.size, Waiter.size, Nat.add_assoc]
  | connect client peer listener socket =>
      simp only [Request.tasks, Request.size]
      split
      · cases socket <;> simp [Task.size]
      · simp
  | _ => simp [Request.tasks, Request.size, Task.size]

/-- No other task makes them more. -/
theorem load_unfold (f : Factory codec) (waiting : List Waiter) (hrank : t.rank? = some n) :
    load (unfold f waiting t).2.2 + waitingLoad (unfold f waiting t).2.1 ≤
      t.size + waitingLoad waiting := by
  cases t with
  | request r => cases hrank
  | farewell session => cases h : f.holder? session <;> simp [unfold, h, Task.size]
  | finish id =>
      cases h : f.attempts[id]? <;> simp [unfold, h, load_plain (plain_forgetting _ _), Task.size]
  | decide id outcome =>
      simp only [unfold]
      split
      · simp [Task.size]
      · simpa [Task.size] using load_programs waiting id outcome.isCompleted
  | hand id session =>
      simp only [unfold]
      split
      · simp [Task.size]
      · split
        · simp [Task.size]
        · simpa [Task.size, load_plain (plain_inPending _ _), load_plain (plain_inOpened _ _)] using
            load_programs waiting id true
  | enlist w =>
      simp only [unfold]
      split
      · simp [Task.size]
      · split
        · simp [Task.size, waitingLoad]
          omega
        · rename_i outcome houtcome
          have hprogram := w.sizes_program_le outcome.isCompleted
          simp only [load_cons, load_requests, Task.size]
          omega
  | _ =>
      simp only [unfold]
      repeat' split
      all_goals simp [Task.size, load_plain (plain_inChannels _ _), load_plain (plain_inPending _ _),
        load_plain (plain_inOpened _ _), load_plain (plain_forgetting _ _),
        load_plain (plain_generating _ _ _ _)]

end

/-! ### The end -/

section

variable {c c' : Chain codec} {t : Task codec}

/-- A step is made by the first thing to do. -/
theorem todo_of_step (h : c.step = some c') : ∃ t rest, c.todo = t :: rest ∧
    c'.factory = (unfold c.factory c.waiting t).1 ∧ c'.waiting = (unfold c.factory c.waiting t).2.1 ∧
    c'.todo = (unfold c.factory c.waiting t).2.2 ++ rest := by
  unfold Chain.step at h
  split at h
  · cases h
  · rename_i l rest htodo
    split at h
    · cases h
    · obtain rfl := Option.some.inj h
      exact ⟨_, _, htodo, rfl, rfl, rfl⟩
  · rename_i l rest htodo
    obtain rfl := Option.some.inj h
    exact ⟨_, _, htodo, rfl, rfl, rfl⟩
  · rename_i t rest hacquire hrelease htodo
    obtain rfl := Option.some.inj h
    exact ⟨_, _, htodo, rfl, rfl, rfl⟩

/-- What is left: requests, and the ranks of what is to be done. -/
def left (c : Chain codec) : Nat × Multiset Nat :=
  (load c.todo + waitingLoad c.waiting, ranks c.todo)

/-- Less is left. -/
def Less : Nat × Multiset Nat → Nat × Multiset Nat → Prop :=
  Prod.Lex (· < ·) (Relation.CutExpand (· < ·))

theorem wellFounded_less : WellFounded Less :=
  WellFounded.prod_lex wellFounded_lt wellFounded_lt.cutExpand

theorem ranks_unfold (f : Factory codec) (waiting : List Waiter) {n : Nat} (hrank : t.rank? = some n)
    (rest : List (Task codec)) :
    Relation.CutExpand (· < ·) (ranks ((unfold f waiting t).2.2 ++ rest)) (ranks (t :: rest)) := by
  refine ⟨ranks (unfold f waiting t).2.2, n, fun m hm => ?_, ?_⟩
  · obtain ⟨t', ht', hm⟩ := List.mem_filterMap.mp (Multiset.mem_coe.mp hm)
    exact below_unfold hrank t' ht' m hm
  · simp only [ranks, List.filterMap_append, List.filterMap_cons, hrank, ← Multiset.coe_add,
      ← Multiset.cons_coe, ← Multiset.singleton_add]
    ac_rfl

theorem less_of_step (h : c.step = some c') : Less c'.left c.left := by
  obtain ⟨t, rest, htodo, -, hwaiting, htodo'⟩ := todo_of_step h
  unfold left
  rw [htodo, htodo', hwaiting]
  cases hrank : t.rank? with
  | none =>
      -- A request gives way to fewer requests.
      cases t with
      | request r =>
          have hless := load_request c.factory r
          refine Prod.Lex.left _ _ ?_
          simp only [unfold, load_append, load_cons, Task.size]
          omega
      | _ => cases hrank
  | some n =>
      have hless := load_unfold c.factory c.waiting hrank
      have hranks := ranks_unfold c.factory c.waiting hrank rest
      rw [load_append, load_cons]
      generalize ranks ((unfold c.factory c.waiting t).2.2 ++ rest) = after at hranks ⊢
      -- A callback has two programs and runs one of them: then fewer requests are left. Otherwise it is
      -- the ranks that go down.
      rcases Nat.lt_or_eq_of_le hless with hlt | heq
      · exact Prod.Lex.left _ _ (by omega)
      · have hsame : load (unfold c.factory c.waiting t).2.2 + load rest +
            waitingLoad (unfold c.factory c.waiting t).2.1 = t.size + load rest + waitingLoad c.waiting := by
          omega
        rw [hsame]
        exact Prod.Lex.right _ hranks

/-- A chain comes to an end. -/
theorem exists_end (c : Chain codec) : ∃ c', Goes c c' ∧ c'.step = none := by
  induction hleft : c.left using wellFounded_less.induction generalizing c with
  | _ _ ih =>
      cases hstep : c.step with
      | none => exact ⟨c, .refl, hstep⟩
      | some c₁ =>
          obtain ⟨c', hgoes, hend⟩ := ih _ (hleft ▸ less_of_step hstep) c₁ rfl
          exact ⟨c', .head hstep hgoes, hend⟩

end

end SpdySessions.Chain
