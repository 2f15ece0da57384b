import Mathlib.Logic.Relation
import SpdySessions.Proofs.Factory.Guards
import SpdySessions.Proofs.Factory.Steps

/-! No lock is taken twice but by a start or a stop within a stop. Locks are given back in the order
opposite to that in which they were taken, so what a chain holds when it comes to a task is known from
the tasks before it: a relation says it, one case for each task, and every step keeps it. The relation
says also that what is changed is changed under its lock. Callbacks run when nothing is held, or nothing
but the lock of a stop. -/

namespace SpdySessions.Chain

variable {codec : HeaderCodec}

/-! ### Callbacks that leave starts and stops alone -/

mutual

/-- Nothing that is to be done during a stop is a start or a stop: neither what is asked for then, nor
what a callback does that is told then that there is no session. -/
def Request.isTame (inside : Bool) : Request → Bool
  | .start _ => !inside
  | .stop => !inside
  | .onComplete _ delivered refused => areTame inside delivered && areTame true refused
  | .sessions => true
  | .isRunning => true
  | .connect _ _ _ _ => true
  | .cancel _ => true
  | .tryResult _ => true
  | .call _ _ => true

def areTame (inside : Bool) : List Request → Bool
  | [] => true
  | r :: rest => r.isTame inside && areTame inside rest

end

mutual

theorem Request.isTame_of_inside {inside : Bool} :
    ∀ r : Request, r.isTame true = true → r.isTame inside = true
  | .start _, h => by simp [Request.isTame] at h
  | .stop, h => by simp [Request.isTame] at h
  | .onComplete _ delivered refused, h => by
      simp only [Request.isTame, Bool.and_eq_true] at h ⊢
      exact ⟨areTame_of_inside delivered h.1, h.2⟩
  | .sessions, _ => rfl
  | .isRunning, _ => rfl
  | .connect _ _ _ _, _ => rfl
  | .cancel _, _ => rfl
  | .tryResult _, _ => rfl
  | .call _ _, _ => rfl

theorem areTame_of_inside {inside : Bool} :
    ∀ rs : List Request, areTame true rs = true → areTame inside rs = true
  | [], _ => rfl
  | r :: rest, h => by
      simp only [areTame, Bool.and_eq_true] at h ⊢
      exact ⟨r.isTame_of_inside h.1, areTame_of_inside rest h.2⟩

end

/-- What a callback does with a session it does when nothing is held; being told that there is none, it may
be in the middle of a stop. -/
def Waiter.isTame (w : Waiter) : Bool :=
  areTame false w.delivered && areTame true w.refused

/-! ### What is held -/

/-- What may be held when a callback runs. -/
def Base (held : List Lock) : Prop :=
  held = [] ∨ held = [.lifecycle]

section

variable {calm : Prop} {held mid held' : List Lock} {l : Lock} {t : Task codec}
  {rest ts ts' : List (Task codec)} {run client : Nat} {peer : Address} {listener : Session.Listener}
  {id : ChannelId} {outcome : Outcome SessionId} {w : Waiter} {waiting : List Waiter}
  {f : Factory codec}

/-- What is held when a task begins, and what is held when it is over. If things are calm, callbacks are
tame. -/
inductive Fits (calm : Prop) : Task codec → List Lock → List Lock → Prop
  | request {r : Request} {held : List Lock} (hbase : Base held)
      (htame : calm → r.isTame (!held.isEmpty) = true) : Fits calm (.request r) held held
  | begin {executor : Except Fault Unit} : Fits calm (.begin executor) [.lifecycle] [.lifecycle]
  | halt : Fits calm .halt [.lifecycle] [.lifecycle]
  | retire : Fits calm .retire [.sessions, .lifecycle] [.sessions, .lifecycle]
  | farewell {session : SessionId} :
      Fits calm (.farewell session) [.sessions, .lifecycle] [.sessions, .lifecycle]
  | dismantle : Fits calm .dismantle [.running, .lifecycle] [.lifecycle]
  | takeDown {component : Component} {held : List Lock} (hbase : Base held) :
      Fits calm (.takeDown component) held held
  | closeBooks {run : Nat} {held : List Lock} (hbase : Base held) :
      Fits calm (.closeBooks run) (.registration run :: held) held
  | enroll {run client : Nat} {peer : Address} {listener : Session.Listener} {held : List Lock}
      (hbase : Base held) :
      Fits calm (.enroll run client peer listener) (.registration run :: held) held
  | settle {id : ChannelId} {outcome : Outcome SessionId} {held : List Lock} (hbase : Base held)
      (hnone : outcome.isCompleted = false) : Fits calm (.settle id outcome) held held
  | decide {id : ChannelId} {outcome : Outcome SessionId} {held : List Lock} (hbase : Base held)
      (hnone : outcome.isCompleted = false) : Fits calm (.decide id outcome) (.slot id :: held) held
  | enlist {w : Waiter} {held : List Lock} (hbase : Base held)
      (htame : calm → areTame (!held.isEmpty) w.delivered = true ∧ areTame true w.refused = true) :
      Fits calm (.enlist w) (.slot w.id :: held) held
  | call {id : ChannelId} {c : Session.Call} {held : List Lock}
      (hfree : ∀ l ∈ held, l = .sessions ∨ l = .lifecycle) : Fits calm (.call id c) held held
  | deliver {id : ChannelId} : Fits calm (.deliver id) [] []
  | enter {id : ChannelId} {session : Session codec} : Fits calm (.enter id session) [.sessions] []
  | hand {id : ChannelId} {session : Session codec} : Fits calm (.hand id session) [.slot id] []
  | abort {id : ChannelId} {cause : Fault} : Fits calm (.abort id cause) [] []
  | finish {id : ChannelId} : Fits calm (.finish id) [] []

/-- What is held before some tasks, and what is held after them; what is changed is guarded. Within a
stop a start or a stop may ask for the lock of the lifecycle, unless things are calm; that is as far as
it gets. -/
inductive Leads (calm : Prop) : List Lock → List (Task codec) → List Lock → Prop
  | nil {held : List Lock} : Leads calm held [] held
  | acquire {held held' : List Lock} {l : Lock} {rest : List (Task codec)} (hnew : l ∉ held)
      (h : Leads calm (l :: held) rest held') : Leads calm held (.acquire l :: rest) held'
  -- What is held in the end does not matter: nobody gets there.
  | again {held' : List Lock} {t : Task codec} {rest : List (Task codec)} (hnot : ¬calm)
      (hasks : t = .halt ∨ ∃ executor, t = .begin executor) :
      Leads calm [.lifecycle] (.acquire .lifecycle :: t :: rest) held'
  | release {held held' : List Lock} {l : Lock} {rest : List (Task codec)}
      (h : Leads calm held rest held') : Leads calm (l :: held) (.release l :: rest) held'
  | act {held held' : List Lock} {change : Factory codec → Factory codec} {rest : List (Task codec)}
      (hguarded : ∀ f, Guarded held f (change f)) (h : Leads calm held rest held') :
      Leads calm held (.act change :: rest) held'
  | task {held mid held' : List Lock} {t : Task codec} {rest : List (Task codec)}
      (hfits : Fits calm t held mid) (h : Leads calm mid rest held') : Leads calm held (t :: rest) held'

theorem Leads.append (h : Leads calm held ts mid) (h' : Leads calm mid ts' held') :
    Leads calm held (ts ++ ts') held' := by
  induction h with
  | nil => exact h'
  | acquire hnew _ ih => exact .acquire hnew (ih h')
  | again hnot hasks => exact .again hnot hasks
  | release _ ih => exact .release (ih h')
  | act hguarded _ ih => exact .act hguarded (ih h')
  | task hfits _ ih => exact .task hfits (ih h')

theorem leads_within (hnew : l ∉ held) (h : Leads calm (l :: held) ts (l :: held)) :
    Leads calm held (within l ts) held :=
  .acquire hnew (h.append (.release .nil))

theorem leads_brief (hnew : l ∉ held) : Leads calm held (within l ([] : List (Task codec))) held :=
  leads_within hnew .nil

theorem leads_act {change : Factory codec → Factory codec} (h : ∀ f, Guarded held f (change f)) :
    Leads calm held [.act change] held :=
  .act h .nil

theorem leads_inChannels (hnew : .channels run ∉ held) (change : List ChannelId → List ChannelId) :
    Leads calm held (inChannels run change : List (Task codec)) held :=
  leads_within hnew (leads_act fun _ => guarded_modifyConnector fun _ =>
    ⟨.inr rfl, .inl List.mem_cons_self, .inr rfl, .inr rfl⟩)

theorem leads_inPending (hnew : .pending run ∉ held) (change : List ChannelId → List ChannelId) :
    Leads calm held (inPending run change : List (Task codec)) held :=
  leads_within hnew (leads_act fun _ => guarded_modifyConnector fun _ =>
    ⟨.inr rfl, .inr rfl, .inl List.mem_cons_self, .inr rfl⟩)

theorem leads_inOpened (hnew : .opened run ∉ held) (change : List ChannelId → List ChannelId) :
    Leads calm held (inOpened run change : List (Task codec)) held :=
  leads_within hnew (leads_act fun _ => guarded_modifyConnector fun _ =>
    ⟨.inr rfl, .inr rfl, .inr rfl, .inl List.mem_cons_self⟩)

theorem leads_map {α : Type} {g : α → Task codec} (xs : List α)
    (h : ∀ x, Leads calm held [g x] held) : Leads calm held (xs.map g) held := by
  induction xs with
  | nil => exact .nil
  | cons x xs ih => exact (h x).append ih

theorem Base.not_mem (h : Base held) (hne : l ≠ .lifecycle) : l ∉ held := by
  rcases h with rfl | rfl
  · exact List.not_mem_nil
  · rwa [List.mem_singleton]

/-- During a registration nothing else is held either. -/
theorem Base.not_mem_registration (h : Base held) (hregistration : l ≠ .registration run)
    (hlifecycle : l ≠ .lifecycle) : l ∉ .registration run :: held :=
  List.not_mem_cons_of_ne_of_not_mem hregistration (h.not_mem hlifecycle)

/-! ### What a task leads to -/

/-- The callbacks that wait are tame, if things are calm. -/
def Waits (calm : Prop) (waiting : List Waiter) : Prop :=
  calm → ∀ w ∈ waiting, w.isTame = true

theorem leads_requests {rs : List Request} (hbase : Base held)
    (htame : calm → areTame (!held.isEmpty) rs = true) :
    Leads calm held (rs.map .request : List (Task codec)) held := by
  induction rs with
  | nil => exact .nil
  | cons r rest ih =>
      simp only [areTame, Bool.and_eq_true] at htame
      exact .task (.request hbase fun hcalm => (htame hcalm).1) (ih fun hcalm => (htame hcalm).2)

/-- Callbacks that hear of a session run when nothing is held, the others within a stop perhaps. -/
theorem leads_programs (hwaits : Waits calm waiting) (hbase : Base held) {completed : Bool}
    (hheld : completed = true → held = []) (id : ChannelId) :
    Leads calm held (programsOf waiting id completed : List (Task codec)) held := by
  unfold programsOf
  induction waiting with
  | nil => exact .nil
  | cons w waiting ih =>
      have hrest := ih fun hcalm w' hw' => hwaits hcalm w' (List.mem_cons_of_mem w hw')
      rw [List.filter_cons]
      split
      · rw [List.flatMap_cons]
        refine (leads_requests hbase fun hcalm => ?_).append hrest
        have htame := hwaits hcalm w List.mem_cons_self
        simp only [Waiter.isTame, Bool.and_eq_true] at htame
        cases completed with
        | true =>
            rw [hheld rfl]
            exact htame.1
        | false => exact areTame_of_inside _ htame.2
      · exact hrest

theorem leads_generating (hfree : ∀ l ∈ held, l = .sessions ∨ l = .lifecycle)
    {change : Factory codec → Factory codec} (hwrites : Writes id change) (e : Endpoint codec)
    (frame : Frame) :
    Leads calm held (generating id e frame change) held := by
  refine leads_within (fun hmem => ?_) ?_
  · rcases hfree _ hmem with h | h <;> cases h
  · split
    · refine leads_within (fun hmem => ?_) (leads_act fun f => ?_)
      · rcases List.mem_cons.mp hmem with h | hmem
        · cases h
        · rcases hfree _ hmem with h | h <;> cases h
      · exact hwrites.guarded (List.mem_cons_of_mem _ List.mem_cons_self) List.mem_cons_self f
    · exact leads_act fun f => hwrites.guarded_keeping List.mem_cons_self f

theorem leads_forgetting (hchannels : .channels run ∉ held) (hpending : .pending run ∉ held)
    (hopened : .opened run ∉ held) (id : ChannelId) :
    Leads calm held (forgetting run id : List (Task codec)) held :=
  ((leads_inChannels hchannels _).append (leads_inPending hpending _)).append (leads_inOpened hopened _)

theorem leads_request {r : Request} (hbase : Base held)
    (htame : calm → r.isTame (!held.isEmpty) = true) : Leads calm held (r.tasks f) held := by
  have hslot : ∀ id, .slot id ∉ held := fun id => hbase.not_mem nofun
  -- A start or a stop asks for the lock of the lifecycle, which is held if this is within a stop.
  have hlocked : ∀ t : Task codec, t = .halt ∨ (∃ executor, t = .begin executor) →
      (calm → held = []) → (∀ held, held = [.lifecycle] → Fits calm t held held) →
      Leads calm held (within .lifecycle [t]) held := by
    intro t hasks hcalm hfits
    rcases hbase with rfl | rfl
    · exact leads_within List.not_mem_nil (.task (hfits _ rfl) .nil)
    · exact .again (fun h => by cases hcalm h) hasks
  have hempty : (!held.isEmpty) = false → held = [] := by cases held <;> simp
  cases r with
  | start executor =>
      refine hlocked _ (Or.inr ⟨executor, rfl⟩) (fun h => hempty ?_) fun held hheld => hheld ▸ .begin
      simpa [Request.isTame] using htame h
  | stop =>
      refine hlocked _ (Or.inl rfl) (fun h => hempty ?_) fun held hheld => hheld ▸ .halt
      simpa [Request.isTame] using htame h
  | sessions => exact leads_brief (hbase.not_mem nofun)
  | isRunning => exact .nil
  | connect client peer listener socket =>
      have hregistration : .registration f.latestRun ∉ held := hbase.not_mem nofun
      have hrunning : Leads calm held (within .running ([] : List (Task codec))) held :=
        leads_brief (hbase.not_mem nofun)
      simp only [Request.tasks]
      split
      · cases socket with
        | error fault => exact hrunning.append .nil
        | ok _ => exact hrunning.append (.acquire hregistration (.task (.enroll hbase) .nil))
      · exact .nil
  | cancel id =>
      refine .task (.settle hbase rfl) ((leads_brief (hslot id)).append (leads_act fun f => ?_))
      split
      · exact .refl f
      · exact guarded_close f id
  | onComplete id delivered refused =>
      refine .acquire (hslot id) (.task (.enlist hbase fun hcalm => ?_) .nil)
      simpa [Request.isTame] using htame hcalm
  | tryResult id => exact leads_brief (hslot id)
  | call id c =>
      refine .task (.call fun l hl => ?_) .nil
      rcases hbase with rfl | rfl
      · cases hl
      · exact Or.inr (List.mem_singleton.mp hl)

theorem leads_begin (executor : Except Fault Unit) :
    Leads calm [.lifecycle] (unfold f waiting (.begin executor)).2.2 [.lifecycle] := by
  simp only [unfold]
  split
  · exact .nil
  · split
    · exact leads_act fun f => guarded_markStopped List.mem_cons_self f
    · refine leads_within (by simp) (leads_act fun f => guarded_start ?_ List.mem_cons_self f executor)
      exact List.mem_cons_of_mem _ List.mem_cons_self

theorem leads_halt : Leads calm [.lifecycle] (unfold f waiting .halt).2.2 [.lifecycle] := by
  simp only [unfold]
  split
  · refine (leads_within (by simp) (.task .retire .nil)).append (.acquire (by simp) ?_)
    exact .task .dismantle (leads_act fun f => guarded_markStopped List.mem_cons_self f)
  · exact .nil

theorem leads_takeDown (hbase : Base held) (component : Component) :
    Leads calm held (unfold f waiting (.takeDown component)).2.2 held := by
  simp only [unfold]
  split
  · exact .acquire (hbase.not_mem nofun) (.task (.closeBooks hbase) .nil)
  · refine leads_act fun f => guarded_modifyConnector fun c => ?_
    exact ⟨.inr rfl, .inr rfl, .inr rfl, .inr rfl⟩
  · exact leads_act fun f => guarded_of_eq rfl rfl rfl rfl rfl

/-- The books are closed while the registration is held; promises fail and channels close after that. -/
theorem leads_closeBooks (hbase : Base held) (run : Nat) :
    Leads calm (.registration run :: held) (unfold f waiting (.closeBooks run)).2.2 held := by
  simp only [unfold]
  split
  · exact .release .nil
  · rename_i c hc
    have hbooks : Leads calm (.registration run :: held)
        (inPending run (fun _ => []) ++ inChannels run (fun _ => []) ++
          inOpened run (fun _ => []) : List (Task codec)) (.registration run :: held) :=
      ((leads_inPending (hbase.not_mem_registration nofun nofun) _).append
        (leads_inChannels (hbase.not_mem_registration nofun nofun) _)).append
        (leads_inOpened (hbase.not_mem_registration nofun nofun) _)
    have hfailing : Leads calm held
        (c.pending.map (.settle · (.failed .notRunning)) : List (Task codec)) held :=
      leads_map _ fun id => .task (.settle hbase rfl) .nil
    have hclosing : Leads calm held
        (c.channels.map fun id => .act fun f => (f.close id).2 : List (Task codec)) held :=
      leads_map _ fun id => leads_act fun f => guarded_close f id
    refine .act (fun f => guarded_modifyConnector fun c => ?_) ?_
    · exact ⟨.inl List.mem_cons_self, .inr rfl, .inr rfl, .inr rfl⟩
    · exact ((hbooks.append (.release .nil)).append hfailing).append hclosing

theorem leads_enroll (hbase : Base held) (run client : Nat) (peer : Address)
    (listener : Session.Listener) :
    Leads calm (.registration run :: held) (unfold f waiting (.enroll run client peer listener)).2.2 held := by
  have hchannels : .channels run ∉ .registration run :: held := hbase.not_mem_registration nofun nofun
  have hpending : .pending run ∉ .registration run :: held := hbase.not_mem_registration nofun nofun
  have hopened : .opened run ∉ .registration run :: held := hbase.not_mem_registration nofun nofun
  simp only [unfold]
  split
  · exact .release (leads_act fun f => guarded_append _)
  · refine ((leads_inChannels hchannels _).append (leads_inPending hpending _)).append ?_
    split
    · exact .act (fun f => guarded_append _) (.release .nil)
    · refine (leads_forgetting hchannels hpending hopened _).append ?_
      exact .release (leads_act fun f => guarded_append _)

/-- An outcome that is no session is given by somebody who may be in a stop. -/
theorem leads_decide (hwaits : Waits calm waiting) (hbase : Base held)
    (hnone : outcome.isCompleted = false) (id : ChannelId) :
    Leads calm (.slot id :: held) (unfold f waiting (.decide id outcome)).2.2 held := by
  simp only [unfold]
  split
  · exact .release .nil
  · refine .release (leads_programs hwaits hbase (fun hcompleted => ?_) _)
    cases hcompleted.symm.trans hnone

theorem leads_enlist (hbase : Base held)
    (htame : calm → areTame (!held.isEmpty) w.delivered = true ∧ areTame true w.refused = true) :
    Leads calm (.slot w.id :: held) (unfold f waiting (.enlist w)).2.2 held := by
  simp only [unfold]
  split
  · exact .release .nil
  · split
    · exact .release .nil
    · refine .release (leads_requests hbase fun hcalm => ?_)
      obtain ⟨hdelivered, hrefused⟩ := htame hcalm
      unfold Waiter.program
      split
      · exact hdelivered
      · exact areTame_of_inside _ hrefused

theorem leads_call (hfree : ∀ l ∈ held, l = .sessions ∨ l = .lifecycle) (id : ChannelId)
    (c : Session.Call) : Leads calm held (unfold f waiting (.call id c)).2.2 held := by
  simp only [unfold]
  split
  · exact .nil
  · split
    · exact leads_generating hfree (writes_call id c) _ _
    · split
      · exact leads_act fun f => guarded_close f id
      · exact .nil

/-- Whoever hands a session over holds nothing when the callbacks run. -/
theorem leads_hand (hwaits : Waits calm waiting) (id : ChannelId) (session : Session codec) :
    Leads calm [.slot id] (unfold f waiting (.hand id session)).2.2 [] := by
  simp only [unfold]
  split
  · exact .release .nil
  · rename_i a ha
    split
    · refine .release ((leads_within List.not_mem_nil (leads_act fun f => ?_)).append ?_)
      · exact guarded_sessionClosed List.mem_cons_self f _
      · exact .task .abort .nil
    · have hprograms : Leads calm [] (programsOf waiting id true : List (Task codec)) [] :=
        leads_programs hwaits (Or.inl rfl) (fun _ => rfl) id
      have hpending : Leads calm [] (inPending a.run (Connector.strike id) : List (Task codec)) [] :=
        leads_inPending List.not_mem_nil _
      have hopened : Leads calm [] (inOpened a.run (Connector.enter id) : List (Task codec)) [] :=
        leads_inOpened List.not_mem_nil _
      refine (((Leads.release hprograms).append hpending).append hopened).append ?_
      exact leads_act fun f => guarded_modify fun a _ => ⟨.inr rfl, .inr fun _ => rfl⟩

theorem leads_finish (id : ChannelId) : Leads calm [] (unfold f waiting (.finish id)).2.2 [] := by
  simp only [unfold]
  refine .act (fun f => ?_) (Leads.append ?_ (leads_act fun f => ?_))
  · have hclose : Guarded [] f (f.close id).2 := guarded_close f id
    exact ⟨hclose.lifecycle, hclose.components, hclose.sessions, hclose.pool, hclose.connector,
      hclose.attempt⟩
  · cases f.attempts[id]? with
    | none => exact .nil
    | some a => exact leads_forgetting List.not_mem_nil List.not_mem_nil List.not_mem_nil id
  · exact guarded_modify fun a _ => ⟨.inr rfl, .inr fun _ => rfl⟩

/-- What a task unfolds to takes and gives back what the task does. -/
theorem leads_unfold (hfits : Fits calm t held mid) (hwaits : Waits calm waiting) :
    Leads calm held (unfold f waiting t).2.2 mid := by
  cases hfits with
  | request hbase htame => exact leads_request hbase htame
  | begin => exact leads_begin _
  | halt => exact leads_halt
  | retire =>
      refine (leads_map _ fun session => .task .farewell .nil).append (leads_act fun f => ?_)
      exact guarded_sessions List.mem_cons_self []
  | @farewell session =>
      simp only [unfold]
      cases f.holder? session with
      | none => exact .nil
      | some id =>
          refine .task (.call fun l hl => ?_) .nil
          simpa using hl
  | dismantle => exact .release (leads_map _ fun component => .task (.takeDown (Or.inr rfl)) .nil)
  | takeDown hbase => exact leads_takeDown hbase _
  | closeBooks hbase => exact leads_closeBooks hbase _
  | enroll hbase => exact leads_enroll hbase _ _ _ _
  | settle hbase hnone => exact .acquire (hbase.not_mem nofun) (.task (.decide hbase hnone) .nil)
  | decide hbase hnone => exact leads_decide hwaits hbase hnone _
  | enlist hbase htame => exact leads_enlist hbase htame
  | call hfree => exact leads_call hfree _ _
  | deliver =>
      simp only [unfold]
      split
      · exact .nil
      · exact .acquire List.not_mem_nil (.task .enter .nil)
  | enter =>
      simp only [unfold]
      refine .release ?_
      split
      · exact .acquire List.not_mem_nil (.task .hand .nil)
      · exact .task .abort .nil
  | hand => exact leads_hand hwaits _ _
  | abort => exact .task (.settle (Or.inl rfl) rfl) (.task .finish .nil)
  | finish => exact leads_finish _

/-- Callbacks that come to wait are as tame as those that did. -/
theorem waits_unfold (hfits : Fits calm t held mid) (hwaits : Waits calm waiting) :
    Waits calm (unfold f waiting t).2.1 := by
  have hfilter : ∀ p, Waits calm (waiting.filter p) := fun p hcalm w hw =>
    hwaits hcalm w (List.mem_filter.mp hw).1
  cases hfits with
  | @enlist w _ hbase htame =>
      simp only [unfold]
      split
      · exact hwaits
      · split
        · intro hcalm w' hw'
          rcases List.mem_append.mp hw' with hw' | hw'
          · exact hwaits hcalm w' hw'
          · obtain rfl := List.mem_singleton.mp hw'
            obtain ⟨hdelivered, hrefused⟩ := htame hcalm
            simp only [Waiter.isTame, Bool.and_eq_true]
            refine ⟨?_, hrefused⟩
            cases hinside : !mid.isEmpty with
            | true => exact areTame_of_inside _ (hinside ▸ hdelivered)
            | false => exact hinside ▸ hdelivered
        · exact hwaits
  | decide hbase hnone =>
      simp only [unfold]
      split
      · exact hwaits
      · exact hfilter _
  | hand =>
      simp only [unfold]
      split
      · exact hwaits
      · split
        · exact hwaits
        · exact hfilter _
  | halt =>
      simp only [unfold]
      split <;> exact hwaits
  | deliver =>
      simp only [unfold]
      split <;> exact hwaits
  | _ => exact hwaits

/-- What a task does at once is guarded as well. -/
theorem guarded_unfold (hfits : Fits calm t held mid) : Guarded held f (unfold f waiting t).1 := by
  cases hfits with
  | halt =>
      simp only [unfold]
      split
      · exact guarded_lifecycle (.inl List.mem_cons_self) (.inr rfl)
      · exact .refl f
  | dismantle => exact guarded_lifecycle (.inr ⟨rfl, rfl⟩) (.inl List.mem_cons_self)
  | decide hbase hnone =>
      simp only [unfold]
      split
      · exact .refl f
      · exact guarded_refuse List.mem_cons_self f _
  | deliver =>
      simp only [unfold]
      split
      · exact .refl f
      · exact guarded_of_eq rfl rfl rfl rfl rfl
  | enter => exact guarded_sessionOpened List.mem_cons_self f _
  | hand =>
      simp only [unfold]
      split
      · exact .refl f
      · rename_i a ha
        split
        · exact .refl f
        · rename_i callbacks promise hsettle
          refine guarded_modify fun a' ha' => ⟨.inl List.mem_cons_self, .inr fun hdone => ?_⟩
          obtain rfl : a = a' := Option.some.inj (ha.symm.trans ha')
          rw [Promise.isDone, (Factory.of_settle? hsettle).1] at hdone
          cases hdone
  | enlist hbase htame =>
      simp only [unfold]
      split
      · exact .refl f
      · split <;> exact .refl f
  | _ => exact .refl f

/-- Whoever waits for a promise goes on waiting unless its slot is held. -/
theorem filter_unfold (hfits : Fits calm t held mid) {id : ChannelId} (hslot : .slot id ∉ held) :
    (unfold f waiting t).2.1.filter (·.id = id) = waiting.filter (·.id = id) := by
  have hothers : ∀ id', id' ≠ id →
      (waiting.filter (·.id ≠ id')).filter (·.id = id) = waiting.filter (·.id = id) := by
    intro id' hne
    rw [List.filter_filter]
    refine List.filter_congr fun w _ => ?_
    by_cases hw : w.id = id
    · simp [hw, hne.symm]
    · simp [hw]
  cases hfits with
  | halt =>
      simp only [unfold]
      split <;> rfl
  | @decide id' outcome _ hbase hnone =>
      simp only [unfold]
      split
      · rfl
      · exact hothers id' fun hid => hslot (hid ▸ List.mem_cons_self)
  | @enlist w _ hbase htame =>
      simp only [unfold]
      split
      · rfl
      · split
        · have hne : w.id ≠ id := fun hid => hslot (hid ▸ List.mem_cons_self)
          simp [List.filter_append, hne]
        · rfl
  | deliver =>
      simp only [unfold]
      split <;> rfl
  | @hand id' session =>
      simp only [unfold]
      split
      · rfl
      · split
        · rfl
        · exact hothers id' fun hid => hslot (hid ▸ List.mem_cons_self)
  | _ => rfl

/-! ### Steps -/

/-- What a chain has left to do gives back what it holds. -/
structure Sound (calm : Prop) (c : Chain codec) : Prop where
  leads : Leads calm c.held c.todo []
  waits : Waits calm c.waiting

/-- One chain becomes the other, step by step. -/
def Goes : Chain codec → Chain codec → Prop :=
  Relation.ReflTransGen fun c c' => c.step = some c'

variable {c c' : Chain codec}

theorem Fits.step (hfits : Fits calm t held mid) (htodo : c.todo = t :: rest) :
    c.step = some { c with
      factory := (unfold c.factory c.waiting t).1
      waiting := (unfold c.factory c.waiting t).2.1
      todo := (unfold c.factory c.waiting t).2.2 ++ rest } := by
  simp only [Chain.step, htodo]
  cases hfits <;> rfl

/-- A step keeps the rest sound, and the lock is held of whatever it changes. -/
theorem Sound.step (h : c.Sound calm) (hstep : c.step = some c') :
    c'.Sound calm ∧ Guarded c.held c.factory c'.factory ∧
      ∀ id, .slot id ∉ c.held → c'.waiting.filter (·.id = id) = c.waiting.filter (·.id = id) := by
  obtain ⟨hleads, hwaits⟩ := h
  generalize htodo : c.todo = todo at hleads
  generalize hheld : c.held = held at hleads ⊢
  generalize hend : ([] : List Lock) = last at hleads
  cases hleads with
  | nil =>
      rw [Chain.step, htodo] at hstep
      cases hstep
  | acquire hnew hrest =>
      simp only [Chain.step, htodo, hheld, if_neg hnew] at hstep
      obtain rfl := Option.some.inj hstep
      exact ⟨⟨hend ▸ hrest, hwaits⟩, .refl _, fun _ _ => rfl⟩
  | again hnot hasks =>
      -- The lock is held, so there is no step.
      simp only [Chain.step, htodo, hheld, List.mem_singleton, if_true] at hstep
      cases hstep
  | release hrest =>
      simp only [Chain.step, htodo, hheld] at hstep
      obtain rfl := Option.some.inj hstep
      refine ⟨⟨?_, hwaits⟩, .refl _, fun _ _ => rfl⟩
      rw [List.erase_cons_head]
      exact hend ▸ hrest
  | act hguarded hrest =>
      simp only [Chain.step, htodo] at hstep
      obtain rfl := Option.some.inj hstep
      exact ⟨⟨hheld ▸ hend ▸ hrest, hwaits⟩, hguarded _, fun _ _ => rfl⟩
  | task hfits hrest =>
      rw [hfits.step htodo] at hstep
      obtain rfl := Option.some.inj hstep
      refine ⟨⟨?_, waits_unfold hfits hwaits⟩, guarded_unfold hfits, fun _ => filter_unfold hfits⟩
      rw [hheld]
      exact (leads_unfold hfits hwaits).append (hend ▸ hrest)

theorem goes_advance (n : Nat) (c : Chain codec) : Goes c (c.advance n) := by
  induction n generalizing c with
  | zero => exact .refl
  | succ n ih =>
      unfold advance
      split
      · exact .refl
      · rename_i c' hstep
        exact .head hstep (ih c')

theorem Goes.sound (hgoes : Goes c c') (h : c.Sound calm) : c'.Sound calm := by
  induction hgoes with
  | refl => exact h
  | tail _ hstep ih => exact (ih.step hstep).1

/-- No lock is asked for while it is held. -/
def AsksOnce (c : Chain codec) : Prop :=
  ∀ c' l, Goes c c' → c'.asks? = some l → l ∉ c'.held

/-- A start or a stop asks for the lock of the stop that runs the callback it comes from. -/
def AsksAgain (c : Chain codec) : Prop :=
  c.held = [.lifecycle] ∧ ∃ t rest, c.todo = .acquire .lifecycle :: t :: rest ∧
    (t = .halt ∨ ∃ executor, t = .begin executor)

theorem Sound.asksAgain (h : c.Sound calm) (hasks : c.asks? = some l) (hheld : l ∈ c.held) :
    ¬calm ∧ c.AsksAgain := by
  obtain ⟨hleads, -⟩ := h
  unfold AsksAgain
  unfold asks? at hasks
  generalize c.todo = todo at hleads hasks
  generalize c.held = held at hleads hheld
  cases hleads with
  | nil => cases hasks
  | acquire hnew _ =>
      obtain rfl := Option.some.inj hasks
      exact absurd hheld hnew
  | again hnot hstop => exact ⟨hnot, rfl, _, _, rfl, hstop⟩
  | release _ => cases hasks
  | act _ _ => cases hasks
  | task hfits _ => cases hfits <;> cases hasks

theorem AsksAgain.step (h : c.AsksAgain) : c.step = none := by
  obtain ⟨hheld, t, rest, htodo, -⟩ := h
  simp [Chain.step, htodo, hheld]

/-- Where there is no step, there is nothing left to do, or a lock is asked for that is held. -/
theorem asks_of_step (h : c.step = none) : c.todo = [] ∨ ∃ l ∈ c.held, c.asks? = some l := by
  unfold Chain.step at h
  split at h
  · rename_i htodo
    exact Or.inl htodo
  · rename_i l rest htodo
    split at h
    · rename_i hheld
      exact Or.inr ⟨l, hheld, by rw [asks?, htodo]⟩
    · cases h
  · cases h
  · cases h

/-- In the end everything has been given back, or the chain waits for itself. -/
theorem Sound.over (h : c.Sound calm) (hstep : c.step = none) :
    c.todo = [] ∧ c.held = [] ∨ ¬calm ∧ c.AsksAgain := by
  rcases asks_of_step hstep with htodo | ⟨l, hheld, hasks⟩
  · refine Or.inl ⟨htodo, ?_⟩
    have hleads := h.leads
    rw [htodo] at hleads
    generalize c.held = held at hleads
    generalize hend : ([] : List Lock) = last at hleads
    cases hleads with
    | nil => rfl
  · exact Or.inr (h.asksAgain hasks hheld)

theorem Sound.request (h : c.Sound calm) {r : Request} (htodo : c.todo = .request r :: rest) :
    c.held = [] ∨ c.held = [.lifecycle] := by
  have hleads := h.leads
  rw [htodo] at hleads
  generalize c.held = held at hleads ⊢
  cases hleads with
  | task hfits _ =>
      cases hfits with
      | request hbase _ => exact hbase

end

end SpdySessions.Chain
