import SpdySessions.Proofs.Factory.Beside
import SpdySessions.Proofs.Past

/-! The set of open sessions, shared by threads. Whoever enters or strikes a session holds the lock of
the set and looks at the lifecycle first, which another thread may change in between: that one holds
another lock. What keeps a late entry out is the order in which a stop does things. It marks the factory
before it takes the lock of the set, so whoever has seen the factory running is gone by the time the
sessions say farewell, and whoever comes later sees that it is not. -/

namespace SpdySessions.Factory

variable {codec : HeaderCodec} {f : Factory codec}

/-! ### The calls of a drain -/

/-- Somebody has the session. -/
def Held (f : Factory codec) (session : SessionId) : Prop :=
  (f.holder? session).isSome = true

instance (f : Factory codec) (session : SessionId) : Decidable (f.Held session) :=
  inferInstanceAs (Decidable ((f.holder? session).isSome = true))

/-- A farewell that tells which session was called. Nobody is, if nobody has it. -/
def farewellTo (f : Factory codec) (session : SessionId) : List SessionId × Factory codec :=
  match f.holder? session with
  | none => ([], f)
  | some id =>
      match f.call id .goAway with
      | (none, f) => ([], f)
      | (some _, f) => ([session], f)

/-- Farewells one after the other, with all the sessions that were called. -/
def farewellsTo (f : Factory codec) : List SessionId → List SessionId × Factory codec
  | [] => ([], f)
  | session :: rest =>
      let (called, f) := f.farewellTo session
      let (others, f) := f.farewellsTo rest
      (called ++ others, f)

/-- What `retire` does, with the sessions that it calls. -/
def retireCalling (f : Factory codec) : List SessionId × Factory codec :=
  let (called, f') := f.farewellsTo f.sessions
  (called, { f' with sessions := [] })

/-- Whoever has the session has an end of a connection to call. -/
theorem farewellTo_eq (f : Factory codec) (session : SessionId) :
    f.farewellTo session =
      (if (f.holder? session).isSome then [session] else [], f.farewell session) := by
  unfold farewellTo farewell
  cases hholder : f.holder? session with
  | none => rfl
  | some id =>
      obtain ⟨a, ha, hsession⟩ := session?_of_holder? hholder
      obtain ⟨link, hlink, -⟩ := Option.map_eq_some_iff.mp hsession
      simp only [call, endpoint?, ha, hlink, Option.map_some]
      rfl

theorem farewellsTo_eq (f : Factory codec) (sessions : List SessionId) :
    f.farewellsTo sessions =
      (sessions.filter fun session => (f.holder? session).isSome, sessions.foldl farewell f) := by
  induction sessions generalizing f with
  | nil => rfl
  | cons session rest ih =>
      have hrest := ih (f.farewell session)
      simp only [holder?_farewell] at hrest
      simp only [farewellsTo, farewellTo_eq, hrest, List.filter_cons, List.foldl_cons]
      split <;> rfl

/-- The calls are those of `retire`, and every session is called that somebody has. -/
theorem retireCalling_eq (f : Factory codec) :
    f.retireCalling = (f.sessions.filter fun session => (f.holder? session).isSome, f.retire) := by
  rw [retireCalling, farewellsTo_eq]
  rfl

theorem retireCalling_of_held (h : ∀ session ∈ f.sessions, f.Held session) :
    f.retireCalling = (f.sessions, f.retire) := by
  rw [retireCalling_eq, List.filter_eq_self.mpr h]

/-- Whoever has a session of the set is asked for its farewell once. -/
theorem farewelled_of_mem (hnodup : f.sessions.Nodup) {session : SessionId} (hs : session ∈ f.sessions)
    (hheld : f.Held session) : ∃ (id : ChannelId) (a a' : Attempt codec),
    f.holder? session = some id ∧ f.attempts[id]? = some a ∧ a.session? = some session ∧
      f.retire.attempts[id]? = some a' ∧ a.Farewelled a' := by
  obtain ⟨id, hholder⟩ := Option.isSome_iff_exists.mp hheld
  obtain ⟨a, ha, hsession⟩ := session?_of_holder? hholder
  obtain ⟨a', ha', hcalled, -⟩ := attempts_farewells hnodup ha
  exact ⟨id, a, a', hholder, ha, hsession, ha', hcalled ⟨session, hs, hholder⟩⟩

/-- Everybody else is left alone. -/
theorem attempts_retire_of_not_held (hnodup : f.sessions.Nodup) {id : ChannelId} {a : Attempt codec}
    (ha : f.attempts[id]? = some a) (hnone : ∀ session ∈ f.sessions, f.holder? session ≠ some id) :
    f.retire.attempts[id]? = some a := by
  obtain ⟨a', ha', -, hleft⟩ := attempts_farewells hnodup ha
  exact hleft hnone ▸ ha'

/-- Nobody speaks to a session when the components are taken down. -/
theorem links_takeAllDown (f : Factory codec) :
    f.takeAllDown.2.attempts.map Attempt.link = f.attempts.map Attempt.link := by
  let part := fun f : Factory codec => f.attempts.map Attempt.link
  have hmodify : ∀ (f : Factory codec) (id : ChannelId) (change : Attempt codec → Attempt codec),
      (∀ a, (change a).link = a.link) → part (f.modify id change) = part f := by
    intro f id change hsame
    exact map_modify_same hsame id f.attempts
  have hpart : Outlasts part :=
    { connector := fun _ _ _ => rfl
      scheduler := fun _ _ => rfl
      fail := fun f id cause =>
        refuse_same part (fun f id _ _ _ => hmodify f id _ fun _ => rfl) f id (.failed cause)
      close := fun f id => hmodify f id _ fun _ => rfl }
  exact hpart.takeAllDown f

/-! ### Visits -/

/-- What is done with the set of open sessions. -/
inductive Visit where
  | opening (session : SessionId)
  | closing (session : SessionId)
  deriving DecidableEq

def visit (f : Factory codec) : Visit → Bool × Factory codec
  | .opening session => f.sessionOpened session
  | .closing session => f.sessionClosed session

/-- A visit by someone who has looked at the lifecycle some time ago. -/
def visitSeeing (f : Factory codec) (seen : Lifecycle) (v : Visit) : Bool × Factory codec :=
  let (reply, f') := visit { f with lifecycle := seen } v
  (reply, { f' with lifecycle := f.lifecycle })

/-- How far a thread has come that holds the lock of the lifecycle. -/
inductive Duty where
  | idle
  | starting
  /-- The factory takes nothing new; its sessions have not said farewell. -/
  | stopping
  | retired
  | down
  deriving DecidableEq

/-- A factory, who has the lock of its sessions and what that one has seen of the lifecycle, and what
the holder of the other lock is about. -/
structure Shared (codec : HeaderCodec) where
  factory : Factory codec
  visitor : Option (Visit × Lifecycle) := none
  duty : Duty := .idle

/-- What is remembered of the past. -/
inductive Mark where
  | started
  /-- A visit is over: whether it saw the factory running, and what it gave back. -/
  | visited (visit : Visit) (running reply : Bool)
  /-- These sessions were asked for their farewell. -/
  | retired (called : List SessionId)
  | stopped
  deriving DecidableEq

namespace Mark

def Retires (m : Mark) : Prop :=
  ∃ called, m = retired called

/-- The session is entered. -/
def Opens (session : SessionId) (m : Mark) : Prop :=
  m = visited (.opening session) true true

/-- The session is struck, if it was there. -/
def Closes (session : SessionId) (m : Mark) : Prop :=
  ∃ reply, m = visited (.closing session) true reply

end Mark

namespace Shared

/-- The session stands in the set, or is on its way into it. -/
def Expects (x : Shared codec) (session : SessionId) : Prop :=
  session ∈ x.factory.sessions ∨ ∃ seen, x.visitor = some (.opening session, seen)

/-- What a thread does between two moments at which another one may come in. Besides the set anything may
happen to a factory, as long as nobody is taken a session that is expected. Whoever enters a session has
it: it is there before it is opened. -/
inductive Move (x : Shared codec) : List Mark → Shared codec → Prop
  | aside {f' : Factory codec} (hrunning : f'.isRunning = x.factory.isRunning)
      (hsessions : f'.sessions = x.factory.sessions)
      (hheld : ∀ s, x.Expects s → x.factory.Held s → f'.Held s) : Move x [] { x with factory := f' }
  | enter (v : Visit) (hfree : x.visitor = none) (hheld : ∀ s, v = .opening s → x.factory.Held s) :
      Move x [] { x with visitor := some (v, x.factory.lifecycle) }
  | leave {v : Visit} {seen : Lifecycle} (h : x.visitor = some (v, seen)) :
      Move x [.visited v seen.isRunning (x.factory.visitSeeing seen v).1]
        { x with factory := (x.factory.visitSeeing seen v).2, visitor := none }
  | startRunning (executor : Except Fault Unit) (hduty : x.duty = .idle)
      (hrunning : x.factory.isRunning = true) :
      Move x [] { x with factory := (x.factory.start executor).2 }
  | markStarting (hduty : x.duty = .idle) (hrunning : x.factory.isRunning = false) :
      Move x [] { x with
        factory := { x.factory with lifecycle := x.factory.lifecycle.markStarting }
        duty := .starting }
  | started {executor : Except Fault Unit} {made : List Component} {f' : Factory codec}
      (hduty : x.duty = .starting) (h : x.factory.start executor = (.ok made, f')) :
      Move x [.started] { x with factory := f', duty := .idle }
  | notStarted {executor : Except Fault Unit} {fault : Fault} {f' : Factory codec}
      (hduty : x.duty = .starting) (h : x.factory.start executor = (.error fault, f')) :
      Move x [] { x with factory := f', duty := .idle }
  | stopIdle (hduty : x.duty = .idle) (hrunning : x.factory.isRunning = false) :
      Move x [] { x with factory := x.factory.stop.2 }
  | markStopping (hduty : x.duty = .idle) (hrunning : x.factory.isRunning = true) :
      Move x [] { x with factory := x.factory.markStopping, duty := .stopping }
  | retire (hduty : x.duty = .stopping) (hfree : x.visitor = none) :
      Move x [.retired x.factory.retireCalling.1]
        { x with factory := x.factory.retireCalling.2, duty := .retired }
  | takeAllDown (hduty : x.duty = .retired) :
      Move x [] { x with factory := x.factory.takeAllDown.2, duty := .down }
  | markStopped (hduty : x.duty = .down) :
      Move x [.stopped] { x with factory := x.factory.markStopped, duty := .idle }

/-- Moves of any threads one after the other, with what is remembered of them. -/
inductive Run (x₀ : Shared codec) : List Mark → Shared codec → Prop
  | refl : Run x₀ [] x₀
  | move {marks new : List Mark} {x x' : Shared codec} (h : Run x₀ marks x) (hmove : Move x new x') :
      Run x₀ (marks ++ new) x'

/-! ### The past -/

/-- There was a mark of one kind, and none of another kind after it. -/
def Since (marks : List Mark) (kind ended : Mark → Prop) : Prop :=
  ∃ before m after, marks = before ++ m :: after ∧ kind m ∧ ∀ later ∈ after, ¬ended later

/-- The session was entered after the last start, and not struck since. -/
def Accepted (marks : List Mark) (session : SessionId) : Prop :=
  Since marks (·.Opens session) fun m => m = .started ∨ m.Closes session

section

variable {marks before after : List Mark} {m m' : Mark} {kind ended : Mark → Prop}
  {session : SessionId}

theorem since_concat : Since (marks ++ [m]) kind ended ↔
    kind m ∨ (Since marks kind ended ∧ ¬ended m) := by
  constructor
  · rintro ⟨before, m', after, heq, hkind, hnone⟩
    rcases cut_concat heq with ⟨-, rfl⟩ | ⟨after', rfl, hmarks⟩
    · exact Or.inl hkind
    · refine Or.inr ⟨⟨before, m', after', hmarks, hkind, fun later hlater => ?_⟩, ?_⟩
      · exact hnone later (List.mem_append_left [m] hlater)
      · exact hnone m (by simp)
  · rintro (hkind | ⟨⟨before, m', after, rfl, hkind, hnone⟩, hm⟩)
    · exact ⟨marks, m, [], rfl, hkind, fun _ h => absurd h List.not_mem_nil⟩
    · refine ⟨before, m', after ++ [m], by simp, hkind, fun later hlater => ?_⟩
      rcases List.mem_append.mp hlater with hlater | hlater
      · exact hnone later hlater
      · exact List.mem_singleton.mp hlater ▸ hm

end

/-! ### What the moves do -/

section

variable {f f' : Factory codec} {s : SessionId} {seen : Lifecycle}

theorem visitSeeing_opening (f : Factory codec) (seen : Lifecycle) (s : SessionId) :
    f.visitSeeing seen (.opening s) = (seen.isRunning,
      if seen.isRunning then { f with sessions := Connector.enter s f.sessions } else f) := by
  have hrunning : isRunning { f with lifecycle := seen } = seen.isRunning := rfl
  unfold visitSeeing visit sessionOpened
  rw [hrunning]
  cases seen.isRunning <;> rfl

theorem visitSeeing_closing (f : Factory codec) (seen : Lifecycle) (s : SessionId) :
    f.visitSeeing seen (.closing s) = (seen.isRunning && f.sessions.contains s,
      if seen.isRunning then { f with sessions := f.sessions.filter (· ≠ s) } else f) := by
  have hrunning : isRunning { f with lifecycle := seen } = seen.isRunning := rfl
  unfold visitSeeing visit sessionClosed
  rw [hrunning]
  cases seen.isRunning <;> rfl

theorem mem_visitSeeing {v : Visit} (hs : s ∈ (f.visitSeeing seen v).2.sessions) :
    s ∈ f.sessions ∨ v = .opening s := by
  cases v with
  | opening s' =>
      rw [visitSeeing_opening] at hs
      split at hs
      · exact (Connector.mem_enter.mp hs).imp_right fun heq => congrArg _ heq.symm
      · exact Or.inl hs
  | closing s' =>
      rw [visitSeeing_closing] at hs
      split at hs
      · exact Or.inl (List.mem_filter.mp hs).1
      · exact Or.inl hs

theorem held_visitSeeing {v : Visit} : (f.visitSeeing seen v).2.Held s ↔ f.Held s := by
  cases v with
  | opening s' => rw [visitSeeing_opening]; split <;> exact Iff.rfl
  | closing s' => rw [visitSeeing_closing]; split <;> exact Iff.rfl

theorem held_start (executor : Except Fault Unit) : (f.start executor).2.Held s ↔ f.Held s := by
  have hattempts : (f.start executor).2.attempts = f.attempts := by
    unfold start
    split <;> rfl
  rw [Held, Held, holder?_congr (congrArg _ hattempts) s]

theorem held_takeAllDown : f.takeAllDown.2.Held s ↔ f.Held s := by
  have hsessions : f.takeAllDown.2.attempts.map Attempt.session? =
      f.attempts.map Attempt.session? := by
    have hlinks := congrArg (List.map (Option.map (·.session.id))) (links_takeAllDown f)
    rwa [List.map_map, List.map_map] at hlinks
  rw [Held, Held, holder?_congr hsessions s]

end

/-! ### The invariant -/

/-- Sessions may be entered, or are on their way into the set. -/
def Admits (x : Shared codec) : Prop :=
  x.factory.isRunning = true ∨ x.duty = .stopping

/-- The set is what the marks say, and somebody has each of its sessions. Whoever has seen the factory
running enters his session before the farewells, and those who were called were in the set. -/
structure Ordered (marks : List Mark) (x : Shared codec) : Prop where
  nodup : x.factory.sessions.Nodup
  held : ∀ s, x.Expects s → x.factory.Held s
  idle : x.factory.isRunning = true → x.duty = .idle
  seen : ∀ v seen, x.visitor = some (v, seen) → seen.isRunning = true → x.Admits
  empty : ¬x.Admits → x.factory.sessions = []
  members : x.Admits → ∀ s, s ∈ x.factory.sessions ↔ Accepted marks s
  undrained : x.Admits → ¬Since marks (fun m => m.Retires ∨ m = .stopped) (· = .started)
  replies : ∀ s running reply, .visited (.opening s) running reply ∈ marks → reply = running
  called : ∀ before called after, marks = before ++ .retired called :: after →
    called.Nodup ∧ (∀ s, s ∈ called ↔ Accepted before s) ∧
      ¬Since before (fun m => m.Retires ∨ m = .stopped) (· = .started)

section

variable {marks new : List Mark} {x x₀ x' : Shared codec}

/-- Most moves leave no mark; what they have to keep is who may enter, and the set. -/
theorem Ordered.silent (h : Ordered marks x) (hidle : x'.factory.isRunning = true → x'.duty = .idle)
    (hadmits : x'.Admits ↔ x.Admits) (hsessions : x'.factory.sessions = x.factory.sessions)
    (hseen : ∀ v seen, x'.visitor = some (v, seen) → seen.isRunning = true → x.Admits)
    (hheld : ∀ s, x'.Expects s → x'.factory.Held s) : Ordered marks x' where
  nodup := hsessions ▸ h.nodup
  held := hheld
  idle := hidle
  seen := fun v seen hv hrunning => hadmits.mpr (hseen v seen hv hrunning)
  empty := fun hnot => hsessions ▸ h.empty fun ha => hnot (hadmits.mpr ha)
  members := fun ha s => hsessions ▸ h.members (hadmits.mp ha) s
  undrained := fun ha => h.undrained (hadmits.mp ha)
  replies := h.replies
  called := h.called

/-- A mark that is no farewell leaves the past ones as they were. -/
theorem Ordered.called_concat (h : Ordered marks x) {m : Mark} (hm : ¬m.Retires) :
    ∀ before called after, marks ++ [m] = before ++ .retired called :: after →
      called.Nodup ∧ (∀ s, s ∈ called ↔ Accepted before s) ∧
        ¬Since before (fun m => m.Retires ∨ m = .stopped) (· = .started) := by
  intro before called after heq
  rcases cut_concat heq with ⟨-, rfl⟩ | ⟨after', -, hmarks⟩
  · exact absurd ⟨called, rfl⟩ hm
  · exact h.called before called after' hmarks

/-- Who holds the lock of the lifecycle for something else than a stop that has just begun. -/
theorem Ordered.not_admits (h : Ordered marks x) (hidle : x.duty ≠ .idle)
    (hstopping : x.duty ≠ .stopping) : ¬x.Admits := by
  rintro (hrunning | hstop)
  · exact hidle (h.idle hrunning)
  · exact hstopping hstop

/-- A visit ends. If it saw the factory running, the sessions have not said farewell since. -/
theorem Ordered.leave (h : Ordered marks x) {v : Visit} {seen : Lifecycle}
    (hv : x.visitor = some (v, seen)) :
    Ordered (marks ++ [.visited v seen.isRunning (x.factory.visitSeeing seen v).1])
      { x with factory := (x.factory.visitSeeing seen v).2, visitor := none } := by
  have hquiet : ∀ running reply, ¬Mark.Retires (.visited v running reply) := by
    rintro running reply ⟨called, heq⟩
    cases heq
  have hadmits : Admits { x with factory := (x.factory.visitSeeing seen v).2, visitor := none } ↔
      x.Admits := Iff.rfl
  have hentered : seen.isRunning = true → x.Admits := h.seen v seen hv
  refine
    { nodup := ?_, held := ?_, idle := h.idle, seen := ?_, empty := fun hnot => ?_,
      members := fun ha s => ?_, undrained := fun ha => ?_, replies := ?_,
      called := h.called_concat (hquiet _ _) }
  · cases v with
    | opening s =>
        rw [visitSeeing_opening]
        split
        · exact Connector.nodup_enter h.nodup s
        · exact h.nodup
    | closing s =>
        rw [visitSeeing_closing]
        split
        · exact h.nodup.filter _
        · exact h.nodup
  · rintro s (hs | ⟨seen', hnone⟩)
    · refine held_visitSeeing.mpr (h.held s ?_)
      rcases mem_visitSeeing hs with hs | rfl
      · exact Or.inl hs
      · exact Or.inr ⟨seen, hv⟩
    · cases hnone
  · intro v' seen' hv'
    cases hv'
  · have hnone : seen.isRunning = false := Bool.eq_false_iff.mpr fun hrunning => hnot (hentered hrunning)
    cases v with
    | opening s => simpa [visitSeeing_opening, hnone] using h.empty hnot
    | closing s => simpa [visitSeeing_closing, hnone] using h.empty hnot
  · rw [Accepted, since_concat, ← Accepted, ← h.members ha]
    cases v with
    | opening s' =>
        cases hseen : seen.isRunning <;>
          simp [visitSeeing_opening, hseen, Mark.Opens, Mark.Closes, Connector.mem_enter, eq_comm, or_comm]
    | closing s' =>
        cases hseen : seen.isRunning <;>
          simp [visitSeeing_closing, hseen, Mark.Opens, Mark.Closes, @eq_comm _ s' s]
  · rw [since_concat]
    rintro (hdrained | ⟨hdrained, -⟩)
    · simp [Mark.Retires] at hdrained
    · exact h.undrained ha hdrained
  · intro s running reply hmem
    rcases List.mem_append.mp hmem with hmem | hmem
    · exact h.replies s running reply hmem
    · obtain ⟨rfl, rfl, rfl⟩ := Mark.visited.inj (List.mem_singleton.mp hmem)
      rw [visitSeeing_opening]

/-- The factory runs again, with an empty set. -/
theorem Ordered.started (h : Ordered marks x) (hduty : x.duty = .starting) {f' : Factory codec}
    (hsessions : f'.sessions = x.factory.sessions) (hheld : ∀ s, x.factory.Held s → f'.Held s) :
    Ordered (marks ++ [.started]) { x with factory := f', duty := .idle } := by
  have hnot := h.not_admits (by simp [hduty]) (by simp [hduty])
  have hnone : f'.sessions = [] := hsessions.trans (h.empty hnot)
  refine
    { nodup := hnone ▸ List.nodup_nil, held := fun s hs => hheld s (h.held s ?_), idle := fun _ => rfl,
      seen := fun v seen hv hrunning => ?_, empty := fun _ => hnone, members := fun ha s => ?_,
      undrained := fun ha => ?_, replies := ?_, called := h.called_concat ?_ }
  · exact hs.imp_left fun hmem => hsessions ▸ hmem
  · exact absurd (h.seen v seen hv hrunning) hnot
  · rw [Accepted, since_concat]
    simp [hnone, Mark.Opens]
  · rw [since_concat]
    simp [Mark.Retires]
  · intro s running reply hmem
    simp only [List.mem_append, List.mem_singleton, reduceCtorEq, or_false] at hmem
    exact h.replies s running reply hmem
  · rintro ⟨called, heq⟩
    cases heq

/-- All sessions say farewell; the lock of the set is free, so nobody is on his way into it. -/
theorem Ordered.retire (h : Ordered marks x) (hduty : x.duty = .stopping) (hfree : x.visitor = none) :
    Ordered (marks ++ [.retired x.factory.retireCalling.1])
      { x with factory := x.factory.retireCalling.2, duty := .retired } := by
  rw [retireCalling_of_held fun s hs => h.held s (Or.inl hs)]
  have hadmits : x.Admits := Or.inr hduty
  have hnot : ¬Admits { x with factory := x.factory.retire, duty := .retired } := by
    rintro (hrunning | hstopping)
    · have hidle := h.idle (by rwa [isRunning, (retire_same _).1] at hrunning)
      rw [hidle] at hduty
      cases hduty
    · cases hstopping
  refine
    { nodup := List.nodup_nil, held := ?_, idle := fun hrunning => absurd (Or.inl hrunning) hnot,
      seen := fun v seen hv => ?_, empty := fun _ => rfl, members := fun ha => absurd ha hnot,
      undrained := fun ha => absurd ha hnot, replies := ?_, called := ?_ }
  · rintro s (hs | ⟨seen, hv⟩)
    · cases hs
    · cases hfree.symm.trans hv
  · rw [hfree] at hv
    cases hv
  · intro s running reply hmem
    simp only [List.mem_append, List.mem_singleton, reduceCtorEq, or_false] at hmem
    exact h.replies s running reply hmem
  · intro before called after heq
    rcases cut_concat heq with ⟨rfl, hcalled⟩ | ⟨after', -, hmarks⟩
    · obtain rfl := Mark.retired.inj hcalled
      exact ⟨h.nodup, h.members hadmits, h.undrained hadmits⟩
    · exact h.called before called after' hmarks

theorem Ordered.stopped (h : Ordered marks x) (hduty : x.duty = .down) :
    Ordered (marks ++ [.stopped]) { x with factory := x.factory.markStopped, duty := .idle } := by
  have hnot := h.not_admits (by simp [hduty]) (by simp [hduty])
  have hnot' : ¬Admits { x with factory := x.factory.markStopped, duty := .idle } := by
    rintro (hrunning | hstopping)
    · cases hrunning
    · cases hstopping
  refine
    { nodup := h.nodup, held := h.held, idle := fun _ => rfl, seen := fun v seen hv hrunning => ?_,
      empty := fun _ => h.empty hnot, members := fun ha => absurd ha hnot',
      undrained := fun ha => absurd ha hnot', replies := ?_, called := h.called_concat ?_ }
  · exact absurd (h.seen v seen hv hrunning) hnot
  · intro s running reply hmem
    simp only [List.mem_append, List.mem_singleton, reduceCtorEq, or_false] at hmem
    exact h.replies s running reply hmem
  · rintro ⟨called, heq⟩
    cases heq

/-- What is so at any moment stays so with every move. -/
theorem Move.ordered (hmove : Move x new x') (h : Ordered marks x) : Ordered (marks ++ new) x' := by
  cases hmove with
  | leave hv => exact h.leave hv
  | @started executor made f' hduty hstart =>
      have hsessions := sessions_start x.factory executor
      have hheld : ∀ s, (x.factory.start executor).2.Held s ↔ x.factory.Held s :=
        fun _ => held_start executor
      rw [hstart] at hsessions hheld
      exact h.started hduty hsessions fun s => (hheld s).mpr
  | retire hduty hfree => exact h.retire hduty hfree
  | markStopped hduty => exact h.stopped hduty
  | @aside f' hrunning hsessions hheld =>
      rw [List.append_nil]
      refine h.silent ?_ ?_ hsessions h.seen fun s hs => ?_
      · exact fun hrunning' => h.idle (hrunning.symm.trans hrunning')
      · simp only [Admits, hrunning]
      · have hexpects : x.Expects s := hs.imp_left fun hmem => hsessions ▸ hmem
        exact hheld s hexpects (h.held s hexpects)
  | enter v hfree hheld =>
      rw [List.append_nil]
      refine h.silent h.idle Iff.rfl rfl (fun v seen hv hrunning => ?_) ?_
      · obtain ⟨-, rfl⟩ := Prod.mk.inj (Option.some.inj hv)
        exact Or.inl hrunning
      · rintro s (hs | ⟨seen, hv⟩)
        · exact h.held s (Or.inl hs)
        · exact hheld s (Prod.mk.inj (Option.some.inj hv)).1
  | startRunning executor hduty hrunning =>
      rw [start_of_running hrunning, List.append_nil]
      exact h
  | markStarting hduty hrunning =>
      rw [List.append_nil]
      refine h.silent (fun hrunning' => ?_) (iff_of_false ?_ ?_) rfl h.seen h.held
      · cases hrunning'
      · rintro (hrunning' | hstopping)
        · cases hrunning'
        · cases hstopping
      · simp [Admits, hrunning, hduty]
  | @notStarted executor fault f' hduty hstart =>
      have hnone := not_running_of_start_error hstart
      have hsessions := sessions_start x.factory executor
      have hheld : ∀ s, (x.factory.start executor).2.Held s ↔ x.factory.Held s :=
        fun _ => held_start executor
      rw [hstart] at hsessions hheld
      rw [List.append_nil]
      refine h.silent (fun _ => rfl) (iff_of_false ?_ ?_) hsessions h.seen fun s hs => ?_
      · simp [Admits, hnone]
      · exact h.not_admits (by simp [hduty]) (by simp [hduty])
      · exact (hheld s).mpr (h.held s (hs.imp_left fun hmem => hsessions ▸ hmem))
  | stopIdle hduty hrunning =>
      rw [stop_of_not_running hrunning, List.append_nil]
      exact h
  | markStopping hduty hrunning =>
      rw [List.append_nil]
      refine h.silent (fun hrunning' => ?_) (iff_of_true (Or.inr rfl) (Or.inl hrunning)) rfl h.seen
        h.held
      cases hrunning'
  | takeAllDown hduty =>
      have hnot := h.not_admits (by simp [hduty]) (by simp [hduty])
      obtain ⟨hrunning, hsessions⟩ := takeAllDown_same x.factory
      have hdown : x.factory.takeAllDown.2.isRunning = false :=
        hrunning.trans (Bool.eq_false_iff.mpr fun h => hnot (Or.inl h))
      rw [List.append_nil]
      refine h.silent (fun hrunning' => ?_) (iff_of_false ?_ hnot) hsessions h.seen fun s hs => ?_
      · rw [hdown] at hrunning'
        cases hrunning'
      · simp [Admits, hdown]
      · exact held_takeAllDown.mpr (h.held s (hs.imp_left fun hmem => hsessions ▸ hmem))

theorem ordered_new {f : Factory codec} (hstopped : f.isRunning = false) (hnone : f.sessions = []) :
    Ordered [] { factory := f } := by
  have hnot : ¬Admits { factory := f } := by simp [Admits, hstopped]
  refine
    { nodup := hnone ▸ List.nodup_nil, held := ?_, idle := fun _ => rfl, seen := fun v seen hv => ?_,
      empty := fun _ => hnone, members := fun ha => absurd ha hnot,
      undrained := fun ha => absurd ha hnot, replies := fun _ _ _ h => absurd h List.not_mem_nil,
      called := fun before called after heq => ?_ }
  · rintro s (hs | ⟨seen, hv⟩)
    · rw [hnone] at hs
      cases hs
    · cases hv
  · cases hv
  · simp at heq

theorem Run.ordered (h : Run x₀ marks x) (h₀ : Ordered [] x₀) : Ordered marks x := by
  induction h with
  | refl => exact h₀
  | move h hmove ih => exact hmove.ordered ih

/-- A session that was entered once is asked for its farewell by one stop at most: between two stops
there is a start, and after the start it would have to be entered again. -/
theorem Ordered.called_once (h : Ordered marks x) {before between after : List Mark}
    {called called' : List SessionId} {s : SessionId}
    (heq : marks = before ++ .retired called :: (between ++ .retired called' :: after))
    (honce : marks.count (.visited (.opening s) true true) ≤ 1) (hs : s ∈ called) : s ∉ called' := by
  intro hs'
  obtain ⟨-, hfirst, -⟩ := h.called before called _ heq
  obtain ⟨-, hsecond, hundrained⟩ := h.called (before ++ .retired called :: between) called' after
    (by rw [heq]; simp)
  obtain ⟨b, m, a, hbefore, rfl, -⟩ := (hfirst s).mp hs
  obtain ⟨b', m', a', hcut, rfl, hnone⟩ := (hsecond s).mp hs'
  -- The second time it was entered after the start, which was after the first farewell.
  have hstarted : .started ∈ between := by
    refine Decidable.byContradiction fun hnot => hundrained ?_
    refine ⟨before, .retired called, between, rfl, Or.inl ⟨called, rfl⟩, ?_⟩
    rintro later hlater rfl
    exact hnot hlater
  have hlater : .visited (.opening s) true true ∈ between := by
    rcases List.append_eq_append_iff.mp hcut with ⟨rest, -, hrest⟩ | ⟨rest, -, hrest⟩
    · cases rest with
      | nil => cases hrest
      | cons _ rest =>
          rw [(List.cons.inj hrest).2]
          simp
    · cases rest with
      | nil => cases hrest
      | cons _ rest =>
          rw [(List.cons.inj hrest).2] at hnone
          exact absurd (Or.inl rfl) (hnone .started (by simp [hstarted]))
  have htwice : 2 ≤ marks.count (.visited (.opening s) true true) := by
    rw [heq, List.count_append, List.count_cons, List.count_append]
    have hearlier : .visited (.opening s) true true ∈ before := by simp [hbefore]
    have hbefore := List.count_pos_iff.mpr hearlier
    have hbetween := List.count_pos_iff.mpr hlater
    omega
  omega

/-- What is so of the set of open sessions after some moves. A session is entered, and that is said, just
if the factory was seen running, and struck only then; whoever has seen it running enters his session
before the farewells. There are sessions only while the factory runs or before the farewells of a stop;
none when a stop is over, or later until the next start. A drain calls each session that was entered since
the last start and not struck since, once, and no other; all of them are there to be called, and nobody
speaks to a session when the components are taken down. So a session that was entered once is called by
one stop at most. A stop of a factory that is not running changes nothing. -/
structure InOrder (marks : List Mark) (x : Shared codec) : Prop where
  replies : ∀ s running reply, .visited (.opening s) running reply ∈ marks → reply = running
  visits : ∀ v seen, x.visitor = some (v, seen) →
    (seen.isRunning = true → x.factory.isRunning = true ∨ x.duty = .stopping) ∧
    (x.factory.visitSeeing seen v).2.sessions =
      if seen.isRunning then
        match v with
        | .opening s => Connector.enter s x.factory.sessions
        | .closing s => x.factory.sessions.filter (· ≠ s)
      else x.factory.sessions
  admits : x.factory.sessions ≠ [] → x.factory.isRunning = true ∨ x.duty = .stopping
  drained : Since marks (fun m => m.Retires ∨ m = .stopped) (· = .started) → x.factory.sessions = []
  called : ∀ before called after, marks = before ++ .retired called :: after →
    called.Nodup ∧ ∀ s, s ∈ called ↔ Accepted before s
  farewells : ∀ s ∈ x.factory.sessions, ∃ (id : ChannelId) (a a' : Attempt codec),
    x.factory.holder? s = some id ∧ x.factory.attempts[id]? = some a ∧ a.session? = some s ∧
      x.factory.retire.attempts[id]? = some a' ∧ a.Farewelled a'
  others : ∀ (id : ChannelId) (a : Attempt codec), x.factory.attempts[id]? = some a →
    (∀ s ∈ x.factory.sessions, x.factory.holder? s ≠ some id) →
    x.factory.retire.attempts[id]? = some a
  silent : x.factory.takeAllDown.2.attempts.map Attempt.link = x.factory.attempts.map Attempt.link
  once : ∀ s before called between called' after,
    marks = before ++ .retired called :: (between ++ .retired called' :: after) →
    marks.count (.visited (.opening s) true true) ≤ 1 → s ∈ called → s ∉ called'
  stopped : x.factory.isRunning = false → x.factory.stop = ([], x.factory)
  stop : x.factory.isRunning = true → x.visitor = none →
    Run x [.retired x.factory.sessions, .stopped] { x with factory := x.factory.stop.2 }

/-- The moments of a stop, with nothing in between. -/
theorem Ordered.stop (h : Ordered marks x) (hrunning : x.factory.isRunning = true)
    (hfree : x.visitor = none) :
    Run x [.retired x.factory.sessions, .stopped] { x with factory := x.factory.stop.2 } := by
  have hduty := h.idle hrunning
  have hcalling : x.factory.markStopping.retireCalling =
      (x.factory.sessions, x.factory.markStopping.retire) :=
    retireCalling_of_held fun s hs => h.held s (Or.inl hs)
  have hretired := (Run.refl.move (.markStopping hduty hrunning)).move (.retire rfl hfree)
  rw [hcalling] at hretired
  rw [stop_of_running hrunning, hduty]
  exact (hretired.move (.takeAllDown rfl)).move (.markStopped rfl)

theorem Ordered.inOrder (h : Ordered marks x) : InOrder marks x where
  replies := h.replies
  visits := by
    intro v seen hv
    refine ⟨h.seen v seen hv, ?_⟩
    cases v with
    | opening s => rw [visitSeeing_opening]; split <;> rfl
    | closing s => rw [visitSeeing_closing]; split <;> rfl
  admits := fun hsome => Decidable.byContradiction fun hnot => hsome (h.empty hnot)
  drained := fun hdrained => h.empty fun ha => h.undrained ha hdrained
  called := by
    intro before called after heq
    obtain ⟨hnodup, hcalled, -⟩ := h.called before called after heq
    exact ⟨hnodup, hcalled⟩
  farewells := fun s hs => farewelled_of_mem h.nodup hs (h.held s (Or.inl hs))
  others := fun _ _ ha hnone => attempts_retire_of_not_held h.nodup ha hnone
  silent := links_takeAllDown x.factory
  once := fun _ _ _ _ _ _ heq honce hs => h.called_once heq honce hs
  stopped := stop_of_not_running
  stop := h.stop

end

end Shared

end SpdySessions.Factory
