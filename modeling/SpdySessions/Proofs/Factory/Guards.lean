import SpdySessions.Factory.Chain

/-! What locks are for. Each guards a part of a factory, which nobody changes who does not hold the lock.
What the functions of a factory may change is said here once, under the locks that they need. -/

namespace SpdySessions.Chain

variable {codec : HeaderCodec} {held : List Lock} {f f' : Factory codec} {id : ChannelId} {run : Nat}

/-- Each of the books of a connector is the same, or its lock is held. -/
structure BooksGuarded (held : List Lock) (run : Nat) (c c' : Connector) : Prop where
  running : .registration run ∈ held ∨ c'.running = c.running
  channels : .channels run ∈ held ∨ c'.channels = c.channels
  pending : .pending run ∈ held ∨ c'.pending = c.pending
  opened : .opened run ∈ held ∨ c'.opened = c.opened

/-- The outcome of an attempt and the generator of its session are the same, or their locks are held. The
generator is nobody's to use before there is an outcome. -/
structure AttemptGuarded (held : List Lock) (id : ChannelId) (a a' : Attempt codec) : Prop where
  outcome : .slot id ∈ held ∨ a'.promise.outcome = a.promise.outcome
  writer : .generator id ∈ held ∨ (a.promise.isDone = true →
    a'.link.map (·.session.writer) = a.link.map (·.session.writer))

/-- What there was in a factory is the same, or its lock is held. -/
structure Guarded (held : List Lock) (f f' : Factory codec) : Prop where
  lifecycle : .lifecycle ∈ held ∨
    f'.lifecycle.phase = f.lifecycle.phase ∧ f'.lifecycle.runs = f.lifecycle.runs
  components : .running ∈ held ∨ f'.lifecycle.components = f.lifecycle.components
  sessions : .sessions ∈ held ∨ f'.sessions = f.sessions
  pool : .pool ∈ held ∨ f'.pool = f.pool
  connector : ∀ run c, f.connectors[run]? = some c →
    ∃ c', f'.connectors[run]? = some c' ∧ BooksGuarded held run c c'
  attempt : ∀ id a, f.attempts[id]? = some a →
    ∃ a', f'.attempts[id]? = some a' ∧ AttemptGuarded held id a a'

theorem BooksGuarded.refl (c : Connector) : BooksGuarded held run c c :=
  ⟨.inr rfl, .inr rfl, .inr rfl, .inr rfl⟩

theorem AttemptGuarded.refl (a : Attempt codec) : AttemptGuarded held id a a :=
  ⟨.inr rfl, .inr fun _ => rfl⟩

/-- What no lock guards may change at any time. -/
theorem guarded_of_eq (hlifecycle : f'.lifecycle = f.lifecycle) (hsessions : f'.sessions = f.sessions)
    (hpool : f'.pool = f.pool) (hconnectors : f'.connectors = f.connectors)
    (hattempts : f'.attempts = f.attempts) : Guarded held f f' where
  lifecycle := .inr (by rw [hlifecycle]; exact ⟨rfl, rfl⟩)
  components := .inr (by rw [hlifecycle])
  sessions := .inr hsessions
  pool := .inr hpool
  connector run c hc := ⟨c, by rwa [hconnectors], .refl c⟩
  attempt id a ha := ⟨a, by rwa [hattempts], .refl a⟩

theorem Guarded.refl (f : Factory codec) : Guarded held f f :=
  guarded_of_eq rfl rfl rfl rfl rfl

/-! ### One change -/

theorem guarded_lifecycle {lifecycle : Lifecycle} (hlifecycle : .lifecycle ∈ held ∨
      lifecycle.phase = f.lifecycle.phase ∧ lifecycle.runs = f.lifecycle.runs)
    (hcomponents : .running ∈ held ∨ lifecycle.components = f.lifecycle.components) :
    Guarded held f { f with lifecycle := lifecycle } :=
  { (Guarded.refl f : Guarded held f f) with lifecycle := hlifecycle, components := hcomponents }

theorem guarded_sessions (hheld : .sessions ∈ held) (sessions : List SessionId) :
    Guarded held f { f with sessions := sessions } :=
  { (Guarded.refl f : Guarded held f f) with sessions := .inl hheld }

theorem guarded_pool (hheld : .pool ∈ held) (pool : BufferPool) :
    Guarded held f { f with pool := pool } :=
  { (Guarded.refl f : Guarded held f f) with pool := .inl hheld }

theorem guarded_modifyConnector {change : Connector → Connector}
    (h : ∀ c, BooksGuarded held run c (change c)) : Guarded held f (f.modifyConnector run change) := by
  refine { (Guarded.refl f : Guarded held f f) with connector := fun run' c hc => ?_ }
  simp only [Factory.modifyConnector, List.getElem?_modify, hc, Option.map_eq_map, Option.map_some]
  refine ⟨_, rfl, ?_⟩
  split
  · rename_i hrun
    exact hrun ▸ h c
  · exact .refl c

theorem guarded_modify {change : Attempt codec → Attempt codec}
    (h : ∀ a, f.attempts[id]? = some a → AttemptGuarded held id a (change a)) :
    Guarded held f (f.modify id change) := by
  refine { (Guarded.refl f : Guarded held f f) with attempt := fun id' a ha => ?_ }
  simp only [Factory.modify, List.getElem?_modify, ha, Option.map_eq_map, Option.map_some]
  refine ⟨_, rfl, ?_⟩
  split
  · rename_i hid
    exact hid ▸ h a (hid ▸ ha)
  · exact .refl a

/-- A new attempt changes nothing for the others. -/
theorem guarded_append (a : Attempt codec) : Guarded held f { f with attempts := f.attempts ++ [a] } := by
  refine { (Guarded.refl f : Guarded held f f) with attempt := fun id a ha => ⟨a, ?_, .refl a⟩ }
  obtain ⟨hlt, -⟩ := List.getElem?_eq_some_iff.mp ha
  exact (List.getElem?_append_left hlt).trans ha

/-! ### What functions of the factory change -/

theorem guarded_close (f : Factory codec) (id : ChannelId) : Guarded held f (f.close id).2 :=
  guarded_modify fun _ _ => ⟨.inr rfl, .inr fun _ => rfl⟩

theorem guarded_refuse (hheld : .slot id ∈ held) (f : Factory codec) (outcome : Outcome SessionId) :
    Guarded held f (f.refuse id outcome).2 := by
  unfold Factory.refuse
  split
  · exact .refl f
  · split
    · exact .refl f
    · exact guarded_modify fun a _ => ⟨.inl hheld, .inr fun _ => rfl⟩

theorem guarded_start (hlifecycle : .lifecycle ∈ held) (hrunning : .running ∈ held) (f : Factory codec)
    (executor : Except Fault Unit) : Guarded held f (f.start executor).2 := by
  unfold Factory.start
  split
  · exact guarded_lifecycle (.inl hlifecycle) (.inl hrunning)
  · exact guarded_lifecycle (.inl hlifecycle) (.inl hrunning)
  · refine { (guarded_lifecycle (.inl hlifecycle) (.inl hrunning) : Guarded held f { f with
      lifecycle := _ }) with connector := fun run c hc => ⟨c, ?_, .refl c⟩ }
    obtain ⟨hlt, -⟩ := List.getElem?_eq_some_iff.mp hc
    exact (List.getElem?_append_left hlt).trans hc

theorem guarded_markStopped (hheld : .lifecycle ∈ held) (f : Factory codec) :
    Guarded held f f.markStopped :=
  guarded_lifecycle (.inl hheld) (.inr rfl)

theorem guarded_sessionOpened (hheld : .sessions ∈ held) (f : Factory codec) (session : SessionId) :
    Guarded held f (f.sessionOpened session).2 := by
  unfold Factory.sessionOpened
  split
  · exact guarded_sessions hheld _
  · exact .refl f

theorem guarded_sessionClosed (hheld : .sessions ∈ held) (f : Factory codec) (session : SessionId) :
    Guarded held f (f.sessionClosed session).2 := by
  unfold Factory.sessionClosed
  split
  · exact guarded_sessions hheld _
  · exact .refl f

theorem guarded_setEndpoint {e : Endpoint codec} (hgenerator : .generator id ∈ held)
    (hpool : .pool ∈ held ∨ e.pool = f.pool) : Guarded held f (f.setEndpoint id e) := by
  refine { (Guarded.refl f : Guarded held f f) with pool := hpool, attempt := fun id' a ha => ?_ }
  simp only [Factory.setEndpoint, Factory.modify, List.getElem?_modify, ha, Option.map_eq_map,
    Option.map_some]
  refine ⟨_, rfl, ?_⟩
  split
  · rename_i hid
    exact ⟨.inr rfl, .inl (hid ▸ hgenerator)⟩
  · exact .refl a

/-- What is done to the end of a connection, if to anything. -/
def Writes (id : ChannelId) (change : Factory codec → Factory codec) : Prop :=
  ∀ f, change f = f ∨ ∃ e, change f = f.setEndpoint id e

theorem writes_call (id : ChannelId) (c : Session.Call) :
    Writes id fun f : Factory codec => (f.call id c).2 := by
  intro f
  simp only [Factory.call]
  split
  · exact .inl rfl
  · exact .inr ⟨_, rfl⟩

theorem writes_sendBack (id : ChannelId) (ping : UInt32) :
    Writes id fun f : Factory codec => sendBack f id ping := by
  intro f
  simp only [sendBack]
  split
  · exact .inl rfl
  · exact .inr ⟨_, rfl⟩

/-- A session writes under the lock of its generator and that of the pool. -/
theorem Writes.guarded {change : Factory codec → Factory codec} (h : Writes id change)
    (hgenerator : .generator id ∈ held) (hpool : .pool ∈ held) (f : Factory codec) :
    Guarded held f (change f) := by
  rcases h f with heq | ⟨e, heq⟩
  · rw [heq]
    exact .refl f
  · rw [heq]
    exact guarded_setEndpoint hgenerator (.inl hpool)

theorem Writes.guarded_keeping {change : Factory codec → Factory codec} (h : Writes id change)
    (hgenerator : .generator id ∈ held) (f : Factory codec) :
    Guarded held f { change f with pool := f.pool } := by
  rcases h f with heq | ⟨e, heq⟩
  · rw [heq]
    exact .refl f
  · rw [heq]
    exact guarded_setEndpoint (e := { e with pool := f.pool }) hgenerator (.inr rfl)

end SpdySessions.Chain
