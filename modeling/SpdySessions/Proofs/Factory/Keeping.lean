import SpdySessions.Factory.Connect
import SpdySessions.Proofs.Factory.Books

/-! What a factory keeps. An attempt that has an outcome keeps it, and one whose promise waits goes on
waiting in the books of its run until it has an outcome: whatever forgets a channel, or takes it for
opened, does so after the promise has an outcome. This is stated once, as a relation between a factory
and a later one, and shown of every operation from those that it is made of. -/

namespace SpdySessions

namespace Attempt

variable {codec : HeaderCodec}

/-- A change that leaves an attempt in its run and with its outcome, and gives no session to one that
has no outcome. -/
structure Keeps (a a' : Attempt codec) : Prop where
  run : a'.run = a.run
  outcome : ∀ o, a.promise.outcome = some o → a'.promise.outcome = some o
  link : a'.link.isSome = true → a.link.isSome = true ∨ a'.promise.isDone = true

theorem Keeps.isDone {a a' : Attempt codec} (h : a.Keeps a') (hdone : a.promise.isDone = true) :
    a'.promise.isDone = true := by
  obtain ⟨o, ho⟩ := Option.isSome_iff_exists.mp hdone
  exact Option.isSome_iff_exists.mpr ⟨o, h.outcome o ho⟩

/-- A change of other things than the run, the promise and the session. -/
theorem Keeps.of_same {a a' : Attempt codec} (hrun : a'.run = a.run)
    (hpromise : a'.promise = a.promise) (hlink : a'.link = a.link) : a.Keeps a' :=
  ⟨hrun, fun _ ho => hpromise ▸ ho, fun h => Or.inl (hlink ▸ h)⟩

end Attempt

namespace Factory

variable {codec : HeaderCodec}

/-! ### Kept attempts -/

/-- The promise of an attempt has an outcome. -/
def Done (f : Factory codec) (id : ChannelId) : Prop :=
  ∃ a, f.attempts[id]? = some a ∧ a.promise.isDone = true

/-- The promise of an attempt waits in the books of its run, which track its channel. -/
def Waits (f : Factory codec) (id : ChannelId) : Prop :=
  ∃ (a : Attempt codec) (c : Connector), f.attempts[id]? = some a ∧
    f.connectors[a.run]? = some c ∧ c.Waits id

/-- An attempt that is not lost. -/
def Kept (f : Factory codec) (id : ChannelId) : Prop :=
  f.Done id ∨ f.Waits id

/-- There is, or was, a session for an attempt. -/
def Linked (f : Factory codec) (id : ChannelId) : Prop :=
  ∃ a, f.attempts[id]? = some a ∧ a.link.isSome = true

/-- The books are in order, and no attempt has a session without an outcome. -/
structure Sound (f : Factory codec) : Prop where
  books : ∀ (run : Nat) (c : Connector), f.connectors[run]? = some c → c.Balanced f.attempts.length
  links : ∀ (id : ChannelId) (a : Attempt codec), f.attempts[id]? = some a →
    a.link.isSome = true → a.promise.isDone = true

/-- A later factory: attempts stay in their runs and keep their outcomes, a stopped connector stays
stopped, and none that waits is lost. -/
structure Onward (f f' : Factory codec) : Prop where
  attempts : ∀ (id : ChannelId) (a : Attempt codec), f.attempts[id]? = some a →
    ∃ a' : Attempt codec, f'.attempts[id]? = some a' ∧ a'.run = a.run ∧
      ∀ o, a.promise.outcome = some o → a'.promise.outcome = some o
  connectors : ∀ (run : Nat) (c : Connector), f.connectors[run]? = some c →
    ∃ c' : Connector, f'.connectors[run]? = some c' ∧ (c.running = false → c'.running = false)
  waiting : ∀ id, f.Waits id → f'.Kept id

/-- What happens to a sound factory leads to a sound one that has lost nothing. -/
def Leads (f f' : Factory codec) : Prop :=
  f.Sound → f'.Sound ∧ f.Onward f'

section

variable {f f' f'' : Factory codec} {id : ChannelId}

theorem Onward.done (h : f.Onward f') (hdone : f.Done id) : f'.Done id := by
  obtain ⟨a, ha, houtcome⟩ := hdone
  obtain ⟨o, ho⟩ := Option.isSome_iff_exists.mp houtcome
  obtain ⟨a', ha', -, hkeeps⟩ := h.attempts id a ha
  exact ⟨a', ha', Option.isSome_iff_exists.mpr ⟨o, hkeeps o ho⟩⟩

theorem Onward.kept (h : f.Onward f') (hkept : f.Kept id) : f'.Kept id := by
  rcases hkept with hdone | hwaits
  · exact Or.inl (h.done hdone)
  · exact h.waiting id hwaits

theorem Onward.refl (f : Factory codec) : f.Onward f where
  attempts := fun _ a ha => ⟨a, ha, rfl, fun _ ho => ho⟩
  connectors := fun _ c hc => ⟨c, hc, fun h => h⟩
  waiting := fun _ h => Or.inr h

theorem Onward.trans (h : f.Onward f') (h' : f'.Onward f'') : f.Onward f'' where
  attempts := by
    intro id a ha
    obtain ⟨a', ha', hrun, hkeeps⟩ := h.attempts id a ha
    obtain ⟨a'', ha'', hrun', hkeeps'⟩ := h'.attempts id a' ha'
    exact ⟨a'', ha'', hrun'.trans hrun, fun o ho => hkeeps' o (hkeeps o ho)⟩
  connectors := by
    intro run c hc
    obtain ⟨c', hc', hstays⟩ := h.connectors run c hc
    obtain ⟨c'', hc'', hstays'⟩ := h'.connectors run c' hc'
    exact ⟨c'', hc'', fun hstopped => hstays' (hstays hstopped)⟩
  waiting := fun id hwaits => h'.kept (h.waiting id hwaits)

/-- Without attempts and connectors there is nothing to lose. -/
theorem sound_new (hattempts : f.attempts = []) (hconnectors : f.connectors = []) : f.Sound := by
  refine ⟨fun run c hc => ?_, fun id a ha => ?_⟩
  · rw [hconnectors] at hc
    cases hc
  · rw [hattempts] at ha
    cases ha

theorem Leads.refl (f : Factory codec) : f.Leads f :=
  fun hs => ⟨hs, .refl f⟩

theorem Leads.trans (h : f.Leads f') (h' : f'.Leads f'') : f.Leads f'' := by
  intro hs
  obtain ⟨hs', ho⟩ := h hs
  obtain ⟨hs'', ho'⟩ := h' hs'
  exact ⟨hs'', ho.trans ho'⟩

/-- What comes next may rely on what has been kept so far. -/
theorem Leads.andThen (h : f.Leads f') (h' : f.Sound → f.Onward f' → f'.Leads f'') : f.Leads f'' :=
  fun hs => (h.trans (h' hs (h hs).2)) hs

theorem Leads.foldl {α : Type} {g : Factory codec → α → Factory codec}
    (h : ∀ (f : Factory codec) (x : α), f.Leads (g f x)) (xs : List α) (f : Factory codec) :
    f.Leads (xs.foldl g f) := by
  induction xs generalizing f with
  | nil => exact .refl f
  | cons x xs ih => exact (h f x).trans (ih (g f x))

/-- Nothing is kept outside the attempts and the connectors. -/
theorem leads_of_eq (hattempts : f'.attempts = f.attempts)
    (hconnectors : f'.connectors = f.connectors) : f.Leads f' := by
  intro hs
  refine ⟨⟨?_, ?_⟩, ⟨?_, ?_, ?_⟩⟩
  · rw [hattempts, hconnectors]
    exact hs.books
  · rw [hattempts]
    exact hs.links
  · rw [hattempts]
    exact (Onward.refl f).attempts
  · rw [hconnectors]
    exact (Onward.refl f).connectors
  · rintro id ⟨a, c, ha, hc, hwaits⟩
    exact Or.inr ⟨a, c, hattempts ▸ ha, hconnectors ▸ hc, hwaits⟩

/-! ### Changes in one place -/

theorem attempts_modify (f : Factory codec) (id other : ChannelId)
    (change : Attempt codec → Attempt codec) :
    (f.modify id change).attempts[other]? =
      (f.attempts[other]?).map fun a => if id = other then change a else a :=
  List.getElem?_modify change id f.attempts other

theorem attempts_modify_self {f : Factory codec} {id : ChannelId} {a : Attempt codec}
    (ha : f.attempts[id]? = some a) (change : Attempt codec → Attempt codec) :
    (f.modify id change).attempts[id]? = some (change a) := by
  rw [attempts_modify, ha, Option.map_some, if_pos rfl]

theorem connectors_modifyConnector (f : Factory codec) (run other : Nat)
    (change : Connector → Connector) :
    (f.modifyConnector run change).connectors[other]? =
      (f.connectors[other]?).map fun c => if run = other then change c else c :=
  List.getElem?_modify change run f.connectors other

theorem leads_modify {change : Attempt codec → Attempt codec}
    (h : ∀ a : Attempt codec, f.attempts[id]? = some a → a.Keeps (change a)) :
    f.Leads (f.modify id change) := by
  have hkeeps : ∀ (other : ChannelId) (a : Attempt codec), f.attempts[other]? = some a →
      a.Keeps (if id = other then change a else a) := by
    intro other a ha
    by_cases hid : id = other
    · rw [if_pos hid]
      exact h a (hid ▸ ha)
    · rw [if_neg hid]
      exact .of_same rfl rfl rfl
  have hattempts : ∀ (other : ChannelId) (a : Attempt codec), f.attempts[other]? = some a →
      (f.modify id change).attempts[other]? = some (if id = other then change a else a) := by
    intro other a ha
    rw [attempts_modify, ha]
    rfl
  intro hs
  refine ⟨⟨?_, ?_⟩, ⟨?_, (Onward.refl f).connectors, ?_⟩⟩
  · intro run c hc
    have hlength : (f.modify id change).attempts.length = f.attempts.length :=
      List.length_modify change f.attempts id
    rw [hlength]
    exact hs.books run c hc
  · intro other a' ha' hlink
    rw [attempts_modify] at ha'
    obtain ⟨a, ha, rfl⟩ := Option.map_eq_some_iff.mp ha'
    rcases (hkeeps other a ha).link hlink with hlink | hdone
    · exact (hkeeps other a ha).isDone (hs.links other a ha hlink)
    · exact hdone
  · intro other a ha
    exact ⟨_, hattempts other a ha, (hkeeps other a ha).run, (hkeeps other a ha).outcome⟩
  · rintro other ⟨a, c, ha, hc, hwaits⟩
    exact Or.inr ⟨_, c, hattempts other a ha, (hkeeps other a ha).run.symm ▸ hc, hwaits⟩

theorem Linked.modify {change : Attempt codec → Attempt codec} (h : f.Linked id)
    (hlink : ∀ a, a.link.isSome = true → (change a).link.isSome = true) :
    (f.modify id change).Linked id := by
  obtain ⟨a, ha, hsome⟩ := h
  exact ⟨change a, attempts_modify_self ha change, hlink a hsome⟩

theorem Linked.done (h : f.Linked id) (hs : f.Sound) : f.Done id := by
  obtain ⟨a, ha, hsome⟩ := h
  exact ⟨a, ha, hs.links id a ha hsome⟩

/-- Most changes are of other things than the run, the promise and the session. -/
theorem leads_modify_of_same (id : ChannelId) (change : Attempt codec → Attempt codec)
    (hsame : ∀ a, (change a).run = a.run ∧ (change a).promise = a.promise ∧ (change a).link = a.link) :
    f.Leads (f.modify id change) :=
  leads_modify fun a _ => .of_same (hsame a).1 (hsame a).2.1 (hsame a).2.2

theorem leads_modifyConnector {run : Nat} {change : Connector → Connector}
    (hbalanced : ∀ c, f.connectors[run]? = some c → c.Balanced f.attempts.length →
      (change c).Balanced f.attempts.length)
    (hstopped : ∀ c, f.connectors[run]? = some c → c.running = false → (change c).running = false)
    (hwaits : ∀ c other, f.connectors[run]? = some c → c.Waits other →
      (change c).Waits other ∨ f.Done other) :
    f.Leads (f.modifyConnector run change) := by
  intro hs
  refine ⟨⟨?_, hs.links⟩, ⟨(Onward.refl f).attempts, ?_, ?_⟩⟩
  · intro other c' hc'
    rw [connectors_modifyConnector] at hc'
    obtain ⟨c, hc, rfl⟩ := Option.map_eq_some_iff.mp hc'
    by_cases hother : run = other
    · rw [if_pos hother]
      exact hbalanced c (hother ▸ hc) (hs.books other c hc)
    · rw [if_neg hother]
      exact hs.books other c hc
  · intro other c hc
    by_cases hother : run = other
    · refine ⟨change c, ?_, hstopped c (hother ▸ hc)⟩
      rw [connectors_modifyConnector, hc, Option.map_some, if_pos hother]
    · refine ⟨c, ?_, fun h => h⟩
      rw [connectors_modifyConnector, hc, Option.map_some, if_neg hother]
  · rintro other ⟨a, c, ha, hc, hwait⟩
    by_cases hrun : run = a.run
    · rcases hwaits c other (hrun ▸ hc) hwait with hwait | hdone
      · refine Or.inr ⟨a, change c, ha, ?_, hwait⟩
        rw [connectors_modifyConnector, hc, Option.map_some, if_pos hrun]
      · exact Or.inl hdone
    · refine Or.inr ⟨a, c, ha, ?_, hwait⟩
      rw [connectors_modifyConnector, hc, Option.map_some, if_neg hrun]

end

end Factory

end SpdySessions
