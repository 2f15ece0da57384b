import SpdySessions.Proofs.Factory.Clean
import SpdySessions.Proofs.Factory.Lifetimes

/-! The terms of a connect: how long its connection may be idle, and the window that its session starts
with. They are not taken down when the connect is called. The idle timeout is looked up when the socket
is connected, and the window when the session is made, both in the settings that the client has then;
no other moment counts. -/

namespace SpdySessions

/-- How long a connection may be idle, and the window of its session at first. -/
structure Terms where
  idleTimeout : Span
  window : Int32
  deriving DecidableEq

def Client.terms (c : Client) (usual : Span) : Terms :=
  ⟨c.idleTimeoutOr usual, c.window⟩

def Session.terms {codec : HeaderCodec} (s : Session codec) : Terms :=
  ⟨s.idleTimeout, s.window⟩

namespace Endpoint

variable {codec : HeaderCodec}

/-! ### Calls -/

theorem terms_enqueue (e : Endpoint codec) (item : Outbound) :
    (e.enqueue item).2.session.terms = e.session.terms := by
  unfold enqueue
  split <;> rfl

theorem terms_write (e : Endpoint codec) (frame : Frame) :
    (e.write frame).2.session.terms = e.session.terms := by
  unfold write
  dsimp only
  split
  · rfl
  · exact terms_enqueue _ _

/-- No call changes the terms. -/
theorem terms_call (e : Endpoint codec) (c : Session.Call) :
    (e.call c).2.session.terms = e.session.terms := by
  cases c with
  | ping =>
      exact terms_write { e with session := { e.session with nextPing := e.session.nextPing + 2 } }
        (.ping e.session.nextPing)
  | goAway =>
      show e.goAway.2.session.terms = _
      unfold goAway
      split
      · rfl
      · exact (terms_enqueue _ _).trans (terms_write _ _)
  | settings clear entries => exact terms_write e (.settings clear entries)
  | close => rfl

end Endpoint

/-- The terms of the session, if there is one. -/
def Attempt.terms? {codec : HeaderCodec} (a : Attempt codec) : Option Terms :=
  a.link.map (·.session.terms)

namespace Factory

variable {codec : HeaderCodec} {f f' f₁ f₂ f₃ : Factory codec} {id : ChannelId} {answers : List Answer}

/-- The terms that a client asks for by its settings of now. -/
def termsOf (f : Factory codec) (client : Nat) : Terms :=
  ((f.clients[client]?).getD { version := .v3 }).terms f.idleTimeout

/-! ### Callbacks -/

/-- All terms of sessions are as they were. -/
def SameTerms (f f' : Factory codec) : Prop :=
  f'.attempts.map Attempt.terms? = f.attempts.map Attempt.terms?

theorem sameTerms_modify {change : Attempt codec → Attempt codec}
    (h : ∀ a, f.attempts[id]? = some a → (change a).terms? = a.terms?) :
    f.SameTerms (f.modify id change) :=
  map_modify_of_getElem? h

theorem sameTerms_call (f : Factory codec) (id : ChannelId) (c : Session.Call) :
    f.SameTerms (f.call id c).2 := by
  unfold call
  split
  · rfl
  · rename_i e he
    obtain ⟨a, ha, hlink, -⟩ := endpoint?_eq_some he
    refine map_modify_of_getElem? fun b hb => ?_
    obtain rfl := Option.some.inj (ha.symm.trans hb)
    show some (e.call c).2.session.terms = a.terms?
    rw [Attempt.terms?, hlink, e.terms_call c]
    rfl

theorem sameTerms_close (f : Factory codec) (id : ChannelId) : f.SameTerms (f.close id).2 :=
  sameTerms_modify fun _ _ => rfl

theorem sameTerms_refuse (f : Factory codec) (id : ChannelId) (outcome : Outcome SessionId) :
    f.SameTerms (f.refuse id outcome).2 :=
  refuse_same (fun f => f.attempts.map Attempt.terms?)
    (fun f _ _ _ _ => sameTerms_modify (f := f) fun _ _ => rfl) f id outcome

theorem SameTerms.foldl {α : Type} {g : Factory codec → α → Factory codec}
    (h : ∀ (f : Factory codec) (x : α), f.SameTerms (g f x)) (xs : List α) (f : Factory codec) :
    f.SameTerms (xs.foldl g f) :=
  foldl_same (fun f => f.attempts.map Attempt.terms?) h xs f

theorem unmoved_terms : Unmoved fun f : Factory codec => f.attempts.map Attempt.terms? where
  connector := fun _ _ _ => rfl
  scheduler := fun _ _ => rfl
  fail := fun f id cause => sameTerms_refuse f id (.failed cause)
  close := sameTerms_close
  call := sameTerms_call
  own := fun _ _ _ => rfl
  cancel := cancel_same (fun f => f.attempts.map Attempt.terms?)
    (fun f id => sameTerms_refuse f id .cancelled) sameTerms_close
  note := fun _ _ _ => sameTerms_modify fun _ _ => rfl

/-! ### The two moments -/

/-- A connected socket gets the idle timeout that its client asks for at this moment. -/
theorem dialed_terms {a : Attempt codec} (ha : f.attempts[id]? = some a)
    (hdialing : a.stage.isDialing = true) (remote : Address) :
    ∃ a', (f.dialed id (.ok remote)).attempts[id]? = some a' ∧ a'.client = a.client ∧
      a'.stage.isDialing = false ∧ a'.idleTimeout = (f.termsOf a.client).idleTimeout := by
  let f' := f.modify id fun b => { b with
    stage := .connected, remote := remote,
    idleTimeout := (f.clientOf a).idleTimeoutOr f.idleTimeout }
  have hconnected : f'.attempts[id]? = some { a with
      stage := .connected, remote := remote,
      idleTimeout := (f.clientOf a).idleTimeoutOr f.idleTimeout } :=
    attempts_modify_self ha _
  have hafter : f'.Beside (fun _ => True) ((f'.touch id).arm id) :=
    (beside_touch f' id).trans (beside_arm fun _ _ => trivial)
  obtain ⟨a', ha', hon⟩ := hafter.attempts id _ hconnected
  have hdialed : f.dialed id (.ok remote) = (f'.touch id).arm id := by
    simp only [dialed, ha, hdialing, if_true]
    rfl
  obtain ⟨hstage, htimeout⟩ := hon.timeout rfl
  rw [hdialed]
  exact ⟨a', ha', hon.client, hstage, htimeout⟩

theorem sameTerms_abort (f : Factory codec) (id : ChannelId) (cause : Fault) :
    f.SameTerms (f.abort id cause) := by
  have hfinish : ∀ f : Factory codec, f.SameTerms (f.finish id) := by
    intro f
    have hclosed := sameTerms_close f id
    unfold finish
    dsimp only
    have hended : ∀ f : Factory codec, f.SameTerms (f.modify id fun a => { a with stage := .ended }) :=
      fun f => sameTerms_modify fun _ _ => rfl
    refine (hended _).trans ?_
    split <;> exact hclosed
  exact (hfinish _).trans (sameTerms_refuse f id _)

theorem SameTerms.attempt (h : f.SameTerms f') {a a' : Attempt codec} (ha : f.attempts[id]? = some a)
    (ha' : f'.attempts[id]? = some a') : a'.terms? = a.terms? := by
  have hthere := congrArg (·[id]?) h
  simp only [List.getElem?_map, ha, ha', Option.map_some, Option.some.injEq] at hthere
  exact hthere

theorem attempts_sessionOpened (f : Factory codec) (session : SessionId) :
    (f.sessionOpened session).2.attempts = f.attempts := by
  unfold sessionOpened
  split <;> rfl

/-- A session is made or it is not; if it is, then with the idle timeout of its attempt and with the
window that its client asks for at this moment. Whatever callbacks do when they are handed it, they
leave it at that. -/
theorem openSession_terms {a a' : Attempt codec} (ha : f.attempts[id]? = some a)
    (ha' : (f.openSession id a).2.attempts[id]? = some a') :
    a'.terms? = a.terms? ∨ a'.terms? = some ⟨a.idleTimeout, (f.termsOf a.client).window⟩ := by
  have hcounted := attempts_sessionOpened { f with sessionsMade := (f.newSession a).id }
    (f.newSession a).id
  have hsame : ∀ f' : Factory codec, f'.attempts = f.attempts → f.SameTerms f' := fun f' h =>
    congrArg _ h
  unfold openSession at ha'
  dsimp only at ha'
  split at ha'
  · rename_i f' hopened
    rw [hopened] at hcounted
    exact Or.inl ((hsame f' hcounted).attempt ha ha')
  · rename_i f' hopened
    rw [hopened] at hcounted
    split at ha'
    · exact Or.inl ((hsame _ ((attempts_sessionClosed f' _).trans hcounted)).attempt ha ha')
    · rename_i callbacks promise hsettle
      have hmade : (f'.modify id fun b => { b with
          promise := promise, link := some ⟨f.newSession a, .fresh codec⟩ }).attempts[id]? =
            some { a with promise := promise, link := some ⟨f.newSession a, .fresh codec⟩ } :=
        attempts_modify_self (hcounted ▸ ha) _
      have hcallbacks := SameTerms.foldl (unmoved_terms.runCallback id) callbacks
        (f'.modify id fun b => { b with
          promise := promise, link := some ⟨f.newSession a, .fresh codec⟩ })
      exact Or.inr (hcallbacks.attempt hmade ha')

theorem construct_terms {a a' : Attempt codec} (ha : f.attempts[id]? = some a)
    (ha' : (f.construct id).attempts[id]? = some a') :
    a'.terms? = a.terms? ∨ a'.terms? = some ⟨a.idleTimeout, (f.termsOf a.client).window⟩ := by
  have hopened : ∀ b, (f.openSession id a).2.attempts[id]? = some b →
      b.terms? = a.terms? ∨ b.terms? = some ⟨a.idleTimeout, (f.termsOf a.client).window⟩ :=
    fun b hb => openSession_terms ha hb
  have hattempt : ∃ b, (f.openSession id a).2.attempts[id]? = some b := by
    have hacts : f.Acts (fun _ => True) (f.openSession id a).2 := acts_openSession f id a
    obtain ⟨downs, hlife⟩ := hacts
    obtain ⟨b, hb, -⟩ := hlife.attempt ha
    exact ⟨b, hb⟩
  obtain ⟨b, hb⟩ := hattempt
  have hb' := hopened b hb
  unfold construct at ha'
  simp only [ha] at ha'
  split at ha'
  · rename_i cause f' heq
    rw [heq] at hb
    rwa [(sameTerms_abort f' id cause).attempt hb ha']
  · rename_i f' heq
    rw [heq] at hb
    have hmarked : f'.SameTerms (modify (f'.modifyConnector a.run (·.markOpened id)) id
        fun a => { a with stage := .carrying .running }) :=
      sameTerms_modify fun _ _ => rfl
    rwa [hmarked.attempt hb ha']

theorem establish_terms {a a' : Attempt codec} {engine : Except Fault Unit}
    (ha : f.attempts[id]? = some a) (ha' : (f.establish id engine).attempts[id]? = some a') :
    a'.terms? = a.terms? ∨ a'.terms? = some ⟨a.idleTimeout, (f.termsOf a.client).window⟩ := by
  unfold establish at ha'
  simp only [ha] at ha'
  split at ha'
  · exact construct_terms ha ha'
  · exact Or.inl ((sameTerms_abort f id _).attempt ha ha')
  · have hsecuring : f.SameTerms (modify { f with
        negotiations := f.negotiations.put id (f.clientOf a).negotiator } id
        fun a => { a with stage := .securing }) :=
      sameTerms_modify fun _ _ => rfl
    exact Or.inl (hsecuring.attempt ha ha')
  · exact Or.inl (congrArg Attempt.terms? (Option.some.inj (ha'.symm.trans ha)))

theorem secured_terms {a a' : Attempt codec} {handshake : Except Fault (Option Bytes)}
    (ha : f.attempts[id]? = some a) (ha' : (f.secured id handshake).attempts[id]? = some a') :
    a'.terms? = a.terms? ∨ a'.terms? = some ⟨a.idleTimeout, (f.termsOf a.client).window⟩ := by
  unfold secured at ha'
  simp only [ha] at ha'
  split at ha'
  · exact Or.inl ((sameTerms_abort f id _).attempt ha ha')
  · rename_i hstage
    -- The handshake has moved bytes and its negotiator is taken; neither has to do with terms.
    let g : Factory codec := { f.touch id with negotiations := ((f.touch id).negotiations.take id).2 }
    have htouched : f.SameTerms g ∧ g.termsOf = f.termsOf := by
      show f.SameTerms (f.touch id) ∧ (f.touch id).termsOf = _
      unfold touch
      simp only [ha]
      exact ⟨sameTerms_modify fun _ _ => rfl, rfl⟩
    have hbeside : f.Beside (fun _ => True) (f.touch id) := beside_touch f id
    obtain ⟨b, hb, hon⟩ := hbeside.attempts id a ha
    have hb' : g.attempts[id]? = some b := hb
    have hterms := htouched.1.attempt ha hb'
    obtain ⟨-, htimeout⟩ := hon.timeout (by rw [hstage]; rfl)
    have habort : ∀ cause, (g.abort id cause).attempts[id]? = some a' → a'.terms? = a.terms? :=
      fun cause h => ((sameTerms_abort g id cause).attempt hb' h).trans hterms
    split at ha'
    · exact Or.inl (habort _ ha')
    · split at ha'
      · exact Or.inl (habort _ ha')
      · have hconstructed := construct_terms hb' ha'
        rwa [hterms, htimeout, hon.client, htouched.2] at hconstructed
  · exact Or.inl (congrArg Attempt.terms? (Option.some.inj (ha'.symm.trans ha)))

/-- A session is made when a plain socket goes on or when a handshake has ended. -/
theorem made_terms {a a' : Attempt codec} {e : Event}
    (he : (∃ engine, e = .establish id engine) ∨ ∃ handshake, e = .secured id handshake)
    (ha : f.attempts[id]? = some a) (ha' : (f.after e).attempts[id]? = some a') :
    a'.terms? = a.terms? ∨ a'.terms? = some ⟨a.idleTimeout, (f.termsOf a.client).window⟩ := by
  rcases he with ⟨engine, rfl⟩ | ⟨handshake, rfl⟩
  · exact establish_terms ha ha'
  · exact secured_terms ha ha'

/-! ### A connect from beginning to end -/

theorem config_start (f : Factory codec) (executor : Except Fault Unit) :
    (f.start executor).2.config = f.config := by
  unfold start
  split <;> rfl

theorem outlasts_config : Outlasts fun f : Factory codec => f.config where
  connector _ _ _ := rfl
  scheduler _ _ := rfl
  fail f id cause := refuse_same config (fun _ _ _ _ _ => rfl) f id (.failed cause)
  close _ _ := rfl

theorem config_stop (f : Factory codec) : f.stop.2.config = f.config :=
  outlasts_config.stop (call_same config fun _ _ _ => rfl) (fun _ _ _ => rfl) f

/-- Nobody changes how a factory is configured. -/
theorem Life.config {used : Nat → Prop} (h : Life used f answers f') : f'.config = f.config := by
  induction h with
  | refl => rfl
  | @start answers f' h executor ih => exact (config_start f' executor).trans ih
  | @stop answers f' h ih => exact (config_stop f').trans ih
  | beside h hbeside ih => exact hbeside.config.trans ih

/-- **The terms of a session.** A connect is called; sometime later, while it is dialing, its socket is
connected; later again its session is made. Whatever happens in between, and whoever changes settings:
the session has the idle timeout that the client asked for when the socket was connected, and starts
with the window that the client asked for when the session was made. They are the terms of the moment
of the call if the client has the same settings again at these two moments. -/
theorem terms_of_made_session {client : Nat} {peer : Address} {listener : Session.Listener}
    {socket : Except Fault Unit} {answers answers' : List Answer} {remote : Address} {e : Event}
    {a b c : Attempt codec} {terms : Terms}
    (hconnect : f.connect client peer listener socket = (.ok id, f₁))
    (hdialing : Life (fun _ => True) f₁ answers f₂) (ha : f₂.attempts[id]? = some a)
    (hstage : a.stage.isDialing = true)
    (hlater : Life (fun _ => True) (f₂.dialed id (.ok remote)) answers' f₃)
    (hb : f₃.attempts[id]? = some b) (hnone : b.terms? = none)
    (he : (∃ engine, e = .establish id engine) ∨ ∃ handshake, e = .secured id handshake)
    (hc : (f₃.after e).attempts[id]? = some c) (hmade : c.terms? = some terms) :
    terms = ⟨(f₂.termsOf client).idleTimeout, (f₃.termsOf client).window⟩ ∧
    (f₂.clients[client]? = f.clients[client]? → f₃.clients[client]? = f.clients[client]? →
      terms = f.termsOf client) := by
  obtain ⟨-, a₁, ha₁, -, hclient⟩ := connect_ok hconnect
  obtain ⟨a', ha', hon⟩ := hdialing.attempt ha₁
  obtain rfl := Option.some.inj (ha'.symm.trans ha)
  obtain ⟨d, hd, hdclient, hdstage, hdtimeout⟩ := dialed_terms ha hstage remote
  obtain ⟨b', hb', hon'⟩ := hlater.attempt hd
  obtain rfl := Option.some.inj (hb'.symm.trans hb)
  have hclients : b'.client = client := by
    rw [hon'.client, hdclient, hon.client, hclient]
  have htimeout : b'.idleTimeout = (f₂.termsOf client).idleTimeout := by
    rw [(hon'.timeout hdstage).2, hdtimeout, hon.client, hclient]
  have hterms : terms = ⟨(f₂.termsOf client).idleTimeout, (f₃.termsOf client).window⟩ := by
    rcases made_terms he hb hc with hsame | hsome
    · rw [hmade, hnone] at hsame
      cases hsame
    · rw [hmade, htimeout, hclients] at hsome
      exact Option.some.inj hsome
  refine ⟨hterms, fun hsame hsame' => ?_⟩
  have hconfig : f₁.config = f.config := by
    have hbeside : f.Beside (fun _ => True) (f.connect client peer listener socket).2 :=
      beside_connect trivial client peer listener socket
    rw [hconnect] at hbeside
    exact hbeside.config
  have hconfig₂ : f₂.config = f.config := hdialing.config.trans hconfig
  have hconfig₃ : f₃.config = f.config := by
    have hdialed : f₂.Beside (fun _ => True) (f₂.dialed id (.ok remote)) :=
      beside_dialed (fun _ _ => trivial) _
    exact hlater.config.trans (hdialed.config.trans hconfig₂)
  rw [hterms]
  simp only [Factory.termsOf, idleTimeout, hsame, hsame', hconfig₂, hconfig₃]

/-- A client is made more patient after it has connected, and its window is changed. -/
def patient (c : Client) : Client :=
  { c with idleTimeout := some .zero, window := 7 }

/-- The connect is called before that, and its socket is connected after it. -/
def changed : Factory .identity :=
  ((started.connect 0 host .silent (.ok ())).2.configure 0 patient).dialed 0 (.ok host)

theorem terms_of_changed :
    ∃ c terms, (changed.after (.establish 0 (.ok ()))).attempts[0]? = some c ∧
      c.terms? = some terms ∧ terms = ⟨.zero, 7⟩ := by
  have hconnect : started.connect 0 host .silent (.ok ()) =
      (.ok 0, (started.connect 0 host .silent (.ok ())).2) := rfl
  have hlife : Life (fun _ => True) (started.connect 0 host .silent (.ok ())).2 []
      ((started.connect 0 host .silent (.ok ())).2.configure 0 patient) :=
    Life.refl.beside (beside_configure _ 0 patient)
  have hlater : Life (fun _ => True)
      (((started.connect 0 host .silent (.ok ())).2.configure 0 patient).dialed 0 (.ok host)) []
      changed := .refl
  have hterms := (terms_of_made_session hconnect hlife rfl rfl hlater rfl rfl
    (Or.inl ⟨.ok (), rfl⟩) rfl rfl).1
  exact ⟨_, _, rfl, rfl, hterms⟩

/-- It would be the terms of the call if the settings of a client were taken down then. -/
def TermsOfCall (codec : HeaderCodec) : Prop :=
  ∀ {f f₁ f₂ : Factory codec} {client : Nat} {peer : Address} {listener : Session.Listener}
    {socket : Except Fault Unit} {id : ChannelId} {answers : List Answer} (e : Event)
    {b c : Attempt codec} {terms : Terms},
    f.connect client peer listener socket = (.ok id, f₁) → Life (fun _ => True) f₁ answers f₂ →
    f₂.attempts[id]? = some b → b.terms? = none →
    (f₂.after e).attempts[id]? = some c → c.terms? = some terms → terms = f.termsOf client

theorem not_termsOfCall : ¬TermsOfCall .identity := by
  intro hclaim
  have hconnect : started.connect 0 host .silent (.ok ()) =
      (.ok 0, (started.connect 0 host .silent (.ok ())).2) := rfl
  have hlife : Life (fun _ => True) (started.connect 0 host .silent (.ok ())).2 [] changed :=
    (Life.refl.beside (beside_configure _ 0 patient)).beside (beside_dialed (fun _ _ => trivial) _)
  have hterms := hclaim (.establish 0 (.ok ())) hconnect hlife rfl rfl rfl rfl
  exact absurd hterms (by decide)

end Factory

end SpdySessions
