import SpdySessions.Proofs.Ascii
import SpdySessions.Proofs.Factory.Handlers

/-! Negotiation. A handler takes the protocol of one client and no other, and the name that the server has
chosen is read as text, with replacements where it is none: so a handshake leads to a session only if the
server has chosen this protocol, byte for byte. The handlers are in order along every course in which
clients keep their versions, as they do; what was made of the handler's answer is then read off the end of
the handshake. -/

namespace SpdySessions

namespace Version

/-- The name under which the version is negotiated, as it is sent. -/
def name (v : Version) : Bytes :=
  Utf8.plainBytes v.protocol.toList

example : v3.name = [0x73, 0x70, 0x64, 0x79, 0x2F, 0x33] := by decide

end Version

namespace Factory

variable {codec : HeaderCodec} {f f' : Factory codec} {id other : ChannelId}

/-! ### Courses of clients that keep their versions -/

/-- The settings of a client may be changed, its version may not. -/
def Event.KeepsVersions : Event → Prop
  | .configure _ change => ∀ c, (change c).version = c.version
  | _ => True

/-- One step: a client that there is connects, or something else happens. -/
inductive FaithfulStep (f : Factory codec) : Factory codec → Prop
  | registered {run client : Nat} {peer : Address} {listener : Session.Listener}
      (hclient : client < f.clients.length) : FaithfulStep f (f.register run client peer listener).2
  | connected {client : Nat} {peer : Address} {listener : Session.Listener}
      {socket : Except Fault Unit} (hclient : client < f.clients.length) :
      FaithfulStep f (f.connect client peer listener socket).2
  | event (e : Event) (he : e.KeepsVersions) : FaithfulStep f (f.after e)

/-- Such steps one after the other. -/
inductive FaithfulCourse (f : Factory codec) : Factory codec → Prop
  | refl : FaithfulCourse f f
  | step {f' f'' : Factory codec} (h : FaithfulCourse f f') (hstep : FaithfulStep f' f'') :
      FaithfulCourse f f''

theorem FaithfulStep.step (h : FaithfulStep f f') : ∃ new, Step f new f' := by
  cases h with
  | @registered run client peer listener _ =>
      cases heq : f.register run client peer listener with
      | mk result f' =>
          cases result with
          | error cause => exact ⟨_, .refused heq⟩
          | ok _ => exact ⟨_, .registered heq⟩
  | @connected client peer listener socket _ =>
      cases heq : f.connect client peer listener socket with
      | mk result f' =>
          cases result with
          | error cause => exact ⟨_, .unconnected heq⟩
          | ok id => exact ⟨_, .connected heq⟩
  | event e _ => exact ⟨_, .event e⟩

theorem FaithfulCourse.course (h : FaithfulCourse f f') : ∃ accepted, Course f accepted f' := by
  induction h with
  | refl => exact ⟨_, .refl⟩
  | step h hstep ih =>
      obtain ⟨accepted, hcourse⟩ := ih
      obtain ⟨new, hstep⟩ := hstep.step
      exact ⟨_, hcourse.step hstep⟩

/-- Every attempt has the handler that it should have, and is one of a client that there is. -/
structure Attended (f : Factory codec) : Prop where
  once : f.negotiations.Once
  suits : ∀ id, f.Suits id
  owners : ∀ client ∈ f.attempts.map Attempt.client, client < f.clients.length

theorem Attended.minds (h : f.Attended) (hminds : Minds id f f') (hsuits : f'.Suits id) :
    f'.Attended where
  once := hminds.once h.once
  suits := by
    intro other
    by_cases hother : other = id
    · exact hother ▸ hsuits
    · rw [Suits, hminds.handlers other hother, hminds.due? hother]
      exact h.suits other
  owners := by
    rw [hminds.owners, hminds.clients]
    exact h.owners

theorem Attended.of_desk (h : f.Attended) (hdesk : f'.desk = f.desk) : f'.Attended :=
  h.minds (minds_of_desk hdesk) ((h.suits 0).of_desk hdesk)

theorem desk_onComplete (f : Factory codec) (id : ChannelId) (callback : Callback) :
    (f.onComplete id callback.toProgram callback.retreats).desk = f.desk := by
  unfold onComplete
  split
  · rfl
  · dsimp only
    split
    · exact desk_modify f id fun _ => rfl
    · exact unmoved_desk.runCallback id f callback
    · exact desk_modify f id fun _ => rfl

/-- What happens to an attempt has to do with its own handler, -/
theorem minds_of_attempt {e : Event} (he : e.attempt? = some id) (f : Factory codec) :
    Minds id f (f.after e) := by
  cases e with
  | onComplete _ callback => exact minds_of_desk (desk_onComplete f _ callback)
  | call _ c => exact minds_of_desk (unmoved_desk.call f _ c)
  | cancel _ => exact minds_of_desk (unmoved_desk.cancel f _)
  | close _ => exact minds_of_desk (unmoved_desk.close f _)
  | noticeClosed _ => obtain rfl := Option.some.inj he; exact minds_noticeClosed f _
  | dialed _ answer => obtain rfl := Option.some.inj he; exact minds_dialed f _ answer
  | establish _ engine => obtain rfl := Option.some.inj he; exact minds_establish f _ engine
  | secured _ handshake => obtain rfl := Option.some.inj he; exact minds_secured f _ handshake
  | turn _ socket => obtain rfl := Option.some.inj he; exact minds_turn f _ socket
  | _ => cases he

/-- and leaves it the right one. -/
theorem Suits.of_attempt {e : Event} (he : e.attempt? = some id) (h : f.Suits id) :
    (f.after e).Suits id := by
  cases e with
  | onComplete _ callback => exact h.of_desk (desk_onComplete f _ callback)
  | call _ c => exact h.of_desk (unmoved_desk.call f _ c)
  | cancel _ => exact h.of_desk (unmoved_desk.cancel f _)
  | close _ => exact h.of_desk (unmoved_desk.close f _)
  | noticeClosed _ => obtain rfl := Option.some.inj he; exact h.noticeClosed
  | dialed _ answer => obtain rfl := Option.some.inj he; exact h.dialed answer
  | establish _ engine => obtain rfl := Option.some.inj he; exact h.establish engine
  | secured _ handshake => obtain rfl := Option.some.inj he; exact h.secured handshake
  | turn _ socket => obtain rfl := Option.some.inj he; exact h.turn socket
  | _ => cases he

theorem desk_start (f : Factory codec) (executor : Except Fault Unit) :
    (f.start executor).2.desk = f.desk := by
  unfold start
  split <;> rfl

theorem desk_retire (f : Factory codec) : f.retire.desk = f.desk :=
  foldl_same desk (farewell_same desk unmoved_desk.call) f.sessions f

/-- The clients of attempts keep their versions. -/
theorem Attended.configured (h : f.Attended) {clients : List Client}
    (hlength : f.clients.length ≤ clients.length)
    (hversion : ∀ (client : Nat) c, f.clients[client]? = some c →
      ∃ c', clients[client]? = some c' ∧ c'.version = c.version) :
    Attended { f with clients := clients } where
  once := h.once
  suits := by
    intro id
    show f.negotiations.get? id = _
    rw [h.suits id, due?, due?]
    cases ha : f.attempts[id]? with
    | none => rfl
    | some a =>
        have howner := h.owners a.client (List.mem_map_of_mem (List.mem_of_getElem? ha))
        obtain ⟨c', hc', hsame⟩ := hversion a.client _ (List.getElem?_eq_getElem howner)
        rw [Option.bind_some, Option.bind_some, clientOf, clientOf, List.getElem?_eq_getElem howner, hc',
          Option.getD_some, Option.getD_some, Client.negotiator, Client.negotiator, hsame]
  owners := fun client hclient => Nat.lt_of_lt_of_le (h.owners client hclient) hlength

theorem Attended.newClient (h : f.Attended) (number : UInt16) : (f.newClient number).2.Attended := by
  unfold Factory.newClient
  split
  · exact h
  · refine h.configured (by simp) fun client c hc => ⟨c, ?_, rfl⟩
    rw [List.getElem?_append_left (List.getElem?_eq_some_iff.mp hc).1, hc]

theorem Attended.configure (h : f.Attended) (client : Nat) {change : Client → Client}
    (hchange : ∀ c, (change c).version = c.version) : (f.configure client change).Attended := by
  refine h.configured (by simp) fun other c hc => ?_
  refine ⟨if client = other then change c else c, ?_, ?_⟩
  · rw [List.getElem?_modify, hc]
    rfl
  · split
    · exact hchange c
    · rfl

/-- A newcomer does not negotiate yet. -/
theorem Attended.register (h : f.Attended) {run client : Nat} (hclient : client < f.clients.length)
    (peer : Address) (listener : Session.Listener) :
    (f.register run client peer listener).2.Attended := by
  cases heq : f.register run client peer listener with
  | mk result f' =>
      obtain ⟨stage, connectors, rfl, hstage, -⟩ := register_eq heq
      refine ⟨h.once, fun id => ?_, fun owner howner => ?_⟩
      · show f.negotiations.get? id = _
        rw [h.suits id, due?, due?]
        rcases Nat.lt_trichotomy id f.attempts.length with hlt | rfl | hgt
        · rw [List.getElem?_append_left hlt]
          rfl
        · rw [List.getElem?_concat_length, List.getElem?_eq_none (Nat.le_refl _)]
          rcases hstage with ⟨-, rfl⟩ | ⟨-, rfl⟩ <;> rfl
        · rw [List.getElem?_eq_none (Nat.le_of_lt hgt), List.getElem?_eq_none]
          · rfl
          · rw [List.length_append]
            exact hgt
      · rw [List.map_append, List.mem_append] at howner
        rcases howner with howner | howner
        · exact h.owners owner howner
        · rw [List.mem_singleton.mp howner]
          exact hclient

theorem Attended.connect (h : f.Attended) {client : Nat} (hclient : client < f.clients.length)
    (peer : Address) (listener : Session.Listener) (socket : Except Fault Unit) :
    (f.connect client peer listener socket).2.Attended := by
  have hregistered : (f.register f.latestRun client peer listener).2.Attended :=
    h.register hclient peer listener
  unfold Factory.connect
  split
  · split
    · exact h
    · dsimp only
      split
      · rename_i heq
        rw [heq] at hregistered
        exact hregistered.of_desk (unmoved_desk.close _ _)
      · rename_i heq
        rw [heq] at hregistered
        exact hregistered
  · exact h

/-- Clients are made and change their settings. -/
def Event.isOfClients : Event → Bool
  | .newClient _ => true
  | .configure _ _ => true
  | _ => false

/-- Whatever else happens has nothing to do with negotiation. -/
theorem desk_after {e : Event} (hid : e.attempt? = none) (hclients : e.isOfClients = false)
    (f : Factory codec) : (f.after e).desk = f.desk := by
  cases e with
  | newClient | configure => cases hclients
  | start executor => exact desk_start f executor
  | markStopping => rfl
  | retire => exact desk_retire f
  | takeDown component => exact unmoved_desk.takeDown f component
  | stopConnector run =>
      exact stopConnector_same desk unmoved_desk.connector unmoved_desk.fail unmoved_desk.close f run
  | markStopped => rfl
  | stop => exact unmoved_desk.stop unmoved_desk.call unmoved_desk.own f
  | drop => exact unmoved_desk.takeAllDown f
  | pass span => rfl
  | fire run => exact desk_fire f run
  | onComplete | call | cancel | close | noticeClosed | dialed | establish | secured | turn => cases hid

theorem Attended.after (h : f.Attended) {e : Event} (he : e.KeepsVersions) : (f.after e).Attended := by
  cases hid : e.attempt? with
  | some id => exact h.minds (minds_of_attempt hid f) ((h.suits id).of_attempt hid)
  | none =>
      cases hclients : e.isOfClients with
      | false => exact h.of_desk (desk_after hid hclients f)
      | true =>
          cases e with
          | newClient number => exact h.newClient number
          | configure client change => exact h.configure client he
          | _ => cases hclients

theorem security_after (f : Factory codec) (e : Event) : (f.after e).security = f.security := by
  cases hid : e.attempt? with
  | some id => exact (minds_of_attempt hid f).security
  | none =>
      cases hclients : e.isOfClients with
      | false => exact congrArg (·.2.1) (desk_after hid hclients f)
      | true =>
          cases e with
          | newClient number =>
              show (f.newClient number).2.security = f.security
              unfold newClient
              split <;> rfl
          | configure client change => rfl
          | _ => cases hclients

theorem security_register (f : Factory codec) (run client : Nat) (peer : Address)
    (listener : Session.Listener) : (f.register run client peer listener).2.security = f.security := by
  cases heq : f.register run client peer listener with
  | mk result f' =>
      obtain ⟨stage, connectors, rfl, -⟩ := register_eq heq
      rfl

theorem security_connect (f : Factory codec) (client : Nat) (peer : Address)
    (listener : Session.Listener) (socket : Except Fault Unit) :
    (f.connect client peer listener socket).2.security = f.security := by
  have hregistered := f.security_register f.latestRun client peer listener
  unfold connect
  split
  · split
    · rfl
    · dsimp only
      split <;> (rename_i heq; rw [heq] at hregistered; exact hregistered)
  · rfl

theorem FaithfulStep.attended (hstep : FaithfulStep f f') (h : f.Attended) :
    f'.Attended ∧ f'.security = f.security := by
  cases hstep with
  | registered hclient => exact ⟨h.register hclient _ _, f.security_register _ _ _ _⟩
  | connected hclient => exact ⟨h.connect hclient _ _ _, f.security_connect _ _ _ _⟩
  | event e he => exact ⟨h.after he, f.security_after e⟩

theorem FaithfulCourse.attended (hcourse : FaithfulCourse f f') (h : f.Attended) :
    f'.Attended ∧ f'.security = f.security := by
  induction hcourse with
  | refl => exact ⟨h, rfl⟩
  | step _ hstep ih =>
      obtain ⟨hattended, hsecurity⟩ := hstep.attended ih.1
      exact ⟨hattended, hsecurity.trans ih.2⟩

/-! ### The end of a handshake -/

theorem attempts_heard {a : Attempt codec} (ha : f.attempts[id]? = some a) :
    ∃ lastActivity, (f.heard id).attempts[id]? = some { a with lastActivity := lastActivity } := by
  refine ⟨((f.schedulers[a.run]?).map (·.now)).getD a.lastActivity, ?_⟩
  have htouch : f.touch id = f.modify id fun a' => { a' with
      lastActivity := ((f.schedulers[a.run]?).map (·.now)).getD a'.lastActivity } := by
    simp only [touch, ha]
  rw [heard, htouch]
  exact attempts_modify_self ha _

/-- A factory with TLS. -/
def guarded : Factory .identity :=
  { unused with security := .tls none }

end Factory

end SpdySessions
