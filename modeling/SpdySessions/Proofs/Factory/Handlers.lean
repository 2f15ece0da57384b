import Mathlib.Data.List.Nodup
import SpdySessions.Proofs.Factory.Beside
import SpdySessions.Proofs.Factory.Construction

/-! Handlers. While an attempt is negotiating, and only then, there should be one handler in its name, the
one of its client. Whatever happens to an attempt has to do with its own handler at most, whatever
callbacks do with none; so it is enough to see that each step leaves the attempt itself the handler that
it should have: the handshake brings it, and whatever ends the handshake takes it away. -/

namespace SpdySessions

namespace Negotiations

variable {ns : Negotiations} {id other : ChannelId} {handler : Negotiator}

/-- No channel has two handlers. -/
def Once (ns : Negotiations) : Prop :=
  (ns.handlers.map Prod.fst).Nodup

theorem get?_erase_self (ns : Negotiations) (id : ChannelId) : (ns.erase id).get? id = none := by
  rw [get?, erase, Option.map_eq_none_iff, List.find?_eq_none]
  intro entry hentry
  have hne := (List.mem_filter.mp hentry).2
  simpa using hne

theorem get?_erase_of_ne (ns : Negotiations) (h : other ≠ id) :
    (ns.erase id).get? other = ns.get? other := by
  rw [get?, erase, List.find?_filter, get?]
  congr 2
  funext entry
  by_cases hentry : entry.1 = other <;> simp [hentry, h]

theorem get?_put_self (ns : Negotiations) (id : ChannelId) (handler : Negotiator) :
    (ns.put id handler).get? id = some handler := by
  have hnone := Option.map_eq_none_iff.mp (ns.get?_erase_self id)
  simp [get?, put, hnone]

theorem get?_put_of_ne (ns : Negotiations) (h : other ≠ id) (handler : Negotiator) :
    (ns.put id handler).get? other = ns.get? other := by
  rw [← ns.get?_erase_of_ne h]
  simp [get?, put, Ne.symm h]

theorem Once.erase (h : ns.Once) (id : ChannelId) : (ns.erase id).Once :=
  h.sublist (List.filter_sublist.map Prod.fst)

theorem Once.put (h : ns.Once) (id : ChannelId) (handler : Negotiator) : (ns.put id handler).Once := by
  rw [Once, Negotiations.put, List.map_append, List.nodup_append]
  refine ⟨h.erase id, by simp, ?_⟩
  intro other hother last hlast hsame
  obtain ⟨entry, hentry, rfl⟩ := List.mem_map.mp hother
  have hne := (List.mem_filter.mp hentry).2
  simp only [List.map_cons, List.map_nil, List.mem_singleton] at hlast
  simp [hsame.trans hlast] at hne

end Negotiations

namespace Stage

def isSecuring : Stage → Bool
  | securing => true
  | _ => false

end Stage

namespace Factory

variable {codec : HeaderCodec} {f f' f'' : Factory codec} {id other : ChannelId}

/-! ### Handlers and attempts -/

/-- The handler that there should be: the client's, while the attempt is negotiating. -/
def due? (f : Factory codec) (id : ChannelId) : Option Negotiator :=
  (f.attempts[id]?).bind fun a => if a.stage.isSecuring then some (f.clientOf a).negotiator else none

/-- There is the handler of an attempt that there should be. -/
def Suits (f : Factory codec) (id : ChannelId) : Prop :=
  f.negotiations.get? id = f.due? id

/-- What matters for handlers: who there is, how far every attempt is, and whose it is. -/
def desk (f : Factory codec) : Negotiations × Security × List Client × List (Stage × Nat) :=
  (f.negotiations, f.security, f.clients, f.attempts.map fun a => (a.stage, a.client))

theorem due?_eq (f : Factory codec) (id : ChannelId) :
    f.due? id = (f.desk.2.2.2[id]?).bind fun (stage, client) =>
      if stage.isSecuring then some ((f.desk.2.2.1[client]?).getD { version := .v3 }).negotiator
      else none := by
  simp only [due?, desk, List.getElem?_map, Option.bind_map]
  rfl

theorem due?_congr (h : f'.desk = f.desk) : f'.due? = f.due? := by
  funext id
  rw [due?_eq, due?_eq, h]

theorem desk_modify {change : Attempt codec → Attempt codec} (f : Factory codec) (id : ChannelId)
    (hsame : ∀ a, ((change a).stage, (change a).client) = (a.stage, a.client)) :
    (f.modify id change).desk = f.desk := by
  have hattempts : (f.attempts.modify id change).map (fun a => (a.stage, a.client)) =
      f.attempts.map fun a => (a.stage, a.client) := map_modify_same hsame id f.attempts
  rw [desk, modify, hattempts]
  rfl

theorem desk_refuse (f : Factory codec) (id : ChannelId) (outcome : Outcome SessionId) :
    (f.refuse id outcome).2.desk = f.desk :=
  refuse_same desk (fun f id _ _ _ => desk_modify f id fun _ => rfl) f id outcome

theorem desk_setEndpoint (f : Factory codec) (id : ChannelId) (e : Endpoint codec) :
    (f.setEndpoint id e).desk = f.desk :=
  desk_modify { f with pool := e.pool } id fun _ => rfl

/-- Callbacks negotiate nothing. -/
theorem unmoved_desk : Unmoved (desk : Factory codec → _) where
  connector := fun _ _ _ => rfl
  scheduler := fun _ _ => rfl
  fail := fun f id cause => desk_refuse f id (.failed cause)
  close := fun f id => desk_modify f id fun _ => rfl
  call := call_same desk desk_setEndpoint
  own := fun _ _ _ => rfl
  cancel := cancel_same desk (fun f id => desk_refuse f id .cancelled)
    fun f id => desk_modify f id fun _ => rfl
  note := fun f id _ => desk_modify f id fun _ => rfl

/-- An attempt has to do with its own handler at most. -/
structure Minds (id : ChannelId) (f f' : Factory codec) : Prop where
  security : f'.security = f.security
  clients : f'.clients = f.clients
  owners : f'.attempts.map Attempt.client = f.attempts.map Attempt.client
  stages : ∀ other, other ≠ id →
    (f'.attempts[other]?).map Attempt.stage = (f.attempts[other]?).map Attempt.stage
  once : f.negotiations.Once → f'.negotiations.Once
  handlers : ∀ other, other ≠ id → f'.negotiations.get? other = f.negotiations.get? other

theorem Minds.trans (h : Minds id f f') (h' : Minds id f' f'') : Minds id f f'' where
  security := h'.security.trans h.security
  clients := h'.clients.trans h.clients
  owners := h'.owners.trans h.owners
  stages := fun other hother => (h'.stages other hother).trans (h.stages other hother)
  once := fun honce => h'.once (h.once honce)
  handlers := fun other hother => (h'.handlers other hother).trans (h.handlers other hother)

theorem minds_of_desk (h : f'.desk = f.desk) : Minds id f f' := by
  simp only [desk, Prod.mk.injEq] at h
  obtain ⟨hnegotiations, hsecurity, hclients, hattempts⟩ := h
  refine ⟨hsecurity, hclients, ?_, fun other _ => ?_, fun honce => hnegotiations ▸ honce,
    fun other _ => by rw [hnegotiations]⟩
  · simpa [Function.comp_def] using congrArg (List.map Prod.snd) hattempts
  · have hother := congrArg (fun posts => (posts[other]?).map Prod.fst) hattempts
    simpa [Function.comp_def] using hother

theorem minds_modify {change : Attempt codec → Attempt codec} (f : Factory codec) (id : ChannelId)
    (hclient : ∀ a, (change a).client = a.client) :
    Minds id f (f.modify id change) where
  security := rfl
  clients := rfl
  owners := map_modify_same hclient id f.attempts
  stages := by
    intro other hother
    rw [attempts_modify, Option.map_map]
    refine Option.map_congr fun a _ => ?_
    simp [Ne.symm hother]
  once := fun honce => honce
  handlers := fun _ _ => rfl

theorem minds_negotiations {negotiations : Negotiations}
    (honce : f.negotiations.Once → negotiations.Once)
    (hhandlers : ∀ other, other ≠ id → negotiations.get? other = f.negotiations.get? other) :
    Minds id f { f with negotiations := negotiations } where
  security := rfl
  clients := rfl
  owners := rfl
  stages := fun _ _ => rfl
  once := honce
  handlers := hhandlers

theorem Minds.clientOf (h : Minds id f f') {a a' : Attempt codec} (hclient : a'.client = a.client) :
    f'.clientOf a' = f.clientOf a := by
  rw [Factory.clientOf, h.clients, hclient, ← Factory.clientOf]

/-- What others should have does not change. -/
theorem Minds.due? (h : Minds id f f') (hother : other ≠ id) : f'.due? other = f.due? other := by
  have hstage := h.stages other hother
  have hclient := congrArg (fun clients => clients[other]?) h.owners
  simp only [List.getElem?_map] at hclient
  unfold Factory.due?
  cases ha : f.attempts[other]? with
  | none =>
      rw [ha, Option.map_none, Option.map_eq_none_iff] at hstage
      rw [hstage]
      rfl
  | some a =>
      rw [ha, Option.map_some] at hstage hclient
      obtain ⟨a', ha', hstage'⟩ := Option.map_eq_some_iff.mp hstage
      rw [ha', Option.map_some] at hclient
      rw [ha', Option.bind_some, Option.bind_some, hstage', h.clientOf (Option.some.inj hclient)]

theorem Suits.of_desk (h : f.Suits id) (hdesk : f'.desk = f.desk) : f'.Suits id := by
  have hsame : f'.negotiations = f.negotiations := congrArg Prod.fst hdesk
  rw [Suits, due?_congr hdesk, hsame]
  exact h

theorem due?_of_attempt {a : Attempt codec} (ha : f.attempts[id]? = some a) :
    f.due? id = if a.stage.isSecuring then some (f.clientOf a).negotiator else none := by
  rw [due?, ha, Option.bind_some]

/-- An attempt that does not negotiate should have no handler. -/
theorem due?_eq_none (h : ∀ a, f.attempts[id]? = some a → a.stage.isSecuring = false) :
    f.due? id = none := by
  cases ha : f.attempts[id]? with
  | none => rw [due?, ha, Option.bind_none]
  | some a => rw [due?_of_attempt ha, h a ha, if_neg (by decide)]

/-! ### Ends -/

theorem minds_finish (f : Factory codec) (id : ChannelId) : Minds id f (f.finish id) := by
  have herased : Minds id (f.close id).2
      { (f.close id).2 with negotiations := (f.close id).2.negotiations.erase id } :=
    minds_negotiations (fun honce => honce.erase id)
      fun other hother => Negotiations.get?_erase_of_ne _ hother
  have hmodified : Minds id f (f.close id).2 := minds_modify f id fun _ => rfl
  have hclosed := hmodified.trans herased
  unfold finish
  dsimp only
  refine Minds.trans ?_ (minds_modify _ id fun _ => rfl)
  split
  · exact hclosed
  · exact hclosed.trans (minds_of_desk rfl)

/-- A finished attempt has no handler. -/
theorem suits_finish (f : Factory codec) (id : ChannelId) : (f.finish id).Suits id := by
  have hnone : (f.finish id).negotiations.get? id = none := by
    unfold finish
    dsimp only
    split <;> exact Negotiations.get?_erase_self _ id
  rw [Suits, hnone, due?_eq_none]
  intro a ha
  rw [attempts_finish] at ha
  obtain ⟨b, -, rfl⟩ := Option.map_eq_some_iff.mp ha
  rw [if_pos rfl]
  rfl

theorem minds_abort (f : Factory codec) (id : ChannelId) (cause : Fault) :
    Minds id f (f.abort id cause) :=
  (minds_of_desk (desk_refuse f id _)).trans (minds_finish _ id)

theorem suits_abort (f : Factory codec) (id : ChannelId) (cause : Fault) :
    (f.abort id cause).Suits id :=
  suits_finish _ id

/-! ### Steps -/

theorem desk_touch (f : Factory codec) (id : ChannelId) : (f.touch id).desk = f.desk := by
  unfold touch
  split
  · rfl
  · exact desk_modify f id fun _ => rfl

theorem desk_plans (h : f.Plans id f') : f'.desk = f.desk := by
  cases h with
  | nothing => rfl
  | look => rfl

theorem desk_arm (f : Factory codec) (id : ChannelId) : (f.arm id).desk = f.desk :=
  desk_plans (plans_arm f id)

theorem desk_look (f : Factory codec) (id : ChannelId) (now : Nat) : (f.look id now).desk = f.desk := by
  cases hidles : f.idles id now with
  | true => exact look_of_idles hidles ▸ desk_modify f id fun _ => rfl
  | false => exact desk_plans (plans_look hidles)

theorem desk_fire (f : Factory codec) (run : Nat) : (f.fire run).desk = f.desk := by
  unfold fire
  split
  · rfl
  · split
    · rfl
    · exact desk_look _ _ _

theorem desk_sessionClosed (f : Factory codec) (session : SessionId) :
    (f.sessionClosed session).2.desk = f.desk := by
  unfold sessionClosed
  split <;> rfl

theorem desk_openSession (f : Factory codec) (id : ChannelId) (a : Attempt codec) :
    (f.openSession id a).2.desk = f.desk := by
  unfold openSession sessionOpened
  dsimp only
  split
  · rename_i heq
    split at heq
    · cases heq
    · obtain ⟨-, rfl⟩ := Prod.mk.inj heq
      rfl
  · rename_i f' heq
    have hcounted : f'.desk = f.desk := by
      split at heq
      · obtain ⟨-, rfl⟩ := Prod.mk.inj heq
        rfl
      · cases heq
    split
    · exact (desk_sessionClosed f' _).trans hcounted
    · refine Eq.trans (Eq.trans (foldl_same desk (unmoved_desk.runCallback id) _ _) ?_) hcounted
      exact desk_modify f' id fun _ => rfl

/-- An attempt that has no handler makes its session. -/
theorem minds_construct (f : Factory codec) (id : ChannelId) : Minds id f (f.construct id) := by
  unfold construct
  split
  · exact minds_of_desk rfl
  · rename_i a ha
    have hopened : Minds id f (f.openSession id a).2 := minds_of_desk (desk_openSession f id a)
    split
    · rename_i fault f' heq
      rw [heq] at hopened
      exact hopened.trans (minds_abort f' id fault)
    · rename_i session f' heq
      rw [heq] at hopened
      have hbooked : Minds id f' (f'.modifyConnector a.run (·.markOpened id)) := minds_of_desk rfl
      exact (hopened.trans hbooked).trans (minds_modify _ id fun _ => rfl)

theorem suits_construct (hnone : f.negotiations.get? id = none) : (f.construct id).Suits id := by
  unfold construct
  split
  · rename_i ha
    rw [Suits, hnone, due?, ha, Option.bind_none]
  · rename_i a ha
    have hopened := desk_openSession f id a
    split
    · exact suits_abort _ id _
    · rename_i session f' heq
      rw [heq] at hopened
      have hsame : f'.negotiations = f.negotiations := congrArg Prod.fst hopened
      show f'.negotiations.get? id = _
      rw [hsame, hnone, due?_eq_none]
      intro b hb
      rw [attempts_modify] at hb
      obtain ⟨b', -, rfl⟩ := Option.map_eq_some_iff.mp hb
      rw [if_pos rfl]
      rfl

theorem Suits.get? (h : f.Suits id) {a : Attempt codec} (ha : f.attempts[id]? = some a)
    (hstage : a.stage.isSecuring = false) : f.negotiations.get? id = none := by
  rw [h, due?_of_attempt ha, hstage, if_neg (by decide)]

theorem minds_noticeClosed (f : Factory codec) (id : ChannelId) : Minds id f (f.noticeClosed id) := by
  unfold noticeClosed
  split
  · exact minds_of_desk rfl
  · split
    · exact minds_abort f id _
    · exact minds_of_desk rfl

theorem Suits.noticeClosed (h : f.Suits id) : (f.noticeClosed id).Suits id := by
  unfold Factory.noticeClosed
  split
  · exact h
  · split
    · exact suits_abort f id _
    · exact h

theorem minds_dialed (f : Factory codec) (id : ChannelId) (answer : Except Fault Address) :
    Minds id f (f.dialed id answer) := by
  unfold dialed
  split
  · exact minds_of_desk rfl
  · split
    · split
      · exact minds_abort f id _
      · refine Minds.trans ?_ (minds_of_desk ((desk_arm _ id).trans (desk_touch _ id)))
        exact minds_modify f id fun _ => rfl
    · exact minds_of_desk rfl

theorem Suits.dialed (h : f.Suits id) (answer : Except Fault Address) : (f.dialed id answer).Suits id := by
  unfold Factory.dialed
  split
  · exact h
  · rename_i a ha
    split
    · rename_i hdialing
      have hnone : f.negotiations.get? id = none := by
        refine h.get? ha ?_
        cases hstage : a.stage <;> simp_all [Stage.isDialing, Stage.isSecuring]
      split
      · exact suits_abort f id _
      · rename_i remote
        refine Suits.of_desk ?_ ((desk_arm _ id).trans (desk_touch _ id))
        show f.negotiations.get? id = _
        rw [hnone, due?_of_attempt (attempts_modify_self ha _)]
        rfl
    · exact h

theorem minds_establish (f : Factory codec) (id : ChannelId) (engine : Except Fault Unit) :
    Minds id f (f.establish id engine) := by
  unfold establish
  split
  · exact minds_of_desk rfl
  · split
    · exact minds_construct f id
    · exact minds_abort f id _
    · have hput : ∀ handler, Minds id f { f with negotiations := f.negotiations.put id handler } :=
        fun handler => minds_negotiations (fun honce => honce.put id handler)
          fun other hother => Negotiations.get?_put_of_ne _ hother handler
      exact (hput _).trans (minds_modify _ id fun _ => rfl)
    · exact minds_of_desk rfl

/-- The handler comes with the handshake. -/
theorem Suits.establish (h : f.Suits id) (engine : Except Fault Unit) :
    (f.establish id engine).Suits id := by
  unfold Factory.establish
  split
  · exact h
  · rename_i a ha
    split
    · rename_i hstage _
      exact suits_construct (h.get? ha (by rw [hstage]; rfl))
    · exact suits_abort f id _
    · have hput := attempts_modify_self (f := { f with
        negotiations := f.negotiations.put id (f.clientOf a).negotiator }) ha fun a =>
          { a with stage := .securing }
      rw [Suits, due?_of_attempt hput]
      exact Negotiations.get?_put_self _ _ _
    · exact h

/-- What is left when a handshake has ended: the handler is taken. -/
theorem minds_heard (f : Factory codec) (id : ChannelId) : Minds id f (f.heard id) :=
  (minds_of_desk (desk_touch f id)).trans (minds_negotiations (fun honce => honce.erase id)
    fun _ hother => Negotiations.get?_erase_of_ne _ hother)

theorem get?_heard (f : Factory codec) (id : ChannelId) : (f.heard id).negotiations.get? id = none :=
  Negotiations.get?_erase_self _ id

theorem minds_secured (f : Factory codec) (id : ChannelId)
    (handshake : Except Fault (Option Bytes)) : Minds id f (f.secured id handshake) := by
  unfold secured
  split
  · exact minds_of_desk rfl
  · split
    · exact minds_abort f id _
    · dsimp only
      split
      · exact (minds_heard f id).trans (minds_abort _ id _)
      · split
        · exact (minds_heard f id).trans (minds_abort _ id _)
        · exact (minds_heard f id).trans (minds_construct _ id)
    · exact minds_of_desk rfl

theorem Suits.secured (h : f.Suits id) (handshake : Except Fault (Option Bytes)) :
    (f.secured id handshake).Suits id := by
  unfold Factory.secured
  split
  · exact h
  · split
    · exact suits_abort f id _
    · dsimp only
      split
      · exact suits_abort _ id _
      · split
        · exact suits_abort _ id _
        · exact suits_construct (get?_heard f id)
    · exact h

theorem minds_windUp (f : Factory codec) (id : ChannelId) (listener : Session.Listener)
    (e : Endpoint codec) (result : Except Fault Unit) : Minds id f (f.windUp id listener e result) := by
  have htold : ∀ entries e session, Minds id f (((f.setEndpoint id e).modify id fun a =>
      { a with told := a.told ++ entries }).sessionClosed session).2 := by
    intro entries e session
    refine minds_of_desk ((desk_sessionClosed _ _).trans (Eq.trans ?_ (desk_setEndpoint f id e)))
    exact desk_modify _ id fun _ => rfl
  unfold windUp
  dsimp only
  cases result with
  | error fault => exact (htold _ _ _).trans (minds_abort _ id fault)
  | ok _ => exact (htold _ _ _).trans (minds_finish _ id)

theorem suits_windUp (f : Factory codec) (id : ChannelId) (listener : Session.Listener)
    (e : Endpoint codec) (result : Except Fault Unit) : (f.windUp id listener e result).Suits id := by
  unfold windUp
  dsimp only
  cases result with
  | error fault => exact suits_abort _ id fault
  | ok _ => exact suits_finish _ id

/-- What a turn makes of an attempt that it does not end. -/
theorem minds_turned (f : Factory codec) (id : ChannelId) (moved : Bool) (e : Endpoint codec)
    (progress : Progress) (written : Bytes) (entries : List Session.Entry) :
    Minds id f (((if moved = true then f.touch id else f).setEndpoint id e).modify id fun a => { a with
      stage := .carrying progress, written := written, told := a.told ++ entries }) := by
  have hmoved : (if moved = true then f.touch id else f).desk = f.desk := by
    split
    · exact desk_touch f id
    · rfl
  exact (minds_of_desk ((desk_setEndpoint _ id e).trans hmoved)).trans (minds_modify _ id fun _ => rfl)

theorem suits_turned (hnone : f.negotiations.get? id = none) (moved : Bool) (e : Endpoint codec)
    (progress : Progress) (written : Bytes) (entries : List Session.Entry) :
    (((if moved = true then f.touch id else f).setEndpoint id e).modify id fun a => { a with
      stage := .carrying progress, written := written, told := a.told ++ entries }).Suits id := by
  have hsame : ((if moved = true then f.touch id else f).setEndpoint id e).negotiations =
      f.negotiations := by
    cases moved with
    | false => rfl
    | true => exact congrArg Prod.fst (desk_touch f id)
  refine Eq.trans (congrArg (·.get? id) hsame) (hnone.trans (due?_eq_none ?_).symm)
  intro b hb
  rw [attempts_modify] at hb
  obtain ⟨b', -, rfl⟩ := Option.map_eq_some_iff.mp hb
  rw [if_pos rfl]
  rfl

theorem minds_turn (f : Factory codec) (id : ChannelId) (socket : Socket) :
    Minds id f (f.turn id socket) := by
  unfold turn
  split
  · split
    · dsimp only
      split
      · exact (minds_turned f id _ _ _ _ _).trans (minds_windUp _ id _ _ _)
      · exact minds_turned f id _ _ _ _ _
    · exact minds_of_desk rfl
  · exact minds_of_desk rfl

theorem Suits.turn (h : f.Suits id) (socket : Socket) : (f.turn id socket).Suits id := by
  unfold Factory.turn
  split
  · rename_i a e ha he
    split
    · rename_i progress hstage
      have hnone : f.negotiations.get? id = none := h.get? ha (by rw [hstage]; rfl)
      dsimp only
      split
      · exact suits_windUp _ id _ _ _
      · exact suits_turned hnone _ _ _ _ _
    · exact h
  · exact h

end Factory

end SpdySessions
