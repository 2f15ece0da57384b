import SpdySessions.Proofs.Factory.Handlers
import SpdySessions.Proofs.Factory.Regular

/-! Shares. Of what a factory keeps for all attempts together, each attempt has its share: what is said of
it in the books, its handler, and whether its session is counted. Two factories are alike to an attempt if
it has the same share in them and they have the same in common; what others do and have may differ, and so
may the number that a session has got, the room in borrowed buffers and what was counted for callbacks. A
change that is an attempt's own spares all other shares and is the same wherever its own share is. -/

namespace SpdySessions

/-! ### Shares -/

/-- The outcome, the own session going by no number. -/
def Outcome.bare (own : Option SessionId) : Outcome SessionId → Outcome SessionId
  | completed session => completed (if own = some session then 0 else session)
  | outcome => outcome

def Callback.Reply.bare : Callback.Reply → Callback.Reply
  | count _ => count 0
  | reply => reply

/-- What a callback leaves behind, without what it counted. -/
def Callback.Entry.bare : Callback.Entry → Callback.Entry
  | ran delivered _ => ran delivered 0
  | did deed reply => did deed reply.bare

/-- Told that there is no session, a callback does the same whatever it counts. -/
theorem Callback.bare_retreat (callback : Callback) (sessions : Nat) :
    (callback.retreat sessions).map Entry.bare = callback.retreat 0 := by
  rw [retreat, retreat, List.map_cons, List.map_map]
  congr 1
  refine List.map_congr_left fun step _ => ?_
  cases step <;> rfl

/-- A link without the number of its session and the room in its queue. -/
def Link.bare {codec : HeaderCodec} (link : Link codec) : Link codec :=
  { link with session := link.session.bare }

/-- Where a channel stands in the books. -/
structure Place where
  tracked : Bool
  pending : Bool
  opened : Bool
  deriving DecidableEq

def Connector.place (c : Connector) (id : ChannelId) : Place where
  tracked := id ∈ c.channels
  pending := id ∈ c.pending
  opened := id ∈ c.opened

namespace Attempt

variable {codec : HeaderCodec} {a b : Attempt codec}

/-- An attempt without what is not its own doing. -/
def bare (a : Attempt codec) : Attempt codec :=
  { a with
    promise := { a.promise with outcome := a.promise.outcome.map (Outcome.bare a.session?) }
    link := a.link.map Link.bare
    callbacks := a.callbacks.map Callback.Entry.bare }

theorem bare_disappoint (a : Attempt codec) (callbacks : List Callback) (sessions : Nat) :
    (a.disappoint callbacks sessions).bare = a.bare.disappoint callbacks 0 := by
  have hentries : (callbacks.flatMap (·.retreat sessions)).map Callback.Entry.bare =
      callbacks.flatMap (·.retreat 0) := by
    rw [List.map_flatMap]
    exact List.flatMap_congr fun callback _ => callback.bare_retreat sessions
  rw [bare, disappoint, disappoint, bare, List.map_append, hentries]
  rfl

/-- All else is the same. -/
theorem part_of_bare {α : Type} (h : b.bare = a.bare) (part : Attempt codec → α)
    (hbare : ∀ a, part a.bare = part a) : part b = part a := by
  rw [← hbare b, h, hbare]

theorem isDone_bare (a : Attempt codec) : a.bare.promise.isDone = a.promise.isDone := by
  simp [bare, Promise.isDone]

theorem isCompleted_bare (a : Attempt codec) : a.bare.promise.isCompleted = a.promise.isCompleted := by
  rcases houtcome : a.promise.outcome with _ | _ | _ | _ <;>
    simp [bare, Promise.isCompleted, houtcome, Outcome.bare, Outcome.isCompleted]

end Attempt

/-- All that is one attempt's own. -/
structure Share (codec : HeaderCodec) where
  attempt : Option (Attempt codec)
  /-- In the books of each run. -/
  places : List Place
  handler : Option Negotiator
  /-- Its session is among the open ones. -/
  counted : Bool

namespace Factory

open Attempt (part_of_bare)

variable {codec : HeaderCodec} {f f' f'' g g' g'' : Factory codec} {id other : ChannelId}

/-- The session of an attempt is among the open ones. -/
def counted (f : Factory codec) (id : ChannelId) : Bool :=
  (f.sessionOf id).any f.sessions.contains

def share (f : Factory codec) (id : ChannelId) : Share codec where
  attempt := (f.attempts[id]?).map Attempt.bare
  places := f.connectors.map (·.place id)
  handler := f.negotiations.get? id
  counted := f.counted id

/-- What all attempts have in common: the state and the make of the factory, its clients and clocks. -/
def common (f : Factory codec) : Lifecycle × Security × Config × List Client × List Nat :=
  (f.lifecycle, f.security, f.config, f.clients, f.schedulers.map Scheduler.now)

/-- An attempt and all that is kept for it is as it was. -/
structure Leaves (id : ChannelId) (f f' : Factory codec) : Prop where
  attempt : f'.attempts[id]? = f.attempts[id]?
  places : f'.connectors.map (·.place id) = f.connectors.map (·.place id)
  handler : f'.negotiations.get? id = f.negotiations.get? id
  counted : f'.counted id = f.counted id

theorem Leaves.trans (h : Leaves id f f') (h' : Leaves id f' f'') : Leaves id f f'' where
  attempt := h'.attempt.trans h.attempt
  places := h'.places.trans h.places
  handler := h'.handler.trans h.handler
  counted := h'.counted.trans h.counted

theorem Leaves.share (h : Leaves id f f') : f'.share id = f.share id := by
  simp only [Factory.share, h.attempt, h.places, h.handler, h.counted]

/-- A change of one attempt leaves the others what they have, and nothing happens to what they have in
common. -/
structure Spares (id : ChannelId) (f f' : Factory codec) : Prop where
  others : ∀ other, other ≠ id → Leaves other f f'
  common : f'.common = f.common

theorem Spares.refl (id : ChannelId) (f : Factory codec) : Spares id f f :=
  ⟨fun _ _ => ⟨rfl, rfl, rfl, rfl⟩, rfl⟩

theorem Spares.trans (h : Spares id f f') (h' : Spares id f' f'') : Spares id f f'' :=
  ⟨fun other hother => (h.others other hother).trans (h'.others other hother), h'.common.trans h.common⟩

/-- Two factories in which an attempt has the same share of the same. -/
structure Alike (id : ChannelId) (f g : Factory codec) : Prop where
  regular : f.Regular ∧ g.Regular
  common : g.common = f.common
  share : g.share id = f.share id

theorem alike_self (h : f.Regular) (id : ChannelId) : Alike id f f :=
  ⟨⟨h, h⟩, rfl, rfl⟩

/-- Two factories go on with something that is an attempt's own, and are alike to it still. -/
structure Together (id : ChannelId) (f g f' g' : Factory codec) : Prop where
  spares : Spares id f f' ∧ Spares id g g'
  alike : Alike id f' g'

theorem Alike.stay (h : Alike id f g) : Together id f g f g :=
  ⟨⟨.refl id f, .refl id g⟩, h⟩

theorem Together.trans (h : Together id f g f' g') (h' : Together id f' g' f'' g'') :
    Together id f g f'' g'' :=
  ⟨⟨h.spares.1.trans h'.spares.1, h.spares.2.trans h'.spares.2⟩, h'.alike⟩

/-- They are alike afterwards if the share is the same. -/
theorem Alike.together (h : Alike id f g) (hspares : Spares id f f' ∧ Spares id g g')
    (hregular : f'.Regular ∧ g'.Regular) (hshare : g'.share id = f'.share id) :
    Together id f g f' g' :=
  ⟨hspares, hregular, hspares.2.common.trans (h.common.trans hspares.1.common.symm), hshare⟩

/-! ### What an attempt sees -/

theorem Alike.attempts (h : Alike id f g) :
    (f.attempts[id]? = none ∧ g.attempts[id]? = none) ∨
      ∃ a b, f.attempts[id]? = some a ∧ g.attempts[id]? = some b ∧ b.bare = a.bare := by
  have hattempt : (g.attempts[id]?).map Attempt.bare = (f.attempts[id]?).map Attempt.bare :=
    congrArg Share.attempt h.share
  cases ha : f.attempts[id]? with
  | none =>
      rw [ha, Option.map_none, Option.map_eq_none_iff] at hattempt
      exact Or.inl ⟨rfl, hattempt⟩
  | some a =>
      rw [ha, Option.map_some] at hattempt
      obtain ⟨b, hb, hbare⟩ := Option.map_eq_some_iff.mp hattempt
      exact Or.inr ⟨a, b, rfl, hb, hbare⟩

theorem Alike.lifecycle (h : Alike id f g) : g.lifecycle = f.lifecycle :=
  congrArg Prod.fst h.common

theorem Alike.isRunning (h : Alike id f g) : g.isRunning = f.isRunning :=
  congrArg Lifecycle.isRunning h.lifecycle

theorem Alike.security (h : Alike id f g) : g.security = f.security :=
  congrArg (fun common => common.2.1) h.common

theorem Alike.config (h : Alike id f g) : g.config = f.config :=
  congrArg (fun common => common.2.2.1) h.common

theorem Alike.clients (h : Alike id f g) : g.clients = f.clients :=
  congrArg (fun common => common.2.2.2.1) h.common

theorem Alike.clocks (h : Alike id f g) : g.schedulers.map Scheduler.now = f.schedulers.map Scheduler.now :=
  congrArg (fun common => common.2.2.2.2) h.common

theorem Alike.clientOf (h : Alike id f g) {a b : Attempt codec} (hbare : b.bare = a.bare) :
    g.clientOf b = f.clientOf a := by
  rw [Factory.clientOf, h.clients, part_of_bare hbare Attempt.client fun _ => rfl, ← Factory.clientOf]

/-- The endpoints of an attempt are twins. -/
theorem Alike.endpoints (h : Alike id f g) :
    (f.endpoint? id = none ∧ g.endpoint? id = none) ∨
      ∃ e e', f.endpoint? id = some e ∧ g.endpoint? id = some e' ∧ e.Twins e' := by
  rcases h.attempts with ⟨ha, hb⟩ | ⟨a, b, ha, hb, hbare⟩
  · exact Or.inl (by simp only [endpoint?, ha, hb, and_self])
  · have hlink : b.link.map Link.bare = a.link.map Link.bare := congrArg Attempt.link hbare
    have hchannel := part_of_bare hbare Attempt.channel fun _ => rfl
    simp only [endpoint?, ha, hb]
    cases hlinked : a.link with
    | none =>
        rw [hlinked, Option.map_none, Option.map_eq_none_iff] at hlink
        exact Or.inl (by rw [hlink]; exact ⟨rfl, rfl⟩)
    | some link =>
        rw [hlinked, Option.map_some] at hlink
        obtain ⟨link', hlinked', hlink⟩ := Option.map_eq_some_iff.mp hlink
        have hsession : link'.bare.session = link.bare.session := congrArg Link.session hlink
        have hreader : link'.bare.reader = link.bare.reader := congrArg Link.reader hlink
        refine Or.inr ⟨_, _, rfl, by rw [hlinked']; rfl, ?_⟩
        exact ⟨hsession, hreader, congrArg Channel.isOpen hchannel, h.regular.1.pool, h.regular.2.pool⟩

/-! ### Changes in one place -/

theorem counted_congr (hheld : f'.sessionOf id = f.sessionOf id) (hsessions : f'.sessions = f.sessions) :
    f'.counted id = f.counted id := by
  rw [counted, hheld, hsessions, ← counted]

theorem leaves_of_same (hattempts : f'.attempts = f.attempts) (hconnectors : f'.connectors = f.connectors)
    (hnegotiations : f'.negotiations = f.negotiations) (hsessions : f'.sessions = f.sessions) :
    Leaves id f f' where
  attempt := by rw [hattempts]
  places := by rw [hconnectors]
  handler := by rw [hnegotiations]
  counted := counted_congr (by rw [sessionOf, hattempts, ← sessionOf]) hsessions

theorem spares_modify (f : Factory codec) (id : ChannelId) (change : Attempt codec → Attempt codec) :
    Spares id f (f.modify id change) where
  others := by
    intro other hother
    have hsame : (f.modify id change).attempts[other]? = f.attempts[other]? := by
      rw [attempts_modify]
      simp only [if_neg (Ne.symm hother)]
      exact Option.map_id_apply
    exact ⟨hsame, rfl, rfl, counted_congr (by rw [sessionOf, hsame, ← sessionOf]) rfl⟩
  common := rfl

/-- The share with another attempt, if that holds the same session. -/
theorem share_modify {a : Attempt codec} (ha : f.attempts[id]? = some a)
    {change : Attempt codec → Attempt codec} (hsession : (change a).session? = a.session?) :
    (f.modify id change).share id = { f.share id with attempt := some (change a).bare } := by
  have hchanged := attempts_modify_self ha change
  have hheld : (f.modify id change).sessionOf id = f.sessionOf id := by
    rw [sessionOf, hchanged, Option.bind_some, hsession, sessionOf, ha, Option.bind_some]
  simp only [share, hchanged, Option.map_some, counted_congr hheld rfl]
  rfl

/-- A change of the attempt itself that goes by what is its own. -/
theorem Alike.modify (h : Alike id f g) {change change' : Attempt codec → Attempt codec}
    (hregular : (f.modify id change).Regular ∧ (g.modify id change').Regular)
    (hsame : ∀ a b, f.attempts[id]? = some a → g.attempts[id]? = some b → b.bare = a.bare →
      (change a).session? = a.session? ∧ (change' b).session? = b.session? ∧
        (change' b).bare = (change a).bare) :
    Together id f g (f.modify id change) (g.modify id change') := by
  refine h.together ⟨spares_modify f id _, spares_modify g id _⟩ hregular ?_
  rcases h.attempts with ⟨ha, hb⟩ | ⟨a, b, ha, hb, hbare⟩
  · have hnone : ∀ {f : Factory codec} (change), f.attempts[id]? = none →
        (f.modify id change).share id = f.share id := by
      intro f change hnone
      have hsame : f.modify id change = f := by
        rw [Factory.modify, List.modify_eq_self (List.getElem?_eq_none_iff.mp hnone)]
      rw [hsame]
    rw [hnone change ha, hnone change' hb, h.share]
  · obtain ⟨hsession, hsession', hchanged⟩ := hsame a b ha hb hbare
    rw [share_modify ha hsession, share_modify hb hsession', h.share, hchanged]

/-- Most changes have to do with neither the session nor the promise. -/
theorem Alike.modify_plain (h : Alike id f g) (change : Attempt codec → Attempt codec)
    (hplain : ∀ a, (change a).session? = a.session? ∧ (change a).promise = a.promise ∧
      (change a).bare = change a.bare) :
    Together id f g (f.modify id change) (g.modify id change) := by
  have hregular : ∀ {f : Factory codec}, f.Regular → (f.modify id change).Regular := fun hregular =>
    hregular.modify id change fun a => ⟨(hplain a).1, (hplain a).2.1⟩
  refine h.modify ⟨hregular h.regular.1, hregular h.regular.2⟩ fun a b _ _ hsame =>
    ⟨(hplain a).1, (hplain b).1, ?_⟩
  rw [(hplain b).2.2, (hplain a).2.2, hsame]

/-- A change in the books of one run that goes by where the channel stands in them. -/
theorem Alike.modifyConnector (h : Alike id f g) (run : Nat) {change : Connector → Connector}
    (move : Place → Place) (hothers : ∀ c other, other ≠ id → (change c).place other = c.place other)
    (hmove : ∀ c, (change c).place id = move (c.place id)) :
    Together id f g (f.modifyConnector run change) (g.modifyConnector run change) := by
  have hspares : ∀ f : Factory codec, Spares id f (f.modifyConnector run change) := fun f =>
    { others := fun other hother =>
        { leaves_of_same (f := f) rfl rfl rfl rfl with
          places := map_modify_same (fun c => hothers c other hother) run f.connectors }
      common := rfl }
  have hplaces : ∀ f : Factory codec, (f.modifyConnector run change).connectors.map (·.place id) =
      (f.connectors.map (·.place id)).modify run move := by
    intro f
    refine List.ext_getElem? fun other => ?_
    rw [List.getElem?_map, connectors_modifyConnector, List.getElem?_modify, List.getElem?_map]
    cases f.connectors[other]? with
    | none => rfl
    | some c =>
        by_cases hrun : run = other
        · simp [hrun, hmove]
        · simp [hrun]
  have hsame : g.connectors.map (·.place id) = f.connectors.map (·.place id) :=
    congrArg Share.places h.share
  refine h.together ⟨hspares f, hspares g⟩
    ⟨h.regular.1.of_same rfl rfl rfl rfl, h.regular.2.of_same rfl rfl rfl rfl⟩ ?_
  calc (g.modifyConnector run change).share id
      = { g.share id with places := (g.modifyConnector run change).connectors.map (·.place id) } := rfl
    _ = { f.share id with places := (f.modifyConnector run change).connectors.map (·.place id) } := by
        rw [h.share, hplaces, hplaces, hsame]

theorem Alike.forget (h : Alike id f g) (run : Nat) :
    Together id f g (f.modifyConnector run (·.forget id)) (g.modifyConnector run (·.forget id)) := by
  refine h.modifyConnector run (fun _ => ⟨false, false, false⟩) (fun c other hother => ?_) fun c => ?_
  · simp [Connector.place, Connector.forget, Connector.mem_strike, hother]
  · simp [Connector.place, Connector.forget, Connector.mem_strike]

theorem Alike.markOpened (h : Alike id f g) (run : Nat) :
    Together id f g (f.modifyConnector run (·.markOpened id))
      (g.modifyConnector run (·.markOpened id)) := by
  refine h.modifyConnector run (fun place => ⟨place.tracked, false, true⟩) (fun c other hother => ?_)
    fun c => ?_
  · unfold Connector.place Connector.markOpened
    simp [Connector.mem_strike, Connector.mem_enter, hother]
  · unfold Connector.place Connector.markOpened
    simp [Connector.mem_strike, Connector.mem_enter]

/-- A change of the handler of the attempt, whatever there is. -/
theorem Alike.negotiate (h : Alike id f g) (change : Negotiations → Negotiations)
    (hothers : ∀ ns other, other ≠ id → (change ns).get? other = ns.get? other)
    (hown : ∀ ns ns', (change ns).get? id = (change ns').get? id) :
    Together id f g { f with negotiations := change f.negotiations }
      { g with negotiations := change g.negotiations } := by
  have hspares : ∀ f : Factory codec, Spares id f { f with negotiations := change f.negotiations } :=
    fun f =>
      { others := fun other hother =>
          { leaves_of_same (f := f) rfl rfl rfl rfl with handler := hothers f.negotiations other hother }
        common := rfl }
  refine h.together ⟨hspares f, hspares g⟩
    ⟨h.regular.1.of_same rfl rfl rfl rfl, h.regular.2.of_same rfl rfl rfl rfl⟩ ?_
  calc Factory.share { g with negotiations := change g.negotiations } id
      = { g.share id with handler := (change g.negotiations).get? id } := rfl
    _ = { f.share id with handler := (change f.negotiations).get? id } := by
        rw [h.share, hown g.negotiations f.negotiations]

theorem Alike.erase (h : Alike id f g) :
    Together id f g { f with negotiations := f.negotiations.erase id }
      { g with negotiations := g.negotiations.erase id } :=
  h.negotiate (fun ns => ns.erase id) (fun _ _ hother => Negotiations.get?_erase_of_ne _ hother)
    fun _ _ => (Negotiations.get?_erase_self _ id).trans (Negotiations.get?_erase_self _ id).symm

theorem Alike.put (h : Alike id f g) (handler : Negotiator) :
    Together id f g { f with negotiations := f.negotiations.put id handler }
      { g with negotiations := g.negotiations.put id handler } :=
  have hown : ∀ ns : Negotiations, (ns.put id handler).get? id = some handler := fun ns =>
    Negotiations.get?_put_self ns id handler
  h.negotiate (fun ns => ns.put id handler)
    (fun _ _ hother => Negotiations.get?_put_of_ne _ hother handler)
    fun ns ns' => (hown ns).trans (hown ns').symm

/-- The clocks stay, whatever is scheduled. -/
theorem Alike.schedule (h : Alike id f g) {schedulers schedulers' : List (Scheduler ChannelId)}
    (hclocks : schedulers.map Scheduler.now = f.schedulers.map Scheduler.now)
    (hclocks' : schedulers'.map Scheduler.now = g.schedulers.map Scheduler.now) :
    Together id f g { f with schedulers := schedulers } { g with schedulers := schedulers' } := by
  have hspares : ∀ {f : Factory codec} {schedulers : List (Scheduler ChannelId)},
      schedulers.map Scheduler.now = f.schedulers.map Scheduler.now →
      Spares id f { f with schedulers := schedulers } := fun {f schedulers} hclocks =>
    { others := fun other _ => leaves_of_same rfl rfl rfl rfl
      common := by simp only [Factory.common, hclocks] }
  exact h.together ⟨hspares hclocks, hspares hclocks'⟩
    ⟨h.regular.1.of_same rfl rfl rfl rfl, h.regular.2.of_same rfl rfl rfl rfl⟩ h.share

theorem Alike.plans (h : Alike id f g) (hplans : f.Plans id f') (hplans' : g.Plans id g') :
    Together id f g f' g' := by
  have hschedulers : ∀ {f f' : Factory codec}, f.Plans id f' → ∃ schedulers,
      f' = { f with schedulers := schedulers } ∧
        schedulers.map Scheduler.now = f.schedulers.map Scheduler.now := by
    intro f f' hplans
    cases hplans with
    | nothing => exact ⟨f.schedulers, rfl, rfl⟩
    | look ha delay =>
        exact ⟨_, rfl, map_modify_same (fun s => s.now_schedule delay id) _ f.schedulers⟩
  obtain ⟨schedulers, rfl, hclocks⟩ := hschedulers hplans
  obtain ⟨schedulers', rfl, hclocks'⟩ := hschedulers hplans'
  exact h.schedule hclocks hclocks'

/-- A number that no session gets. -/
theorem Alike.skip (h : Alike id f g) :
    Together id f g { f with sessionsMade := f.sessionsMade + 1 }
      { g with sessionsMade := g.sessionsMade + 1 } := by
  have hspares : ∀ f : Factory codec, Spares id f { f with sessionsMade := f.sessionsMade + 1 } := fun f =>
    ⟨fun other _ => leaves_of_same rfl rfl rfl rfl, rfl⟩
  exact h.together ⟨hspares f, hspares g⟩ ⟨h.regular.1.skip, h.regular.2.skip⟩ h.share

/-! ### Sessions -/

/-- An endpoint of the same session is put back. -/
theorem Alike.setEndpoint (h : Alike id f g) {e e' last last' : Endpoint codec}
    (he : f.endpoint? id = some e) (he' : g.endpoint? id = some e')
    (hid : last.session.id = e.session.id) (hid' : last'.session.id = e'.session.id)
    (htwins : last.Twins last') :
    Together id f g (f.setEndpoint id last) (g.setEndpoint id last') := by
  have hspares : ∀ (f : Factory codec) (pool : BufferPool), Spares id f { f with pool := pool } :=
    fun _ _ => ⟨fun other _ => leaves_of_same rfl rfl rfl rfl, rfl⟩
  have hpooled : Together id f g { f with pool := last.pool } { g with pool := last'.pool } :=
    h.together ⟨hspares f _, hspares g _⟩
      ⟨{ h.regular.1 with pool := htwins.pools.1 }, { h.regular.2 with pool := htwins.pools.2 }⟩ h.share
  have hlink : last'.toLink.bare = last.toLink.bare :=
    congrArg₂ Link.mk htwins.session htwins.reader
  have hsession : ∀ {f : Factory codec} {e last : Endpoint codec} {a : Attempt codec},
      f.endpoint? id = some e → last.session.id = e.session.id → f.attempts[id]? = some a →
      some last.session.id = a.session? := by
    intro f e last a he hid ha
    obtain ⟨b, hb, hlinked, -⟩ := endpoint?_eq_some he
    obtain rfl := Option.some.inj (ha.symm.trans hb)
    rw [Attempt.session?, hlinked, hid]
    rfl
  refine hpooled.trans (hpooled.alike.modify
    ⟨h.regular.1.steady (steady_setEndpoint he hid fun _ => htwins.pools.1) (barren_setEndpoint f id last),
      h.regular.2.steady (steady_setEndpoint he' hid' fun _ => htwins.pools.2)
        (barren_setEndpoint g id last')⟩ fun a b ha hb hbare => ?_)
  have ha := hsession he hid ha
  have hb := hsession he' hid' hb
  have hput : ∀ {a : Attempt codec} {last : Endpoint codec}, some last.session.id = a.session? →
      Attempt.bare { a with
        link := some last.toLink, channel := { a.channel with isOpen := last.channelOpen } } =
      { a.bare with
        link := some last.toLink.bare, channel := { a.bare.channel with isOpen := last.channelOpen } } := by
    intro a last hsame
    have houtcome : Attempt.session? { a with
        link := some last.toLink, channel := { a.channel with isOpen := last.channelOpen } } = a.session? :=
      hsame
    simp only [Attempt.bare, houtcome, Option.map_some]
  refine ⟨ha, hb, ?_⟩
  rw [hput ha, hput hb, hbare, hlink, htwins.channel]

/-- The session is counted no longer; it is nobody else's. -/
theorem Alike.sessionClosed (h : Alike id f g) {session session' : SessionId}
    (hheld : f.sessionOf id = some session) (hheld' : g.sessionOf id = some session') :
    Together id f g (f.sessionClosed session).2 (g.sessionClosed session').2 := by
  have hregular : ∀ {f : Factory codec} (session : SessionId), f.Regular →
      (f.sessionClosed session).2.Regular := fun session hregular =>
    hregular.steady (steady_sessionClosed _ session) (barren_sessionClosed _ session)
  have hspares : ∀ {f : Factory codec} {session : SessionId}, f.Regular → f.sessionOf id = some session →
      Spares id f (f.sessionClosed session).2 := by
    intro f session hregular hheld
    unfold Factory.sessionClosed
    split
    · refine ⟨fun other hother => ⟨rfl, rfl, rfl, ?_⟩, rfl⟩
      show (f.sessionOf other).any (f.sessions.filter (· ≠ session)).contains = (f.sessionOf other).any _
      cases hother' : f.sessionOf other with
      | none => rfl
      | some s =>
          have hne : s ≠ session := by
            rintro rfl
            exact hother (hregular.apart other id s hother' hheld)
          simp [hne]
    · exact .refl id f
  have hshare : ∀ {f : Factory codec} {session : SessionId}, f.sessionOf id = some session →
      (f.sessionClosed session).2.share id =
        { f.share id with counted := if f.isRunning then false else f.counted id } := by
    intro f session hheld
    unfold Factory.sessionClosed
    split
    · have hstruck : counted { f with sessions := f.sessions.filter (· ≠ session) } id = false := by
        show (f.sessionOf id).any _ = false
        simp [hheld]
      simp only [Factory.share, hstruck]
    · rfl
  refine h.together ⟨hspares h.regular.1 hheld, hspares h.regular.2 hheld'⟩
    ⟨hregular session h.regular.1, hregular session' h.regular.2⟩ ?_
  have hcounted : g.counted id = f.counted id := congrArg Share.counted h.share
  rw [hshare hheld, hshare hheld', h.share, h.isRunning, hcounted]

/-- A new session is made alike, its number apart. -/
theorem Alike.newSession (h : Alike id f g) {a b : Attempt codec} (hbare : b.bare = a.bare) :
    (g.newSession b).bare = (f.newSession a).bare := by
  have hidle := part_of_bare hbare Attempt.idleTimeout fun _ => rfl
  have hremote := part_of_bare hbare Attempt.remote fun _ => rfl
  simp only [Factory.newSession, Session.bare, h.clientOf hbare, h.security, hidle, hremote]

/-- The session is counted and the promise has it. -/
theorem Alike.opened (h : Alike id f g) {a b : Attempt codec} (ha : f.attempts[id]? = some a)
    (hb : g.attempts[id]? = some b) (hbare : b.bare = a.bare) :
    Together id f g (f.opened id a (.completedWith (f.sessionsMade + 1)))
      (g.opened id b (.completedWith (g.sessionsMade + 1))) := by
  have hspares : ∀ {f : Factory codec} (a : Attempt codec) (promise : Promise SessionId Callback),
      f.Regular → Spares id f (f.opened id a promise) := by
    intro f a promise hregular
    refine ⟨fun other hother => ?_, rfl⟩
    obtain ⟨hattempt, -, -, -⟩ := (spares_modify f id fun a' => { a' with
      promise := promise, link := some ⟨f.newSession a, .fresh codec⟩ }).others other hother
    refine ⟨hattempt, rfl, rfl, ?_⟩
    rw [counted, sessionOf_opened, if_neg (Ne.symm hother), counted]
    cases hother' : f.sessionOf other with
    | none => rfl
    | some s =>
        have hne : s ≠ f.sessionsMade + 1 :=
          Nat.ne_of_lt (Nat.lt_succ_of_le (hregular.made other s hother'))
        have hmem : s ∈ (f.opened id a promise).sessions ↔ s ∈ f.sessions :=
          Connector.mem_enter.trans (or_iff_left hne)
        simp [hmem]
  have hshare : ∀ {f : Factory codec} {a : Attempt codec}, f.attempts[id]? = some a →
      (f.opened id a (.completedWith (f.sessionsMade + 1))).share id = { f.share id with
        attempt := some { a.bare with
          promise := .completedWith 0
          link := some { session := (f.newSession a).bare, reader := .fresh codec } }
        counted := true } := by
    intro f a ha
    have hleft : (f.opened id a (.completedWith (f.sessionsMade + 1))).attempts[id]? = some { a with
        promise := .completedWith (f.sessionsMade + 1), link := some ⟨f.newSession a, .fresh codec⟩ } :=
      attempts_modify_self ha _
    have hcounted : (f.opened id a (.completedWith (f.sessionsMade + 1))).counted id = true := by
      have hmem : f.sessionsMade + 1 ∈ (f.opened id a (.completedWith (f.sessionsMade + 1))).sessions :=
        Connector.mem_enter.mpr (Or.inr rfl)
      rw [counted, sessionOf_opened, if_pos rfl, ha]
      simpa using hmem
    have hown : (f.newSession a).id = f.sessionsMade + 1 := rfl
    have hattempt : Attempt.bare { a with
          promise := .completedWith (f.sessionsMade + 1), link := some ⟨f.newSession a, .fresh codec⟩ } =
        { a.bare with
          promise := .completedWith 0
          link := some { session := (f.newSession a).bare, reader := .fresh codec } } := by
      simp [Attempt.bare, Attempt.session?, Promise.completedWith, Outcome.bare, Link.bare, hown]
    simp only [Factory.share, hleft, hcounted, Option.map_some, hattempt]
    rfl
  refine h.together ⟨hspares a _ h.regular.1, hspares b _ h.regular.2⟩
    ⟨h.regular.1.opened id a _, h.regular.2.opened id b _⟩ ?_
  rw [hshare ha, hshare hb, h.share, hbare, h.newSession hbare]

end Factory

end SpdySessions
