import SpdySessions.Proofs.Connection.Turn
import SpdySessions.Proofs.Wire.Chunking

/-! The traffic of a connection: all that was ever put into its queue and taken out of it, what the socket
brought, what the listener was told and how the pool was used, written down turn by turn and call by call
along any course of the connection. -/

namespace SpdySessions

/-- What the listener is told of a frame. -/
def Frame.notice : Frame → Session.Notice
  | .settings clear entries => .settings clear entries
  | .ping id => .ping id
  | .goAway lastGoodStream status => .goAway lastGoodStream status
  | frame => .frame frame

/-- The frame that was delivered when this was told. -/
def Session.Notice.delivered? : Session.Notice → Option Frame
  | .settings clear entries => some (.settings clear entries)
  | .ping id => some (.ping id)
  | .goAway lastGoodStream status => some (.goAway lastGoodStream status)
  | .frame f => some f
  | .closed => none

theorem Frame.delivered?_notice (frame : Frame) : frame.notice.delivered? = some frame := by
  cases frame <;> rfl

def Session.Entry.told? : Session.Entry → Option Session.Notice
  | .told notice _ => some notice
  | .called _ _ _ => none

/-- The queue is being written, or will be. -/
def Progress.IsWorking : Progress → Prop
  | running => True
  | draining => True
  | _ => False

/-- A use of a pool. -/
inductive PoolUse where
  | borrow (size : Nat)
  | giveBack (buffer : Buffer)

namespace PoolUse

def givenBack? : PoolUse → Option Buffer
  | borrow _ => none
  | giveBack buffer => some buffer

end PoolUse

def BufferPool.use (pool : BufferPool) : PoolUse → BufferPool
  | .borrow size => (pool.acquire size).2
  | .giveBack buffer => pool.release buffer

namespace Outbound

def frame? : Outbound → Option Buffer
  | frame buffer => some buffer
  | close => none

/-- The bytes of the frames among some items. -/
def bytes (items : List Outbound) : Bytes :=
  (items.filterMap frame?).flatMap Buffer.content

end Outbound

namespace Connection

open Session (Listener Call Entry)

variable {codec : HeaderCodec}

/-! ### Traffic -/

/-- What the next turn takes out of the queue. -/
def takes (c : Connection codec) : Option Outbound :=
  match c.progress with
  | .running => if c.endpoint.channelOpen then c.endpoint.session.queue.head? else none
  | .draining => c.endpoint.session.queue.head?
  | _ => none

/-- What the socket brings in the next turn. -/
def brings (c : Connection codec) (socket : Socket) : Bytes :=
  match c.progress, c.endpoint.session.queue with
  | .running, [] => if c.endpoint.channelOpen then socket.read.toOption.getD [] else []
  | _, _ => []

/-- All that has gone through a connection: what was put into the queue and what was taken out, the
frames among it that could not be written, what the socket brought and what came of it, and how others
used the pool. -/
structure Traffic where
  queued : List Outbound
  taken : List Outbound := []
  lost : List Buffer := []
  brought : Bytes := []
  entries : List Entry := []
  elsewhere : List PoolUse := []

namespace Traffic

/-- What is new in a queue from which some items were taken. -/
def added (before after : Connection codec) (taken : Nat) : List Outbound :=
  after.endpoint.session.queue.drop (before.endpoint.session.queue.length - taken)

/-- With a turn from one connection to the next. -/
def after (t : Traffic) (c : Connection codec) (socket : Socket) (entries : List Entry)
    (c' : Connection codec) : Traffic :=
  { t with
    queued := t.queued ++ added c c' c.takes.toList.length
    taken := t.taken ++ c.takes.toList
    lost := t.lost ++
      if socket.write.toOption.isSome then [] else c.takes.toList.filterMap Outbound.frame?
    brought := t.brought ++ c.brings socket
    entries := t.entries ++ entries }

end Traffic

def call (c : Connection codec) (k : Call) : Connection codec :=
  { c with endpoint := (c.endpoint.call k).2 }

def usePool (c : Connection codec) (u : PoolUse) : Connection codec :=
  { c with endpoint := { c.endpoint with pool := c.endpoint.pool.use u } }

/-- A connection at work: it takes its turns whatever the listener and the socket answer, and in
between anybody calls its session or uses the pool. -/
inductive Course (c₀ : Connection codec) : Traffic → Connection codec → Prop
  | refl : Course c₀ { queued := c₀.endpoint.session.queue } c₀
  | turn {t : Traffic} {c : Connection codec} (h : Course c₀ t c) (listener : Listener)
      (socket : Socket) :
      Course c₀ (t.after c socket (c.turn listener socket).1 (c.turn listener socket).2)
        (c.turn listener socket).2
  | call {t : Traffic} {c : Connection codec} (h : Course c₀ t c) (k : Call) :
      Course c₀ { t with queued := t.queued ++ Traffic.added c (c.call k) 0 } (c.call k)
  | elsewhere {t : Traffic} {c : Connection codec} (h : Course c₀ t c) (u : PoolUse) :
      Course c₀ { t with elsewhere := t.elsewhere ++ [u] } (c.usePool u)

/-! ### What is told -/

theorem told_callAll (e : Endpoint codec) (during : Session.Notice) (calls : List Call) :
    (e.callAll during calls).1.filterMap Entry.told? = [] := by
  induction calls generalizing e with
  | nil => rfl
  | cons k rest ih => exact ih _

theorem told_notify (e : Endpoint codec) (listener : Listener) (notice : Session.Notice) :
    (e.notify listener notice).1.filterMap Entry.told? = [notice] := by
  have hcalls := told_callAll { e with session := { e.session with notices := e.session.notices + 1 } }
    notice (listener notice e.session.view)
  exact congrArg (notice :: ·) hcalls

theorem told_receive (e : Endpoint codec) (listener : Listener) (frame : Frame) :
    (e.receive listener frame).1.filterMap Entry.told? = [frame.notice] := by
  cases frame with
  | settings clear entries => exact told_notify _ listener _
  | ping id => exact told_notify _ listener _
  | goAway lastGoodStream status => exact told_notify _ listener _
  | headers stream block => exact told_notify e listener _
  | windowUpdate stream delta => exact told_notify e listener _
  | data stream flags payload => exact told_notify e listener _
  | unknown kind flags payload => exact told_notify e listener _

theorem told_receiveAll (e : Endpoint codec) (listener : Listener) (deliveries : List Delivery) :
    (e.receiveAll listener deliveries).1.filterMap Entry.told? =
      deliveries.map (·.frame.notice) := by
  induction deliveries generalizing e with
  | nil => rfl
  | cons d rest ih =>
      show ((e.receive listener d.frame).1 ++ (Endpoint.receiveAll _ listener rest).1).filterMap _ = _
      rw [List.filterMap_append, told_receive, ih]
      rfl

/-! ### What a turn adds to the traffic -/

section

variable {c c' : Connection codec} {t : Traffic} {socket : Socket} {item : Outbound}
  {rest : List Outbound}

theorem takes_of_writes (h : c.Writes) : c.takes = c.endpoint.session.queue.head? := by
  unfold takes
  rcases h with ⟨hrunning, hopen⟩ | hdraining
  · simp only [hrunning, hopen, if_true]
  · simp only [hdraining]

theorem brings_of_queue (h : c.endpoint.session.queue = item :: rest) (socket : Socket) :
    c.brings socket = [] := by
  unfold brings
  rw [h]
  split
  · rename_i heq
    cases heq
  · rfl

theorem takes_cons (h : c.Writes) (hqueue : c.endpoint.session.queue = item :: rest) :
    c.takes = some item := by
  rw [takes_of_writes h, hqueue]
  rfl

theorem after_of_idle (htakes : c.takes = none) (hbrings : c.brings socket = [])
    (hqueue : c'.endpoint.session.queue.length ≤ c.endpoint.session.queue.length) :
    t.after c socket [] c' = t := by
  have hnone : Traffic.added c c' 0 = [] := List.drop_eq_nil_of_le hqueue
  simp [Traffic.after, htakes, hbrings, hnone]

theorem after_of_taken (hwrites : c.Writes) (hqueue : c.endpoint.session.queue = item :: rest)
    (hrest : c'.endpoint.session.queue = rest) :
    t.after c socket [] c' = { t with
      taken := t.taken ++ [item]
      lost := t.lost ++ if socket.write.toOption.isSome then [] else [item].filterMap Outbound.frame? } := by
  have htakes : c.takes = some item := takes_cons hwrites hqueue
  have hnone : Traffic.added c c' 1 = [] := by
    refine List.drop_eq_nil_of_le (Nat.le_of_eq ?_)
    rw [hrest, hqueue, List.length_cons, Nat.add_sub_cancel]
  simp [Traffic.after, htakes, brings_of_queue hqueue, hnone]

theorem after_of_fed (hrunning : c.progress = .running) (hopen : c.endpoint.channelOpen = true)
    (hqueue : c.endpoint.session.queue = []) {bytes : Bytes} (hread : socket.read = .ok bytes)
    (entries : List Entry) :
    t.after c socket entries c' = { t with
      queued := t.queued ++ c'.endpoint.session.queue
      brought := t.brought ++ bytes
      entries := t.entries ++ entries } := by
  have htakes : c.takes = none := by rw [takes_of_writes (Or.inl ⟨hrunning, hopen⟩), hqueue]; rfl
  have hbrings : c.brings socket = bytes := by
    simp [brings, hrunning, hqueue, hopen, hread, Except.toOption]
  have hadded : Traffic.added c c' 0 = c'.endpoint.session.queue := by
    rw [Traffic.added, hqueue]
    rfl
  simp [Traffic.after, htakes, hbrings, hadded]

end

/-! ### The pool -/

/-- A pool as it is after uses by one connection and by others, of which these are known: the buffers
that the connection gave back, and all that the others did. -/
def Ledger (before after : BufferPool) (given : List Buffer) (elsewhere : List PoolUse) : Prop :=
  ∃ uses : List (PoolUse ⊕ PoolUse),
    after = (uses.map (Sum.elim id id)).foldl BufferPool.use before ∧
    (uses.filterMap Sum.getLeft?).filterMap PoolUse.givenBack? = given ∧
    uses.filterMap Sum.getRight? = elsewhere

section

variable {before after after' : BufferPool} {given : List Buffer} {elsewhere : List PoolUse}

theorem ledger_refl (before : BufferPool) : Ledger before before [] [] :=
  ⟨[], rfl, rfl, rfl⟩

theorem Ledger.append (h : Ledger before after given elsewhere) (more : List (PoolUse ⊕ PoolUse))
    (hafter : after' = (more.map (Sum.elim id id)).foldl BufferPool.use after) :
    Ledger before after' (given ++ (more.filterMap Sum.getLeft?).filterMap PoolUse.givenBack?)
      (elsewhere ++ more.filterMap Sum.getRight?) := by
  obtain ⟨uses, huses, hgiven, helsewhere⟩ := h
  refine ⟨uses ++ more, ?_, ?_, ?_⟩
  · rw [hafter, huses, List.map_append, List.foldl_append]
  · rw [List.filterMap_append, List.filterMap_append, hgiven]
  · rw [List.filterMap_append, helsewhere]

theorem Ledger.borrow (h : Ledger before after given elsewhere) (sizes : List Nat) :
    Ledger before (sizes.foldl (fun pool n => (pool.acquire n).2) after) given elsewhere := by
  have hmore := h.append (sizes.map fun n => .inl (.borrow n)) rfl
  have hleft : ((sizes.map fun n => (Sum.inl (.borrow n) : PoolUse ⊕ PoolUse)).filterMap
      Sum.getLeft?).filterMap PoolUse.givenBack? = [] := by
    simp [PoolUse.givenBack?, List.filterMap_map, Function.comp_def]
  have hright : (sizes.map fun n => (Sum.inl (.borrow n) : PoolUse ⊕ PoolUse)).filterMap
      Sum.getRight? = [] := by
    simp [List.filterMap_map, Function.comp_def]
  rw [hleft, hright, List.append_nil, List.append_nil, List.map_map, List.foldl_map] at hmore
  exact hmore

theorem Ledger.release (h : Ledger before after given elsewhere) (item : Outbound) :
    Ledger before (Endpoint.release after item) (given ++ [item].filterMap Outbound.frame?)
      elsewhere := by
  cases item with
  | frame buffer =>
      have hmore : Ledger before (after.release buffer) (given ++ [buffer]) (elsewhere ++ []) :=
        h.append [.inl (.giveBack buffer)] rfl
      rwa [List.append_nil] at hmore
  | close =>
      have hnone : [Outbound.close].filterMap Outbound.frame? = [] := rfl
      rwa [hnone, List.append_nil]

end

end Connection

end SpdySessions
