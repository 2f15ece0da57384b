import SpdySessions.Connection
import SpdySessions.Proofs.Session.Calls

/-! What one turn of a connection can do. It moves one thing: the head of the queue to the socket, or
what the socket brings to the session, or itself towards its end. Every fact about turns is read off
these cases. -/

namespace SpdySessions.Connection

open Session (Listener Entry)

variable {codec : HeaderCodec}

/-- The queue is being written, as long as the channel is open or because it has been closed. -/
def Writes (c : Connection codec) : Prop :=
  (c.progress = .running ∧ c.endpoint.channelOpen = true) ∨ c.progress = .draining

/-- The endpoint after some bytes have been taken in. -/
def fed (c : Connection codec) (listener : Listener) (bytes : Bytes) : Connection codec :=
  { c with endpoint := (c.endpoint.feed listener bytes).2.2.2 }

/-- What came of a turn. -/
inductive Turned (c : Connection codec) (listener : Listener) (socket : Socket) :
    List Entry → Connection codec → Prop
  | noticed (hrunning : c.progress = .running) (hclosed : c.endpoint.channelOpen = false) :
      Turned c listener socket [] { c with progress := .draining }
  | wrote {buffer : Buffer} {rest : List Outbound} (hwrites : c.Writes)
      (hqueue : c.endpoint.session.queue = .frame buffer :: rest) (hwrite : socket.write = .ok ()) :
      Turned c listener socket []
        { c.dequeue (.frame buffer) rest with written := c.written ++ buffer.content }
  | lost {buffer : Buffer} {rest : List Outbound} {fault : Fault} (hwrites : c.Writes)
      (hqueue : c.endpoint.session.queue = .frame buffer :: rest)
      (hwrite : socket.write = .error fault) :
      Turned c listener socket [] ((c.dequeue (.frame buffer) rest).leave (.error fault))
  | asked {rest : List Outbound} (hrunning : c.progress = .running)
      (hopen : c.endpoint.channelOpen = true) (hqueue : c.endpoint.session.queue = .close :: rest) :
      Turned c listener socket [] ((c.dequeue .close rest).leave socket.flush)
  | skipped {rest : List Outbound} (hdraining : c.progress = .draining)
      (hqueue : c.endpoint.session.queue = .close :: rest) :
      Turned c listener socket [] (c.dequeue .close rest)
  | drained (hdraining : c.progress = .draining) (hqueue : c.endpoint.session.queue = []) :
      Turned c listener socket [] (c.leave socket.flush)
  | brokeOff {result : Except Fault Unit} (hrunning : c.progress = .running)
      (hopen : c.endpoint.channelOpen = true) (hqueue : c.endpoint.session.queue = [])
      (hread : socket.read.toOption.getD [] = []) : Turned c listener socket [] (c.leave result)
  | fed {bytes : Bytes} (hrunning : c.progress = .running) (hopen : c.endpoint.channelOpen = true)
      (hqueue : c.endpoint.session.queue = []) (hread : socket.read = .ok bytes)
      (hfine : (c.endpoint.reader.feed bytes).2.1 = none) :
      Turned c listener socket (c.endpoint.feed listener bytes).1 (c.fed listener bytes)
  | fedLast {bytes : Bytes} {fault : Fault} (hrunning : c.progress = .running)
      (hopen : c.endpoint.channelOpen = true) (hqueue : c.endpoint.session.queue = [])
      (hread : socket.read = .ok bytes) :
      Turned c listener socket (c.endpoint.feed listener bytes).1
        ((c.fed listener bytes).leave (.error fault))
  | left {result : Except Fault Unit} (hleaving : c.progress = .leaving result) :
      Turned c listener socket [] (c.finish result)
  | stayed {result : Except Fault Unit} (hended : c.progress = .ended result) :
      Turned c listener socket [] c

/-- Writing the head of the queue. -/
theorem turned_write {c : Connection codec} {buffer : Buffer} {rest : List Outbound}
    (listener : Listener) (socket : Socket) (hwrites : c.Writes)
    (hqueue : c.endpoint.session.queue = .frame buffer :: rest) :
    Turned c listener socket [] ((c.dequeue (.frame buffer) rest).write socket buffer) := by
  unfold write
  cases hwrite : socket.write with
  | error fault => exact .lost hwrites hqueue hwrite
  | ok _ => exact .wrote hwrites hqueue hwrite

/-- Taking in what the socket brings. -/
theorem turned_read {c : Connection codec} (listener : Listener) (socket : Socket)
    (hrunning : c.progress = .running) (hopen : c.endpoint.channelOpen = true)
    (hqueue : c.endpoint.session.queue = []) :
    Turned c listener socket (c.read listener socket).1 (c.read listener socket).2 := by
  unfold read
  split
  · rename_i fault hread
    exact .brokeOff hrunning hopen hqueue (by rw [hread]; rfl)
  · rename_i hread
    exact .brokeOff hrunning hopen hqueue (by rw [hread]; rfl)
  · rename_i bytes _ hread
    dsimp only
    split
    · exact .fedLast hrunning hopen hqueue hread
    · exact .fedLast hrunning hopen hqueue hread
    · rename_i hfault _
      exact .fed hrunning hopen hqueue hread hfault

theorem turned (c : Connection codec) (listener : Listener) (socket : Socket) :
    Turned c listener socket (c.turn listener socket).1 (c.turn listener socket).2 := by
  unfold turn
  split
  · rename_i hrunning
    cases hopen : c.endpoint.channelOpen with
    | false => exact .noticed hrunning hopen
    | true =>
        simp only [Bool.not_true, Bool.false_eq_true, if_false]
        split
        · rename_i buffer rest hqueue
          exact turned_write listener socket (Or.inl ⟨hrunning, hopen⟩) hqueue
        · rename_i rest hqueue
          exact .asked hrunning hopen hqueue
        · rename_i hqueue
          exact turned_read listener socket hrunning hopen hqueue
  · rename_i hdraining
    split
    · rename_i buffer rest hqueue
      exact turned_write listener socket (Or.inr hdraining) hqueue
    · rename_i rest hqueue
      exact .skipped hdraining hqueue
    · rename_i hqueue
      exact .drained hdraining hqueue
  · rename_i result hleaving
    exact .left hleaving
  · rename_i result hended
    exact .stayed hended

/-! ### What no turn changes -/

theorem serves_feed (e : Endpoint codec) (listener : Listener) (bytes : Bytes) :
    Endpoint.Serves { e with reader := (e.reader.feed bytes).2.2 } (e.feed listener bytes).2.2.2 :=
  Endpoint.serves_receiveAll _ listener _

/-- A turn leaves the session who it is, opens no channel and tells nobody of an end. -/
theorem Turned.same {c c' : Connection codec} {listener : Listener} {socket : Socket}
    {entries : List Entry} (h : Turned c listener socket entries c') :
    c'.endpoint.session.id = c.endpoint.session.id ∧
    c'.endpoint.session.closed = c.endpoint.session.closed ∧
    (c.endpoint.channelOpen = false → c'.endpoint.channelOpen = false) ∧
    entries.countP Entry.isEnd = 0 := by
  cases h with
  | noticed _ _ => exact ⟨rfl, rfl, fun h => h, rfl⟩
  | wrote _ _ _ => exact ⟨rfl, rfl, fun h => h, rfl⟩
  | lost _ _ _ => exact ⟨rfl, rfl, fun h => h, rfl⟩
  | asked _ _ _ => exact ⟨rfl, rfl, fun h => h, rfl⟩
  | skipped _ _ => exact ⟨rfl, rfl, fun h => h, rfl⟩
  | drained _ _ => exact ⟨rfl, rfl, fun h => h, rfl⟩
  | brokeOff _ _ _ _ => exact ⟨rfl, rfl, fun h => h, rfl⟩
  | @fed bytes _ _ _ _ _ =>
      have hserves := serves_feed c.endpoint listener bytes
      exact ⟨hserves.id, hserves.closed, hserves.channel, Endpoint.countP_isEnd_receiveAll _ _ _⟩
  | @fedLast bytes _ _ _ _ _ =>
      have hserves := serves_feed c.endpoint listener bytes
      exact ⟨hserves.id, hserves.closed, hserves.channel, Endpoint.countP_isEnd_receiveAll _ _ _⟩
  | left _ => exact ⟨rfl, rfl, fun _ => rfl, rfl⟩
  | stayed _ => exact ⟨rfl, rfl, fun h => h, rfl⟩

end SpdySessions.Connection
