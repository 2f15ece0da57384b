import SpdySessions.Proofs.Wire.Acceptance
import SpdySessions.Proofs.Wire.Writing

/-! What is written is what is read. A writer shares its pool with others, so between two of its
frames the pool may change in any way that borrowing and giving back can change it; its buffers come
empty all the same. The induction is on the frames that were written, and carries the relation
between the compressor, which the frames so far have moved on, and the decompressor of a reader that
has read them. -/

namespace SpdySessions

/-! ### Buffers of a shared pool -/

namespace BufferPool

/-- The pools that come about by borrowing and giving back, by whomever. -/
inductive Reachable : BufferPool → Prop
  | empty (bufferSize maxPooled : Nat) : Reachable ⟨bufferSize, maxPooled, []⟩
  | acquire {p : BufferPool} (h : Reachable p) (n : Nat) : Reachable (p.acquire n).2
  | release {p : BufferPool} (h : Reachable p) (b : Buffer) : Reachable (p.release b)

theorem Reachable.content_idle {p : BufferPool} (h : Reachable p) : ∀ b ∈ p.idle, b.content = [] := by
  induction h with
  | empty bufferSize maxPooled =>
      intro b hb
      cases hb
  | @acquire p h n ih =>
      intro b hb
      unfold BufferPool.acquire at hb
      split at hb
      · exact ih b hb
      · rename_i first rest hidle
        exact ih b (hidle ▸ List.mem_cons_of_mem first hb)
  | @release p h given ih =>
      intro b hb
      unfold BufferPool.release at hb
      split at hb
      · rcases List.mem_cons.mp hb with rfl | hb
        · rfl
        · exact ih b hb
      · exact ih b hb

/-- A borrowed buffer is empty. -/
theorem Reachable.content_acquire {p : BufferPool} (h : Reachable p) (n : Nat) :
    (p.acquire n).1.content = [] := by
  unfold BufferPool.acquire
  split
  · rfl
  · rename_i first rest hidle
    exact h.content_idle first (hidle ▸ List.mem_cons_self)

end BufferPool

namespace FrameWriter

variable {codec : HeaderCodec}

/-- A payload that its length field can express is written. -/
theorem write_of_le (writer : FrameWriter codec) (pool : BufferPool)
    {v : Version} {f : Frame} (h : (f.payload writer.compressor v).1.length ≤ Frame.maxPayload) :
    writer.write pool v f =
      let size := Frame.headerSize + (f.payload writer.compressor v).1.length
      (.ok ((pool.acquire size).1.append (f.wire writer.compressor v).1),
        ⟨(f.wire writer.compressor v).2⟩, (pool.acquire size).2) :=
  if_neg (Nat.not_lt.mpr h)

/-- A buffer that was written holds the bytes of the frame and nothing else. -/
theorem content_of_write {w next : FrameWriter codec} {pool pool' : BufferPool} {v : Version}
    {f : Frame} {buffer : Buffer} (hpool : pool.Reachable)
    (h : w.write pool v f = (.ok buffer, next, pool')) :
    buffer.content = (f.wire w.compressor v).1 ∧ next.compressor = (f.wire w.compressor v).2 ∧
      (f.payload w.compressor v).1.length ≤ Frame.maxPayload := by
  simp only [write] at h
  split at h
  · cases h
  · rename_i hsize
    simp only [Prod.mk.injEq, Except.ok.injEq] at h
    obtain ⟨rfl, rfl, rfl⟩ := h
    refine ⟨?_, rfl, Nat.not_lt.mp hsize⟩
    show _ ++ _ = _
    rw [hpool.content_acquire]
    rfl

/-- Frames written one after the other without a fault, and the bytes of each. -/
inductive Written : FrameWriter codec → List (Version × Frame) → List Bytes → Prop
  | nil (w : FrameWriter codec) : Written w [] []
  | cons {w next : FrameWriter codec} {pool pool' : BufferPool} {v : Version} {f : Frame}
      {buffer : Buffer} {items : List (Version × Frame)} {wire : List Bytes} (hpool : pool.Reachable)
      (h : w.write pool v f = (.ok buffer, next, pool')) (hrest : Written next items wire) :
      Written w ((v, f) :: items) (buffer.content :: wire)

open Grammar

/-- What is written is a list of complete frames that say, one after the other, what was sent. -/
theorem Written.readsAll {related : codec.Compressor → codec.Decompressor → Prop}
    (htracks : codec.Tracks related) {w : FrameWriter codec} {items : List (Version × Frame)}
    {wire : List Bytes} (h : Written w items wire) (hkinds : ∀ item ∈ items, item.2.Unmistakable)
    {d : codec.Decompressor} (hrelated : related w.compressor d) :
    (∀ bytes ∈ wire, IsFrame bytes) ∧
      ∃ next, ReadsAll d wire (items.map fun item => Delivery.arrival item.1 item.2) next := by
  induction h generalizing d with
  | nil w => exact ⟨fun bytes hbytes => absurd hbytes List.not_mem_nil, d, .nil d⟩
  | @cons w next pool pool' v f buffer items wire hpool h hrest ih =>
      obtain ⟨hcontent, hnext, hsize⟩ := content_of_write hpool h
      obtain ⟨mid, hreads, hmid⟩ :=
        reads_wire htracks hrelated v (hkinds (v, f) List.mem_cons_self) hsize
      rw [← hcontent] at hreads
      rw [← hnext] at hmid
      obtain ⟨hframes, last, hall⟩ :=
        ih (fun item hitem => hkinds item (List.mem_cons_of_mem _ hitem)) hmid
      refine ⟨?_, last, .cons hreads hall⟩
      intro bytes hbytes
      rcases List.mem_cons.mp hbytes with rfl | hbytes
      · rw [hcontent]
        exact isFrame_header v f _ hsize
      · exact hframes bytes hbytes

end FrameWriter

/-! ### A codec with state -/

namespace HeaderCodec

/-- Masking twice with the same key undoes itself. -/
theorem mask_mask (key : UInt8) (block : Bytes) : mask key (mask key block) = block := by
  rw [mask, mask, List.mapIdx_mapIdx, List.mapIdx_eq_iff]
  intro i
  have hmask : ((· ^^^ (key + UInt8.ofNat i)) ∘ (· ^^^ (key + UInt8.ofNat i)) : UInt8 → UInt8) =
      id := by
    funext b
    show b ^^^ (key + UInt8.ofNat i) ^^^ (key + UInt8.ofNat i) = b
    rw [UInt8.xor_assoc, UInt8.xor_self, UInt8.xor_zero]
  rw [hmask, Option.map_id_apply]

/-- The keys of both sides are the same and move on by the lengths of the blocks. -/
theorem lossless_rolling : Lossless rolling := by
  refine ⟨Eq, rfl, ?_, ?_⟩
  · rintro key - block rfl
    exact congrArg Except.ok (mask_mask key block)
  · rintro (key : UInt8) - block rfl
    have hlength : (mask key block).length = block.length := List.length_mapIdx
    exact congrArg (fun n => key + UInt8.ofNat n) hlength.symm

end HeaderCodec

namespace FrameReader

open FrameWriter (Written)

variable {codec : HeaderCodec}

/-- **What is written is what is read.** Frames of both versions, mixed freely, that one writer has
written without a fault, in a codec that loses nothing along a run: a fresh reader that is given their
bytes in any chunks answers their number and tells each listener of each frame once, in order, as
frames arrive, and nothing is pending in the end. Only a frame that is sent as one of an unknown type
must not have the number of a known one. -/
theorem parseAll_written (hcodec : codec.Lossless) {items : List (Version × Frame)}
    (hkinds : ∀ item ∈ items, item.2.Unmistakable) {wire chunks : List Bytes}
    (hwritten : Written (FrameWriter.fresh codec) items wire)
    (hchunks : chunks.flatten = wire.flatten) (listeners : Nat) :
    ∃ next, (fresh codec).parseAll listeners chunks =
      (.ok items.length,
        (items.map fun item => Delivery.arrival item.1 item.2).flatMap fun x =>
          (List.range listeners).map fun i => (i, x),
        ⟨next, []⟩) := by
  obtain ⟨related, htracks⟩ := hcodec
  obtain ⟨hframes, next, hall⟩ := hwritten.readsAll htracks hkinds htracks.start
  have hsettled : (fresh codec).Settled := rfl
  have hscan := hall.scan_eq hframes (show cut? [] = none from rfl)
  rw [List.append_nil] at hscan
  refine ⟨next, ?_⟩
  rw [hsettled.parseAll_eq, hchunks, parse_of_scan listeners hscan, List.length_map]
  rfl

/-- Frames of both versions whose words use their reserved bits, one of a type that is not known, and
two with header blocks. -/
def mixed : List (Version × Frame) :=
  [(.v2, .headers 0x80000001 [5, 6]), (.v3, .settings true [⟨0x02000007, 1, 9⟩]),
    (.v3, .data 0x80000003 1 [7]), (.v2, .unknown 77 4 [8]), (.v3, .headers 3 [5])]

/-- The bytes come cut inside a header and inside a header block, and go to two listeners. -/
theorem parseAll_written_mixed :
    ∃ next, (fresh HeaderCodec.rolling).parseAll 2
      [[128, 2, 0, 8, 0, 0], [0, 8, 0, 0, 0, 1, 0, 0, 5], [],
        [7, 128, 3, 0, 4, 1, 0, 0, 12, 0, 0, 0, 1, 1, 0, 0, 7, 0, 0, 0, 9, 0, 0, 0, 3, 1, 0, 0, 1],
        [7, 128, 2, 0, 77, 4, 0, 0, 1, 8, 128, 3, 0, 8, 0, 0, 0, 5, 0, 0, 0, 3, 7]] =
      (.ok 5,
        [⟨some .v2, .headers 1 [5, 6]⟩, ⟨some .v3, .settings true [⟨7, 1, 9⟩]⟩,
          ⟨none, .data 3 1 [7]⟩, ⟨some .v2, .unknown 77 4 [8]⟩, ⟨some .v3, .headers 3 [5]⟩].flatMap
            fun x => (List.range 2).map fun i => (i, x),
        ⟨next, []⟩) := by
  have hwritten : ∃ wire, Written (FrameWriter.fresh HeaderCodec.rolling) mixed wire ∧
      wire.flatten =
        [128, 2, 0, 8, 0, 0, 0, 8, 0, 0, 0, 1, 0, 0, 5, 7] ++
        [128, 3, 0, 4, 1, 0, 0, 12, 0, 0, 0, 1, 1, 0, 0, 7, 0, 0, 0, 9] ++
        [0, 0, 0, 3, 1, 0, 0, 1, 7] ++ [128, 2, 0, 77, 4, 0, 0, 1, 8] ++
        [128, 3, 0, 8, 0, 0, 0, 5, 0, 0, 0, 3, 7] :=
    ⟨_, .cons (.empty 16 4) rfl (.cons (.empty 16 4) rfl (.cons (.empty 16 4) rfl
      (.cons (.empty 16 4) rfl (.cons (.empty 16 4) rfl (.nil _))))), rfl⟩
  have hkinds : ∀ item ∈ mixed, item.2.Unmistakable := by
    intro item hitem kind flags load hunknown
    simp only [mixed, List.mem_cons, List.not_mem_nil, or_false] at hitem
    rcases hitem with rfl | rfl | rfl | rfl | rfl <;> cases hunknown
    decide
  obtain ⟨wire, hwritten, hwire⟩ := hwritten
  exact parseAll_written HeaderCodec.lossless_rolling hkinds hwritten (by rw [hwire]; rfl) 2

end FrameReader

end SpdySessions
