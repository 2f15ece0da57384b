import SpdySessions.Proofs.Wire.Size

/-! What a failed write costs. A payload turns out to be too long when it has been built. No buffer has
been borrowed by then, but a header block has gone through the compressor, and nothing takes that back:
a codec with state is one block ahead of a peer that never sees it. Every other frame fails without a
trace, so the frames around it are read as if it had never been asked for. -/

namespace SpdySessions

namespace Frame

variable {codec : HeaderCodec}

/-- Building the payload of the frame does not move compressors on. -/
def Spares (codec : HeaderCodec) (f : Frame) : Prop :=
  ∀ stream block, f = .headers stream block → ∀ c, (codec.compress c block).2 = c

/-- Only a header block moves the compressor on. -/
theorem payload_compressor (c : codec.Compressor) (v : Version) (f : Frame) :
    (f.payload c v).2 = c ∨
      ∃ stream block, f = .headers stream block ∧ (f.payload c v).2 = (codec.compress c block).2 := by
  cases f with
  | headers stream block => exact Or.inr ⟨stream, block, rfl, rfl⟩
  | settings | ping | goAway | windowUpdate | data | unknown => exact Or.inl rfl

theorem Spares.payload_eq {f : Frame} (h : f.Spares codec) (c : codec.Compressor) (v : Version) :
    (f.payload c v).2 = c := by
  rcases f.payload_compressor c v with hkept | ⟨stream, block, hf, hmoved⟩
  · exact hkept
  · rw [hmoved, h stream block hf c]

end Frame

namespace FrameWriter

variable {codec : HeaderCodec}

/-- A write fails only for the length of the payload. -/
theorem payloadLength_of_error {w : FrameWriter codec} {pool : BufferPool} {v : Version} {f : Frame}
    {fault : Fault} (h : (w.write pool v f).1 = .error fault) :
    Frame.maxPayload < f.payloadLength w.compressor v := by
  rw [← Frame.length_payload]
  apply Nat.lt_of_not_le
  intro hsize
  rw [w.write_of_le pool hsize] at h
  cases h

/-! ### Requests of which some fail -/

/-- A frame that a writer was asked for, and its bytes unless that failed. -/
structure Request where
  version : Version
  frame : Frame
  bytes : Option Bytes

/-- What a writer was asked for, one frame after the other. The pool is shared, so it may be another
one each time. -/
inductive Requested : FrameWriter codec → List Request → Prop
  | nil (w : FrameWriter codec) : Requested w []
  | cons {w next : FrameWriter codec} {pool pool' : BufferPool} {v : Version} {f : Frame}
      {answer : Except Fault Buffer} {requests : List Request} (hpool : pool.Reachable)
      (h : w.write pool v f = (answer, next, pool')) (hrest : Requested next requests) :
      Requested w (⟨v, f, answer.toOption.map Buffer.content⟩ :: requests)

/-- The frames that were written. -/
def sent (requests : List Request) : List (Version × Frame) :=
  (requests.filter fun r => r.bytes.isSome).map fun r => (r.version, r.frame)

/-- If nothing that failed has moved the compressor on, then what was written is what the same writer
writes without the failures. -/
theorem Requested.written {w : FrameWriter codec} {requests : List Request}
    (h : Requested w requests)
    (hspared : ∀ r ∈ requests, r.bytes = none → r.frame.Spares codec) :
    Written w (sent requests) (requests.filterMap Request.bytes) := by
  induction h with
  | nil w => exact .nil w
  | @cons w next pool pool' v f answer requests hpool h hrest ih =>
      have hlater : Written next (sent requests) (requests.filterMap Request.bytes) :=
        ih fun r hr => hspared r (List.mem_cons_of_mem _ hr)
      cases answer with
      | ok buffer => exact .cons hpool h hlater
      | error fault =>
          have hkept : next = w := by
            have hlarge := payloadLength_of_error (congrArg Prod.fst h)
            have hspares : f.Spares codec := hspared _ List.mem_cons_self rfl
            rw [w.write_of_lt v f pool hlarge, hspares.payload_eq] at h
            cases h
            rfl
          exact hkept ▸ hlater

/-! ### Failures that leave no trace -/

/-- A failed write leaves the writer and the pool as they were. -/
def FailsClean (codec : HeaderCodec) : Prop :=
  ∀ (w : FrameWriter codec) (pool : BufferPool) (v : Version) (f : Frame) (fault : Fault),
    (w.write pool v f).1 = .error fault → (w.write pool v f).2 = (w, pool)

/-- What was written around failures is read: the frames that were written, in order, and no others. -/
def ReadAfterFailures (codec : HeaderCodec) (requests : List Request) : Prop :=
  ∀ (listeners : Nat) (chunks : List Bytes),
    chunks.flatten = (requests.filterMap Request.bytes).flatten →
    ∃ next, (FrameReader.fresh codec).parseAll listeners chunks =
      (.ok (sent requests).length,
        ((sent requests).map fun item => Delivery.arrival item.1 item.2).flatMap fun x =>
          (List.range listeners).map fun i => (i, x),
        ⟨next, []⟩)

/-- Failures leave no trace exactly where a block that is too long for a frame of version 2, whose
padding leaves it the least room, does not move the compressor on. -/
theorem failsClean_iff : FailsClean codec ↔ ∀ c block,
    16777209 < (codec.compress c block).1.length → (codec.compress c block).2 = c := by
  constructor
  · intro hclean c block hlong
    have hlarge : Frame.maxPayload < (Frame.headers 1 block).payloadLength c .v2 :=
      Nat.add_lt_add_left hlong 6
    have hwrite := write_of_lt ⟨c⟩ .v2 (.headers 1 block) .standard hlarge
    have hkept := hclean ⟨c⟩ .standard .v2 (.headers 1 block) _ (congrArg Prod.fst hwrite)
    rw [hwrite] at hkept
    exact congrArg (fun after => after.1.compressor) hkept
  · intro hblocks w pool v f fault hfault
    have hlarge := payloadLength_of_error hfault
    rw [w.write_of_lt v f pool hlarge]
    rcases f.payload_compressor w.compressor v with hkept | ⟨stream, block, rfl, hmoved⟩
    · rw [hkept]
    · have hplace : blockPlace v ≤ 6 := by cases v <;> decide
      have hlong : 16777209 < (codec.compress w.compressor block).1.length := by
        rw [Frame.payloadLength, Frame.maxPayload] at hlarge
        omega
      rw [hmoved, hblocks _ _ hlong]

/-- **A failed write costs at most its block.** A write fails only because the payload is longer than
16777215 bytes. The pool is as it was then, and so is the compressor, unless the frame has a header
block; that has gone through the compressor all the same. So failures leave no trace exactly where
blocks that are too long do not move the compressor on. In a codec that loses nothing, frames that
were written around failures which have not moved the compressor on are what a peer reads that is given
their bytes only, in any chunks. -/
theorem failure_costs_its_block (codec : HeaderCodec) :
    (∀ (w : FrameWriter codec) (pool : BufferPool) (v : Version) (f : Frame) (fault : Fault),
      (w.write pool v f).1 = .error fault →
      16777215 < f.payloadLength w.compressor v ∧
      fault = .protocol (.tooLarge (f.payloadLength w.compressor v)) ∧
      (w.write pool v f).2.2 = pool ∧
      ((w.write pool v f).2.1 = w ∨ ∃ stream block, f = .headers stream block ∧
        (w.write pool v f).2.1 = ⟨(codec.compress w.compressor block).2⟩)) ∧
    (FailsClean codec ↔ ∀ c block,
      16777209 < (codec.compress c block).1.length → (codec.compress c block).2 = c) ∧
    (codec.Lossless → ∀ requests, Requested (fresh codec) requests →
      (∀ r ∈ requests, r.frame.Unmistakable) →
      (∀ r ∈ requests, r.bytes = none → r.frame.Spares codec) →
      ReadAfterFailures codec requests) := by
  refine ⟨?_, failsClean_iff, ?_⟩
  · intro w pool v f fault hfault
    have hlarge := payloadLength_of_error hfault
    rw [w.write_of_lt v f pool hlarge] at hfault ⊢
    refine ⟨hlarge, (Except.error.inj hfault).symm, rfl, ?_⟩
    rcases f.payload_compressor w.compressor v with hkept | ⟨stream, block, hf, hmoved⟩
    · exact Or.inl (congrArg FrameWriter.mk hkept)
    · exact Or.inr ⟨stream, block, hf, congrArg FrameWriter.mk hmoved⟩
  · rintro ⟨related, htracks⟩ requests hrequested hkinds hspared listeners chunks hchunks
    have hsent : ∀ item ∈ sent requests, item.2.Unmistakable := by
      intro item hitem
      obtain ⟨r, hr, rfl⟩ := List.mem_map.mp hitem
      exact hkinds r (List.mem_filter.mp hr).1
    obtain ⟨hframes, next, hall⟩ :=
      (hrequested.written hspared).readsAll htracks hsent htracks.start
    have hscan := hall.scan_eq hframes (show FrameReader.cut? [] = none from rfl)
    have hsettled : (FrameReader.fresh codec).Settled := rfl
    refine ⟨next, ?_⟩
    rw [hsettled.parseAll_eq, hchunks, ← List.append_nil (List.flatten _),
      FrameReader.parse_of_scan listeners hscan, List.length_map]
    rfl

/-- Between two header blocks of a codec with state a data frame fails that is one byte too long. The
peer is given the blocks in two chunks, cut inside the second frame. -/
theorem long_data_costs_nothing :
    ∃ requests, Requested (fresh .rolling) requests ∧
      sent requests = [(.v2, .headers 1 [5, 6]), (.v3, .headers 3 [5])] ∧
      (requests.map Request.frame)[1]? = some (.data 1 0 (List.replicate 16777216 7)) ∧
      ∃ next, (FrameReader.fresh .rolling).parseAll 1
        [[0x80, 2, 0, 8, 0, 0, 0, 8, 0, 0, 0, 1, 0, 0, 5, 7, 0x80, 3],
          [0, 8, 0, 0, 0, 5, 0, 0, 0, 3, 7]] =
        (.ok 2, [(0, ⟨some .v2, .headers 1 [5, 6]⟩), (0, ⟨some .v3, .headers 3 [5]⟩)],
          ⟨next, []⟩) := by
  have hpool : BufferPool.standard.Reachable := .empty _ _
  have hlarge : ∀ c : HeaderCodec.rolling.Compressor, Frame.maxPayload <
      (Frame.data 1 0 (List.replicate 16777216 7)).payloadLength c .v3 := by
    intro c
    rw [Frame.payloadLength, List.length_replicate, Frame.maxPayload]
    omega
  have hrequested : Requested (fresh .rolling)
      [⟨.v2, .headers 1 [5, 6], some [0x80, 2, 0, 8, 0, 0, 0, 8, 0, 0, 0, 1, 0, 0, 5, 7]⟩,
        ⟨.v3, .data 1 0 (List.replicate 16777216 7), none⟩,
        ⟨.v3, .headers 3 [5], some [0x80, 3, 0, 8, 0, 0, 0, 5, 0, 0, 0, 3, 7]⟩] :=
    .cons hpool rfl (.cons hpool (write_of_lt ⟨(2 : UInt8)⟩ _ _ _ (hlarge _))
      (.cons hpool rfl (.nil _)))
  have hread := (failure_costs_its_block .rolling).2.2 HeaderCodec.lossless_rolling _
    hrequested (by
      intro r hr kind flags load hunknown
      simp only [List.mem_cons, List.not_mem_nil, or_false] at hr
      rcases hr with rfl | rfl | rfl <;> cases hunknown) (by
      intro r hr hnone stream block hheaders
      simp only [List.mem_cons, List.not_mem_nil, or_false] at hr
      rcases hr with rfl | rfl | rfl
      · cases hnone
      · cases hheaders
      · cases hnone)
  exact ⟨_, hrequested, rfl, rfl, hread 1 _ rfl⟩

/-! ### A block that leaves a trace -/

/-- One byte too long for a frame of version 3. -/
def longBlock : Bytes :=
  List.replicate 16777212 0

theorem length_longBlock : longBlock.length = 16777212 :=
  List.length_replicate

/-- The rolling codec keeps the lengths of blocks. -/
theorem payloadLength_rolling (stream : UInt32) (block : Bytes) :
    (Frame.headers stream block).payloadLength (fresh .rolling).compressor .v3 = 4 + block.length :=
  congrArg (4 + ·) List.length_mapIdx

/-- Asked for a block that is too long, it moves its key on by the length of the block. -/
theorem write_of_longBlock :
    (fresh .rolling).write .standard .v3 (.headers 1 longBlock) =
      (.error (.protocol (.tooLarge 16777216)), ⟨(252 : UInt8)⟩, .standard) := by
  have hload := payloadLength_rolling 1 longBlock
  rw [length_longBlock] at hload
  have hkey : (Frame.payload (fresh .rolling).compressor .v3 (.headers 1 longBlock)).2 =
      (252 : UInt8) := by
    show (0 : UInt8) + UInt8.ofNat longBlock.length = 252
    rw [length_longBlock]
    decide
  have hwrite := write_of_lt (fresh .rolling) .v3 (.headers 1 longBlock) .standard
    (by rw [hload]; decide)
  rw [hload, hkey] at hwrite
  exact hwrite

/-- A header block that is too long moves the key on. The block of the next frame, which is written, is
masked with a key that no peer has, and the peer reads a block that nobody sent. -/
theorem long_block_leaves_trace :
    HeaderCodec.rolling.Lossless ∧ ¬ FailsClean .rolling ∧
    ∃ requests, Requested (fresh .rolling) requests ∧
      (∀ r ∈ requests, r.frame.Unmistakable) ∧
      sent requests = [(.v3, .headers 1 [0])] ∧
      requests.filterMap Request.bytes = [[0x80, 3, 0, 8, 0, 0, 0, 5, 0, 0, 0, 1, 252]] ∧
      (FrameReader.fresh .rolling).parseAll 1 [[0x80, 3, 0, 8, 0, 0, 0, 5, 0, 0, 0, 1, 252]] =
        (.ok 1, [(0, ⟨some .v3, .headers 1 [252]⟩)], ⟨(1 : UInt8), []⟩) ∧
      ¬ ReadAfterFailures .rolling requests := by
  have hpool : BufferPool.standard.Reachable := .empty _ _
  have hrequested : Requested (fresh .rolling)
      [⟨.v3, .headers 1 longBlock, none⟩,
        ⟨.v3, .headers 1 [0], some [0x80, 3, 0, 8, 0, 0, 0, 5, 0, 0, 0, 1, 252]⟩] :=
    .cons hpool write_of_longBlock (.cons hpool rfl (.nil _))
  have hcut : FrameReader.cut? [0x80, 3, 0, 8, 0, 0, 0, 5, 0, 0, 0, 1, 252] =
    some (⟨0x80, 3, 0, 8, 0⟩, [0, 0, 0, 1, 252], []) := rfl
  have hscan : FrameReader.scan (FrameReader.fresh .rolling).decompressor
      ((FrameReader.fresh .rolling).pending ++ [0x80, 3, 0, 8, 0, 0, 0, 5, 0, 0, 0, 1, 252]) =
      ⟨[⟨some .v3, .headers 1 [252]⟩], [], (1 : UInt8), none⟩ :=
    FrameReader.scan_of_single hcut rfl rfl
  have hparse : (FrameReader.fresh .rolling).parseAll 1
      [[0x80, 3, 0, 8, 0, 0, 0, 5, 0, 0, 0, 1, 252]] =
      (.ok 1, [(0, ⟨some .v3, .headers 1 [252]⟩)], ⟨(1 : UInt8), []⟩) := by
    have hsettled : (FrameReader.fresh .rolling).Settled := rfl
    rw [hsettled.parseAll_eq]
    exact FrameReader.parse_of_scan 1 hscan
  refine ⟨HeaderCodec.lossless_rolling, ?_, _, hrequested, ?_, rfl, rfl, hparse, ?_⟩
  · intro hclean
    have hkept := hclean _ _ _ _ _ (congrArg Prod.fst write_of_longBlock)
    rw [write_of_longBlock] at hkept
    have hkey : (252 : UInt8) = 0 := congrArg (fun after => after.1.compressor) hkept
    exact absurd hkey (by decide)
  · intro r hr kind flags load hunknown
    simp only [List.mem_cons, List.not_mem_nil, or_false] at hr
    rcases hr with rfl | rfl <;> cases hunknown
  · intro hread
    obtain ⟨next, hsays⟩ := hread 1 _ rfl
    have hheard := hparse.symm.trans hsays
    have hlogs : [(0, (⟨some .v3, .headers 1 [252]⟩ : Delivery))] =
        [(0, ⟨some .v3, .headers 1 [0]⟩)] := congrArg (fun answer => answer.2.1) hheard
    exact absurd hlogs (by decide)

end FrameWriter

end SpdySessions
