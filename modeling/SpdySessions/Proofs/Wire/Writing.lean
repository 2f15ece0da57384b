import SpdySessions.Proofs.Wire.Grammar
import SpdySessions.Wire.FrameWriter

/-! What a written frame says. A frame does not arrive as it was sent in every detail: reserved bits
are cleared, settings have numbers of three bytes, and a farewell of version 2 has no status. Up to
that, the bytes of each frame are a complete frame of the grammar that says it, whichever of the two
layouts is used; of the codec only the one block of the frame is asked. -/

namespace SpdySessions

/-! ### Frames as they arrive -/

/-- The low 24 bits of a word. -/
def low24 (w : UInt32) : UInt32 :=
  UInt32.ofNat (w.toNat % 0x1000000)

namespace Setting

def arrival (s : Setting) : Setting :=
  { s with id := low24 s.id }

end Setting

namespace Frame

/-- A frame as the other side reads it. -/
def arrival (version : Version) : Frame → Frame
  | settings clear entries => settings clear (entries.map Setting.arrival)
  | ping id => ping id
  | goAway lastGoodStream status =>
      goAway (low31 lastGoodStream)
        (match version with
          | .v2 => 0
          | .v3 => status)
  | headers stream block => headers (low31 stream) block
  | windowUpdate stream delta => windowUpdate (low31 stream) (low31 delta)
  | data stream flags payload => data (low31 stream) flags payload
  | unknown kind flags payload => unknown kind flags payload

/-- The bytes of a frame with its payload, and the compressor after it. -/
def wire {codec : HeaderCodec} (compressor : codec.Compressor) (version : Version) (frame : Frame) :
    Bytes × codec.Compressor :=
  let (payload, next) := frame.payload compressor version
  (frame.header version payload.length ++ payload, next)

/-- A frame that is not taken for one of a known type. -/
def Unmistakable (frame : Frame) : Prop :=
  ∀ kind flags payload, frame = unknown kind flags payload → kind ∉ knownKinds

end Frame

namespace Delivery

/-- What is delivered of a frame: a control frame names its version, a data frame has none. -/
def arrival (version : Version) (frame : Frame) : Delivery :=
  ⟨frame.kind?.map fun _ => version, frame.arrival version⟩

end Delivery

/-! ### Words as they are written -/

theorem number_be16 (w : UInt16) : number (Bytes.be16 w) = w.toNat := by
  have hw := w.toNat_lt
  rw [Bytes.be16, number_two, UInt8.toNat_ofNat', UInt8.toNat_ofNat']
  omega

theorem number_be24 (w : UInt32) : number (Bytes.be24 w) = w.toNat % 0x1000000 := by
  rw [Bytes.be24, number_three, UInt8.toNat_ofNat', UInt8.toNat_ofNat', UInt8.toNat_ofNat']
  omega

theorem number_be32 (w : UInt32) : number (Bytes.be32 w) = w.toNat := by
  have hw := w.toNat_lt
  rw [Bytes.be32, Bytes.be24, number_four, UInt8.toNat_ofNat', UInt8.toNat_ofNat',
    UInt8.toNat_ofNat', UInt8.toNat_ofNat']
  omega

theorem field_be32 (w : UInt32) (more : Bytes) : field (Bytes.be32 w ++ more) 0 4 = w.toNat :=
  number_be32 w

theorem wordAt_be32 (w : UInt32) (more : Bytes) : wordAt (Bytes.be32 w ++ more) 0 = w := by
  rw [wordAt, field_be32, UInt32.ofNat_toNat]

theorem word31At_be32 (w : UInt32) (more : Bytes) :
    word31At (Bytes.be32 (low31 w) ++ more) 0 = low31 w := by
  rw [word31At, field_be32, toNat_low31, Nat.mod_mod]
  rfl

theorem wordAt_append {bytes : Bytes} {place : Nat} (h : bytes.length = place) (more : Bytes) :
    wordAt (bytes ++ more) place = wordAt more 0 := by
  rw [wordAt, field, List.drop_append_of_le_length (Nat.le_of_eq h.symm), ← h, List.drop_length]
  rfl

theorem word31At_append {bytes : Bytes} {place : Nat} (h : bytes.length = place) (more : Bytes) :
    word31At (bytes ++ more) place = word31At more 0 := by
  rw [word31At, field, List.drop_append_of_le_length (Nat.le_of_eq h.symm), ← h, List.drop_length]
  rfl

namespace Setting

theorem length_bytes (version : Version) (s : Setting) : (bytes version s).length = 8 := by
  cases version <;> rfl

theorem length_flatMap_bytes (version : Version) (entries : List Setting) :
    (entries.flatMap (bytes version)).length = 8 * entries.length := by
  induction entries with
  | nil => rfl
  | cons s entries ih =>
      rw [List.flatMap_cons, List.length_append, length_bytes, ih, List.length_cons]
      omega

/-- Settings are read as they were written, their numbers cut to three bytes. -/
theorem ofBytes_flatMap_bytes (version : Version) (entries : List Setting) :
    ofBytes version (entries.flatMap (bytes version)) = entries.map arrival := by
  induction entries with
  | nil => rfl
  | cons s entries ih =>
      have hnumber : Bytes.word24 (UInt8.ofNat (s.id.toNat / 0x10000)) (UInt8.ofNat (s.id.toNat / 0x100))
          (UInt8.ofNat s.id.toNat) = low24 s.id := by
        rw [word24_eq]
        exact congrArg UInt32.ofNat (number_be24 s.id)
      have hvalue := Bytes.word32_be32 s.value
      rw [List.flatMap_cons, List.map_cons, ← ih]
      cases version with
      | v2 =>
          show Setting.mk (Bytes.word24 _ _ _) s.flags (Bytes.word32 _ _ _ _) :: _ = _
          rw [hnumber, hvalue]
          rfl
      | v3 =>
          show Setting.mk (Bytes.word24 _ _ _) s.flags (Bytes.word32 _ _ _ _) :: _ = _
          rw [hnumber, hvalue]
          rfl

end Setting

/-! ### Codecs that lose nothing -/

namespace HeaderCodec

/-- A relation between the two states of a codec that holds at the start, and that a block sent
through both keeps; while it holds, blocks come back. -/
structure Tracks (codec : HeaderCodec) (related : codec.Compressor → codec.Decompressor → Prop) :
    Prop where
  start : related codec.compressor codec.decompressor
  block : ∀ c d block, related c d →
    (codec.decompress d (codec.compress c block).1).1 = .ok block
  follow : ∀ c d block, related c d →
    related (codec.compress c block).2 (codec.decompress d (codec.compress c block).1).2

/-- Along a run of blocks, each comes back. -/
def Lossless (codec : HeaderCodec) : Prop :=
  ∃ related, codec.Tracks related

end HeaderCodec

/-! ### Written frames in the grammar -/

namespace Grammar

section

variable (v : Version) (f : Frame) (load : Bytes)

theorem exists_headerWord : ∃ a b c d, f.headerWord v = [a, b, c, d] := by
  cases f <;> exact ⟨_, _, _, _, rfl⟩

theorem flags_header (n : Nat) : flags (f.header v n ++ load) = f.headerFlags := by
  obtain ⟨a, b, c, d, hword⟩ := exists_headerWord v f
  rw [Frame.header, hword]
  exact ofNat_number_one f.headerFlags

theorem payload_header (n : Nat) : payload (f.header v n ++ load) = load := by
  obtain ⟨a, b, c, d, hword⟩ := exists_headerWord v f
  rw [Frame.header, hword]
  rfl

theorem isFrame_header (h : load.length ≤ Frame.maxPayload) :
    IsFrame (f.header v load.length ++ load) := by
  obtain ⟨a, b, c, d, hword⟩ := exists_headerWord v f
  have hlength : field (f.header v load.length ++ load) 5 3 =
      number (Bytes.be24 (UInt32.ofNat load.length)) := by
    rw [Frame.header, hword]
    rfl
  have hsize : (f.header v load.length ++ load).length = 8 + load.length := by
    rw [Frame.header, hword, List.length_append]
    rfl
  have hmax : load.length ≤ 0xffffff := h
  rw [IsFrame, hlength, hsize, number_be24, UInt32.toNat_ofNat', Frame.headerSize]
  omega

variable {f} {k : UInt16}

theorem headerWord_of_kind (h : f.kind? = some k) :
    f.headerWord v = Bytes.be16 (0x8000 ||| v.number) ++ Bytes.be16 k := by
  cases f <;> cases h <;> rfl

theorem kind_header (h : f.kind? = some k) (n : Nat) : kind (f.header v n ++ load) = k := by
  have hfield : field (f.header v n ++ load) 2 2 = number (Bytes.be16 k) := by
    rw [Frame.header, headerWord_of_kind v h]
    rfl
  rw [kind, hfield, number_be16, UInt16.ofNat_toNat]

theorem control_header (h : f.kind? = some k) (n : Nat) : Control (f.header v n ++ load) v := by
  have hfirst : field (f.header v n ++ load) 0 1 = 0x80 := by
    rw [Frame.header, headerWord_of_kind v h]
    cases v <;> rfl
  have hword : field (f.header v n ++ load) 0 2 = 0x8000 + v.number.toNat := by
    rw [Frame.header, headerWord_of_kind v h]
    cases v <;> rfl
  constructor
  · exact Nat.le_of_eq hfirst.symm
  · rw [versionNumber, hword]
    cases v <;> rfl

/-- A data frame leaves the top bit clear, which makes it one. -/
theorem not_isControl_header (stream : UInt32) (flags : UInt8) (data : Bytes) (n : Nat) :
    ¬IsControl ((Frame.data stream flags data).header v n ++ load) := by
  have hfirst : field ((Frame.data stream flags data).header v n ++ load) 0 1 =
      (UInt8.ofNat ((low31 stream).toNat / 0x1000000)).toNat :=
    number_one _
  rw [IsControl, hfirst, UInt8.toNat_ofNat', toNat_low31]
  omega

end

variable {codec : HeaderCodec} {related : codec.Compressor → codec.Decompressor → Prop}

/-- The entries stand behind their number, one after the other. -/
theorem settings_payload (v : Version) (entries : List Setting) {load : Bytes}
    (hload : load = Bytes.be32 (UInt32.ofNat entries.length) ++ entries.flatMap (Setting.bytes v))
    (hmax : load.length ≤ Frame.maxPayload) :
    load.length = 4 + 8 * entries.length ∧ field load 0 4 = entries.length ∧
      (List.range entries.length).map (fun i => settingAt v load (4 + 8 * i)) =
        entries.map Setting.arrival := by
  have hentries := Setting.length_flatMap_bytes v entries
  have hlength : load.length = 4 + 8 * entries.length := by
    rw [hload, List.length_append, hentries, Bytes.length_be32]
  have hroom : 4 + 8 * entries.length ≤ 0xffffff := hlength ▸ hmax
  subst hload
  refine ⟨hlength, ?_, ?_⟩
  · rw [field_be32, UInt32.toNat_ofNat']
    omega
  · rw [← Setting.ofBytes_flatMap_bytes v, ofBytes_eq v entries.length _ hentries]
    refine List.map_congr_left fun i _ => ?_
    rw [← settingAt_drop]
    rfl

/-- The bytes of a frame without a header block say the frame, whatever the codecs on either side. -/
theorem reads_plain {codec' : HeaderCodec} (c : codec'.Compressor) (d : codec.Decompressor) (v : Version)
    {f : Frame} (hplain : ∀ stream block, f ≠ .headers stream block) (hkind : f.Unmistakable)
    (hsize : (f.payload c v).1.length ≤ Frame.maxPayload) :
    Reads d (f.wire c v).1 (Delivery.arrival v f) d := by
  -- Each constructor of the grammar asks about the header and the payload of the bytes: these are
  -- the header of the frame and the payload that was written.
  have hload : payload (f.wire c v).1 = (f.payload c v).1 := payload_header v f _ _
  have hflags : flags (f.wire c v).1 = f.headerFlags := flags_header v f _ _
  have hcontrol : ∀ {k}, f.kind? = some k → Control (f.wire c v).1 v ∧ kind (f.wire c v).1 = k :=
    fun h => ⟨control_header v _ h _, kind_header v _ h _⟩
  cases f with
  | settings clear entries =>
      obtain ⟨hspoken, hk⟩ := hcontrol rfl
      obtain ⟨hlength, hcount, hentries⟩ := settings_payload v entries hload (hload ▸ hsize)
      have hclear : ((Frame.settings clear entries).headerFlags.toNat % 2 == 1) = clear := by
        cases clear <;> rfl
      have hread := Reads.settings (d := d) hspoken hk (by omega) (by rw [hcount, hlength])
      rw [hcount, hentries, hflags, hclear] at hread
      exact hread
  | ping id =>
      obtain ⟨hspoken, hk⟩ := hcontrol rfl
      have hword : wordAt (payload ((Frame.ping id).wire c v).1) 0 = id := by
        rw [hload]
        exact wordAt_be32 id []
      have hread := Reads.ping (d := d) hspoken hk (by rw [hload]; rfl)
      rw [hword] at hread
      exact hread
  | goAway lastGoodStream status =>
      obtain ⟨hspoken, hk⟩ := hcontrol rfl
      have hstream : word31At (payload ((Frame.goAway lastGoodStream status).wire c v).1) 0 =
          low31 lastGoodStream := by
        rw [hload]
        exact word31At_be32 lastGoodStream _
      have hread := Reads.goAway (d := d) hspoken hk (by rw [hload]; cases v <;> rfl)
      rw [hstream, hload] at hread
      cases v with
      | v2 => exact hread
      | v3 =>
          have hstatus : goAwayStatus .v3 ((Frame.goAway lastGoodStream status).payload c .v3).1 =
              status := by
            show wordAt (Bytes.be32 (low31 lastGoodStream) ++ Bytes.be32 status) 4 = status
            rw [wordAt_append (Bytes.length_be32 _)]
            exact wordAt_be32 status []
          rw [hstatus] at hread
          exact hread
  | headers stream block => exact absurd rfl (hplain stream block)
  | windowUpdate stream delta =>
      obtain ⟨hspoken, hk⟩ := hcontrol rfl
      have hstream : word31At (payload ((Frame.windowUpdate stream delta).wire c v).1) 0 =
          low31 stream := by
        rw [hload]
        exact word31At_be32 stream _
      have hdelta : word31At (payload ((Frame.windowUpdate stream delta).wire c v).1) 4 =
          low31 delta := by
        rw [hload]
        show word31At (Bytes.be32 (low31 stream) ++ Bytes.be32 (low31 delta)) 4 = _
        rw [word31At_append (Bytes.length_be32 _)]
        exact word31At_be32 delta []
      have hread := Reads.windowUpdate (d := d) hspoken hk (by rw [hload]; rfl)
      rw [hstream, hdelta] at hread
      exact hread
  | data stream flags load =>
      have hstream : word31At ((Frame.data stream flags load).wire c v).1 0 = low31 stream :=
        word31At_be32 stream _
      have hdata : ¬IsControl ((Frame.data stream flags load).wire c v).1 :=
        not_isControl_header v load stream flags load load.length
      have hread := Reads.data (d := d) hdata
      rw [hstream, hload, hflags] at hread
      exact hread
  | unknown kind flags load =>
      obtain ⟨hspoken, hk⟩ := hcontrol rfl
      have hread := Reads.unknown (d := d) hspoken (by rw [hk]; exact hkind kind flags load rfl)
      rw [hload, hk, hflags] at hread
      exact hread

/-- **The bytes of a frame say the frame.** They are read as the frame arrives, in both layouts, and
the decompressor follows the compressor. -/
theorem reads_wire (htracks : codec.Tracks related) {c : codec.Compressor} {d : codec.Decompressor}
    (hrelated : related c d) (v : Version) {f : Frame} (hkind : f.Unmistakable)
    (hsize : (f.payload c v).1.length ≤ Frame.maxPayload) :
    ∃ next, Reads d (f.wire c v).1 (Delivery.arrival v f) next ∧ related (f.wire c v).2 next := by
  by_cases hblock : ∃ stream block, f = .headers stream block
  · obtain ⟨stream, block, rfl⟩ := hblock
    have hload : payload ((Frame.headers stream block).wire c v).1 =
        ((Frame.headers stream block).payload c v).1 := payload_header v _ _ _
    have hspoken : Control ((Frame.headers stream block).wire c v).1 v := control_header v _ rfl _
    have hk : kind ((Frame.headers stream block).wire c v).1 = Frame.headersKind :=
      kind_header v _ rfl _
    have hstream : word31At (payload ((Frame.headers stream block).wire c v).1) 0 =
        low31 stream := by
      rw [hload]
      exact word31At_be32 stream _
    have hplace : (payload ((Frame.headers stream block).wire c v).1).drop (blockPlace v) =
        (codec.compress c block).1 := by
      rw [hload]
      cases v <;> rfl
    have hroom : blockPlace v ≤ (payload ((Frame.headers stream block).wire c v).1).length := by
      rw [hload]
      cases v <;> exact Nat.le_add_left _ _
    have hread := Reads.headers (d := d) hspoken (Or.inr hk) hroom (by
      rw [hplace]
      exact Prod.ext (htracks.block c d block hrelated) rfl)
    rw [hstream] at hread
    exact ⟨_, hread, htracks.follow c d block hrelated⟩
  · have hplain : ∀ stream block, f ≠ .headers stream block := fun stream block h =>
      hblock ⟨stream, block, h⟩
    have hkept : (f.wire c v).2 = c := by
      cases f with
      | headers stream block => exact absurd rfl (hplain stream block)
      | settings | ping | goAway | windowUpdate | data | unknown => rfl
    exact ⟨d, reads_plain c d v hplain hkind hsize, by rwa [hkept]⟩

end Grammar

end SpdySessions
