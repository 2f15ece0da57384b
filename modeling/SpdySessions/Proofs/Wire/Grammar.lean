import SpdySessions.Proofs.Wire.Layout
import SpdySessions.Proofs.Wire.Stream

/-! The grammar of the wire. A stream is cut into complete frames by their length fields; each complete
frame either says something or is refused, for a reason of its own. Both are stated about the bytes of
the frame alone, beside the state of the decompressor. The main statement: the reader cuts the stream
in this way, delivers what its frames say and stops at the first that is refused. -/

namespace SpdySessions

namespace Frame

/-- The types that are understood. -/
def knownKinds : List UInt16 :=
  [synReplyKind, settingsKind, pingKind, goAwayKind, headersKind, windowUpdateKind]

end Frame

namespace Grammar

/-- A complete frame: eight bytes of header and as many more as the last three of these say. -/
def IsFrame (w : Bytes) : Prop :=
  w.length = Frame.headerSize + field w 5 3

/-- A stream cut into complete frames and a rest that does not start with one. -/
structure Cut (bytes : Bytes) (frames : List Bytes) (rest : Bytes) : Prop where
  joined : bytes = frames.flatten ++ rest
  complete : ∀ w ∈ frames, IsFrame w
  incomplete : ∀ w more, IsFrame w → rest ≠ w ++ more

/-! ### Fields of a header -/

def IsControl (w : Bytes) : Prop :=
  0x80 ≤ field w 0 1

instance (w : Bytes) : Decidable (IsControl w) :=
  inferInstanceAs (Decidable (0x80 ≤ field w 0 1))

def versionNumber (w : Bytes) : UInt16 :=
  UInt16.ofNat (field w 0 2 % 0x8000)

def kind (w : Bytes) : UInt16 :=
  UInt16.ofNat (field w 2 2)

def flags (w : Bytes) : UInt8 :=
  UInt8.ofNat (field w 4 1)

def payload (w : Bytes) : Bytes :=
  w.drop Frame.headerSize

/-- A control frame of a version that is spoken here. -/
structure Control (w : Bytes) (version : Version) : Prop where
  control : IsControl w
  number : versionNumber w = version.number

/-! ### What frames say -/

variable {codec : HeaderCodec}

/-- What a complete frame says, and the decompressor after it. -/
inductive Reads (d : codec.Decompressor) (w : Bytes) : Delivery → codec.Decompressor → Prop
  | data (h : ¬IsControl w) : Reads d w ⟨none, .data (word31At w 0) (flags w) (payload w)⟩ d
  | settings {v : Version} (h : Control w v) (hkind : kind w = Frame.settingsKind)
      (hsize : 4 ≤ (payload w).length)
      (hcount : (payload w).length = 4 + 8 * field (payload w) 0 4) :
      Reads d w ⟨some v, .settings ((flags w).toNat % 2 == 1)
        ((List.range (field (payload w) 0 4)).map fun i => settingAt v (payload w) (4 + 8 * i))⟩ d
  | ping {v : Version} (h : Control w v) (hkind : kind w = Frame.pingKind)
      (hsize : (payload w).length = 4) : Reads d w ⟨some v, .ping (wordAt (payload w) 0)⟩ d
  | goAway {v : Version} (h : Control w v) (hkind : kind w = Frame.goAwayKind)
      (hsize : (payload w).length = goAwaySize v) :
      Reads d w ⟨some v, .goAway (word31At (payload w) 0) (goAwayStatus v (payload w))⟩ d
  | headers {v : Version} {block : Bytes} {next : codec.Decompressor} (h : Control w v)
      (hkind : kind w = Frame.synReplyKind ∨ kind w = Frame.headersKind)
      (hsize : blockPlace v ≤ (payload w).length)
      (hblock : codec.decompress d ((payload w).drop (blockPlace v)) = (.ok block, next)) :
      Reads d w ⟨some v, .headers (word31At (payload w) 0) block⟩ next
  | windowUpdate {v : Version} (h : Control w v) (hkind : kind w = Frame.windowUpdateKind)
      (hsize : (payload w).length = 8) :
      Reads d w ⟨some v, .windowUpdate (word31At (payload w) 0) (word31At (payload w) 4)⟩ d
  | unknown {v : Version} (h : Control w v) (hkind : kind w ∉ Frame.knownKinds) :
      Reads d w ⟨some v, .unknown (kind w) (flags w) (payload w)⟩ d

/-- Why a complete frame is refused, and the decompressor after that. -/
inductive Refuses (d : codec.Decompressor) (w : Bytes) : Fault → codec.Decompressor → Prop
  | version (h : IsControl w) (hv : ∀ v : Version, versionNumber w ≠ v.number) :
      Refuses d w (.protocol (.version (versionNumber w))) d
  | entryCountMissing {v : Version} (h : Control w v) (hkind : kind w = Frame.settingsKind)
      (hsize : (payload w).length < 4) : Refuses d w (.protocol .entryCountMissing) d
  | entryCount {v : Version} (h : Control w v) (hkind : kind w = Frame.settingsKind)
      (hsize : 4 ≤ (payload w).length)
      (hcount : (payload w).length ≠ 4 + 8 * field (payload w) 0 4) :
      Refuses d w (.protocol (.entryCount (payload w).length (field (payload w) 0 4))) d
  | ping {v : Version} (h : Control w v) (hkind : kind w = Frame.pingKind)
      (hsize : (payload w).length ≠ 4) :
      Refuses d w (.protocol (.payloadLength (kind w) (payload w).length 4)) d
  | goAway {v : Version} (h : Control w v) (hkind : kind w = Frame.goAwayKind)
      (hsize : (payload w).length ≠ goAwaySize v) :
      Refuses d w (.protocol (.payloadLength (kind w) (payload w).length (goAwaySize v))) d
  | tooShort {v : Version} (h : Control w v)
      (hkind : kind w = Frame.synReplyKind ∨ kind w = Frame.headersKind)
      (hsize : (payload w).length < blockPlace v) :
      Refuses d w (.protocol (.tooShort (kind w) (payload w).length)) d
  | block {v : Version} {fault : Fault} {next : codec.Decompressor} (h : Control w v)
      (hkind : kind w = Frame.synReplyKind ∨ kind w = Frame.headersKind)
      (hsize : blockPlace v ≤ (payload w).length)
      (hblock : codec.decompress d ((payload w).drop (blockPlace v)) = (.error fault, next)) :
      Refuses d w fault next
  | windowUpdate {v : Version} (h : Control w v) (hkind : kind w = Frame.windowUpdateKind)
      (hsize : (payload w).length ≠ 8) :
      Refuses d w (.protocol (.payloadLength (kind w) (payload w).length 8)) d

/-- A payload of a length that its type allows; a header block must be one that the decompressor
takes. -/
def Fits (d : codec.Decompressor) (w : Bytes) (v : Version) : Prop :=
  (kind w = Frame.settingsKind →
    4 ≤ (payload w).length ∧ (payload w).length = 4 + 8 * field (payload w) 0 4) ∧
  (kind w = Frame.pingKind → (payload w).length = 4) ∧
  (kind w = Frame.goAwayKind → (payload w).length = goAwaySize v) ∧
  (kind w = Frame.synReplyKind ∨ kind w = Frame.headersKind →
    blockPlace v ≤ (payload w).length ∧
      ∃ block, (codec.decompress d ((payload w).drop (blockPlace v))).1 = .ok block) ∧
  (kind w = Frame.windowUpdateKind → (payload w).length = 8)

/-- Data frames are well formed, and control frames of a spoken version whose payload fits. -/
def WellFormed (d : codec.Decompressor) (w : Bytes) : Prop :=
  ¬IsControl w ∨ ∃ v, versionNumber w = v.number ∧ Fits d w v

/-! ### Well-formed means readable -/

section

variable {d next : codec.Decompressor} {w : Bytes} {v : Version}

theorem number_injective {v v' : Version} (h : v.number = v'.number) : v = v' := by
  have hv := congrArg Version.ofNumber h
  rw [Version.ofNumber_number, Version.ofNumber_number] at hv
  exact Except.ok.inj hv

theorem wellFormed_iff (h : Control w v) : WellFormed d w ↔ Fits d w v := by
  constructor
  · rintro (hdata | ⟨v', hv', hfits⟩)
    · exact absurd h.control hdata
    · rwa [number_injective (h.number.symm.trans hv')]
  · exact fun hfits => Or.inr ⟨v, h.number, hfits⟩

theorem fits_settings (h : kind w = Frame.settingsKind) :
    Fits d w v ↔ 4 ≤ (payload w).length ∧
      (payload w).length = 4 + 8 * field (payload w) 0 4 := by
  simp [Fits, h, Frame.settingsKind, Frame.pingKind, Frame.goAwayKind, Frame.synReplyKind,
    Frame.headersKind, Frame.windowUpdateKind]

theorem fits_ping (h : kind w = Frame.pingKind) : Fits d w v ↔ (payload w).length = 4 := by
  simp [Fits, h, Frame.settingsKind, Frame.pingKind, Frame.goAwayKind, Frame.synReplyKind,
    Frame.headersKind, Frame.windowUpdateKind]

theorem fits_goAway (h : kind w = Frame.goAwayKind) :
    Fits d w v ↔ (payload w).length = goAwaySize v := by
  simp [Fits, h, Frame.settingsKind, Frame.pingKind, Frame.goAwayKind, Frame.synReplyKind,
    Frame.headersKind, Frame.windowUpdateKind]

theorem fits_headers (h : kind w = Frame.synReplyKind ∨ kind w = Frame.headersKind) :
    Fits d w v ↔ blockPlace v ≤ (payload w).length ∧
      ∃ block, (codec.decompress d ((payload w).drop (blockPlace v))).1 = .ok block := by
  rcases h with h | h <;>
    simp [Fits, h, Frame.settingsKind, Frame.pingKind, Frame.goAwayKind, Frame.synReplyKind,
      Frame.headersKind, Frame.windowUpdateKind]

theorem fits_windowUpdate (h : kind w = Frame.windowUpdateKind) :
    Fits d w v ↔ (payload w).length = 8 := by
  simp [Fits, h, Frame.settingsKind, Frame.pingKind, Frame.goAwayKind, Frame.synReplyKind,
    Frame.headersKind, Frame.windowUpdateKind]

theorem fits_unknown (h : kind w ∉ Frame.knownKinds) : Fits d w v := by
  simp only [Frame.knownKinds, List.mem_cons, List.not_mem_nil, or_false, not_or] at h
  obtain ⟨hreply, hsettings, hping, hgoAway, hheaders, hwindow⟩ := h
  exact ⟨fun h => absurd h hsettings, fun h => absurd h hping, fun h => absurd h hgoAway,
    fun h => absurd h (not_or.mpr ⟨hreply, hheaders⟩), fun h => absurd h hwindow⟩

theorem Reads.wellFormed {x : Delivery} (h : Reads d w x next) : WellFormed d w := by
  cases h with
  | data h => exact Or.inl h
  | settings h hkind hsize hcount =>
      exact (wellFormed_iff h).mpr ((fits_settings hkind).mpr ⟨hsize, hcount⟩)
  | ping h hkind hsize => exact (wellFormed_iff h).mpr ((fits_ping hkind).mpr hsize)
  | goAway h hkind hsize => exact (wellFormed_iff h).mpr ((fits_goAway hkind).mpr hsize)
  | headers h hkind hsize hblock =>
      exact (wellFormed_iff h).mpr ((fits_headers hkind).mpr ⟨hsize, _, congrArg Prod.fst hblock⟩)
  | windowUpdate h hkind hsize =>
      exact (wellFormed_iff h).mpr ((fits_windowUpdate hkind).mpr hsize)
  | unknown h hkind => exact (wellFormed_iff h).mpr (fits_unknown hkind)

theorem Refuses.not_wellFormed {fault : Fault} (h : Refuses d w fault next) :
    ¬WellFormed d w := by
  intro hw
  cases h with
  | version h hv =>
      rcases hw with hdata | ⟨v, hnumber, -⟩
      · exact hdata h
      · exact hv v hnumber
  | entryCountMissing h hkind hsize =>
      exact absurd ((fits_settings hkind).mp ((wellFormed_iff h).mp hw)).1 (Nat.not_le.mpr hsize)
  | entryCount h hkind hsize hcount =>
      exact hcount ((fits_settings hkind).mp ((wellFormed_iff h).mp hw)).2
  | ping h hkind hsize => exact hsize ((fits_ping hkind).mp ((wellFormed_iff h).mp hw))
  | goAway h hkind hsize => exact hsize ((fits_goAway hkind).mp ((wellFormed_iff h).mp hw))
  | tooShort h hkind hsize =>
      exact absurd ((fits_headers hkind).mp ((wellFormed_iff h).mp hw)).1 (Nat.not_le.mpr hsize)
  | block h hkind hsize hblock =>
      obtain ⟨-, block, hok⟩ := (fits_headers hkind).mp ((wellFormed_iff h).mp hw)
      rw [hblock] at hok
      cases hok
  | windowUpdate h hkind hsize =>
      exact hsize ((fits_windowUpdate hkind).mp ((wellFormed_iff h).mp hw))

end

/-! ### The reader cuts and reads by the grammar -/

open FrameReader (cut? cut?_eq_some_iff length_rest_lt)

theorem isFrame_of_cut? {bytes load rest : Bytes} {header : FrameHeader}
    (h : cut? bytes = some (header, load, rest)) : ∃ w, IsFrame w ∧ bytes = w ++ rest := by
  obtain ⟨l0, l1, l2, hlen, rfl⟩ := cut?_eq_some_iff.mp h
  refine ⟨[header.b0, header.b1, header.b2, header.b3, header.flags, l0, l1, l2] ++ load, ?_,
    (List.append_assoc _ _ _).symm⟩
  have hfield : field ([header.b0, header.b1, header.b2, header.b3, header.flags, l0, l1, l2] ++
      load) 5 3 = number [l0, l1, l2] := rfl
  rw [IsFrame, hfield, ← toNat_word24, hlen, List.length_append]
  rfl

/-- What the reader cuts off for a complete frame, and what it sees of its header. -/
structure Heads (header : FrameHeader) (w : Bytes) : Prop where
  cut : ∀ more, cut? (w ++ more) = some (header, payload w, more)
  control : header.isControl = true ↔ IsControl w
  version : header.version = versionNumber w
  kind : header.kind = kind w
  flags : header.flags = flags w
  stream : header.stream = word31At w 0

theorem exists_header {w : Bytes} (h : IsFrame w) : ∃ header, Heads header w := by
  have hlen : w.length = 8 + field w 5 3 := h
  obtain ⟨b0, b1, b2, b3, rest, rfl⟩ := exists_word (by omega : 4 ≤ w.length)
  simp only [List.length_cons] at hlen
  obtain ⟨b4, l0, l1, l2, load, rfl⟩ := exists_word (by omega : 4 ≤ rest.length)
  have hfield : field (b0 :: b1 :: b2 :: b3 :: b4 :: l0 :: l1 :: l2 :: load) 5 3 =
      number [l0, l1, l2] := rfl
  rw [hfield, ← toNat_word24] at hlen
  simp only [List.length_cons] at hlen
  refine ⟨⟨b0, b1, b2, b3, b4⟩, ?_, ?_, ?_, ?_, ?_, ?_⟩
  · intro more
    exact cut?_eq_some_iff.mpr ⟨l0, l1, l2, by show _ = load.length; omega, rfl⟩
  · have hfirst : field (b0 :: b1 :: b2 :: b3 :: b4 :: l0 :: l1 :: l2 :: load) 0 1 = b0.toNat :=
      number_one b0
    rw [FrameHeader.isControl, decide_eq_true_iff, IsControl, hfirst]
  · have hword : field (b0 :: b1 :: b2 :: b3 :: b4 :: l0 :: l1 :: l2 :: load) 0 2 =
        b0.toNat * 0x100 + b1.toNat := number_two b0 b1
    have hb0 := b0.toNat_lt
    have hb1 := b1.toNat_lt
    have hmask : b0.toNat % 0x80 % 0x100 * 0x100 + b1.toNat =
        (b0.toNat * 0x100 + b1.toNat) % 0x8000 := by omega
    rw [FrameHeader.version, Bytes.word16, versionNumber, hword, UInt8.toNat_ofNat', hmask]
  · have hword : field (b0 :: b1 :: b2 :: b3 :: b4 :: l0 :: l1 :: l2 :: load) 2 2 =
        b2.toNat * 0x100 + b3.toNat := number_two b2 b3
    rw [FrameHeader.kind, Bytes.word16, kind, hword]
  · exact (ofNat_number_one b4).symm
  · exact low31_word32 b0 b1 b2 b3

theorem cut?_eq_none_iff {bytes : Bytes} :
    cut? bytes = none ↔ ∀ w more, IsFrame w → bytes ≠ w ++ more := by
  constructor
  · rintro h w more hw rfl
    obtain ⟨header, hheader⟩ := exists_header hw
    rw [hheader.cut more] at h
    cases h
  · intro h
    cases hcut : cut? bytes with
    | none => rfl
    | some cut =>
        obtain ⟨w, hw, hbytes⟩ := isFrame_of_cut? hcut
        exact absurd hbytes (h w _ hw)

/-- A control frame of a spoken version is read or refused by its type and payload. -/
theorem ofControl_reads_or_refuses (d : codec.Decompressor) {w : Bytes} {v : Version}
    (h : Control w v) :
    (∃ frame next, Frame.ofControl d v (kind w) (flags w) (payload w) = (.ok frame, next) ∧
      Reads d w ⟨some v, frame⟩ next) ∨
    ∃ fault next, Frame.ofControl d v (kind w) (flags w) (payload w) = (.error fault, next) ∧
      Refuses d w fault next := by
  unfold Frame.ofControl
  split
  · rename_i hkind
    rw [splitHeaders_eq]
    by_cases hsize : blockPlace v ≤ (payload w).length
    · rw [if_pos hsize]
      rcases hblock : codec.decompress d ((payload w).drop (blockPlace v)) with ⟨fault | block, next⟩
      · exact Or.inr ⟨fault, next, by simp only [hblock]; rfl, .block h hkind hsize hblock⟩
      · exact Or.inl ⟨_, next, by simp only [hblock]; rfl, .headers h hkind hsize hblock⟩
    · rw [if_neg hsize]
      exact Or.inr ⟨_, d, rfl, .tooShort h hkind (Nat.not_le.mp hsize)⟩
  · rename_i hblock
    split
    · rename_i hkind
      rw [ofSettings_eq]
      by_cases hshort : (payload w).length < 4
      · rw [if_pos hshort]
        exact Or.inr ⟨_, d, rfl, .entryCountMissing h hkind hshort⟩
      · rw [if_neg hshort]
        have hsize := Nat.not_lt.mp hshort
        by_cases hcount : (payload w).length = 4 + 8 * field (payload w) 0 4
        · rw [if_pos hcount]
          exact Or.inl ⟨_, d, rfl, .settings h hkind hsize hcount⟩
        · rw [if_neg hcount]
          exact Or.inr ⟨_, d, rfl, .entryCount h hkind hsize hcount⟩
    split
    · rename_i hkind
      rw [ofPing_eq]
      by_cases hsize : (payload w).length = 4
      · rw [if_pos hsize]
        exact Or.inl ⟨_, d, rfl, .ping h hkind hsize⟩
      · rw [if_neg hsize, ← hkind]
        exact Or.inr ⟨_, d, rfl, .ping h hkind hsize⟩
    split
    · rename_i hkind
      rw [ofGoAway_eq]
      by_cases hsize : (payload w).length = goAwaySize v
      · rw [if_pos hsize]
        exact Or.inl ⟨_, d, rfl, .goAway h hkind hsize⟩
      · rw [if_neg hsize, ← hkind]
        exact Or.inr ⟨_, d, rfl, .goAway h hkind hsize⟩
    split
    · rename_i hkind
      rw [ofWindowUpdate_eq]
      by_cases hsize : (payload w).length = 8
      · rw [if_pos hsize]
        exact Or.inl ⟨_, d, rfl, .windowUpdate h hkind hsize⟩
      · rw [if_neg hsize, ← hkind]
        exact Or.inr ⟨_, d, rfl, .windowUpdate h hkind hsize⟩
    · rename_i hsettings hping hgoAway hwindow
      refine Or.inl ⟨_, d, rfl, .unknown h ?_⟩
      simp only [Frame.knownKinds, List.mem_cons, List.not_mem_nil, or_false, not_or]
      exact ⟨(not_or.mp hblock).1, hsettings, hping, hgoAway, (not_or.mp hblock).2, hwindow⟩

/-- A complete frame is read or refused. -/
theorem Heads.reads_or_refuses {header : FrameHeader} {w : Bytes} (h : Heads header w)
    (d : codec.Decompressor) :
    (∃ x next, Delivery.ofFrame d header (payload w) = (.ok x, next) ∧ Reads d w x next) ∨
      ∃ fault next, Delivery.ofFrame d header (payload w) = (.error fault, next) ∧
        Refuses d w fault next := by
  rw [Delivery.ofFrame, h.version, h.kind, h.flags, h.stream]
  by_cases hcontrol : IsControl w
  · rw [if_pos (h.control.mpr hcontrol)]
    cases hv : Version.ofNumber (versionNumber w) with
    | error cause =>
        refine Or.inr ⟨_, d, rfl, .version hcontrol ?_⟩
        intro v hnumber
        rw [hnumber, Version.ofNumber_number] at hv
        cases hv
    | ok v =>
        have hspoken : Control w v := ⟨hcontrol, (Version.number_of_ofNumber hv).symm⟩
        rcases ofControl_reads_or_refuses d hspoken with
          ⟨frame, next, hframe, hreads⟩ | ⟨fault, next, hframe, hrefuses⟩
        · exact Or.inl ⟨_, next, by simp only [hframe]; rfl, hreads⟩
        · exact Or.inr ⟨fault, next, by simp only [hframe]; rfl, hrefuses⟩
  · rw [if_neg fun hc => hcontrol (h.control.mp hc)]
    exact Or.inl ⟨_, d, rfl, .data hcontrol⟩

/-! ### The grammar is unambiguous -/

section

variable (d : codec.Decompressor) (v : Version) (flags : UInt8) (load : Bytes)

theorem ofControl_settings : Frame.ofControl d v Frame.settingsKind flags load =
    ((Frame.ofSettings v flags load).mapError .protocol, d) := rfl

theorem ofControl_ping : Frame.ofControl d v Frame.pingKind flags load =
    ((Frame.ofPing load).mapError .protocol, d) := rfl

theorem ofControl_goAway : Frame.ofControl d v Frame.goAwayKind flags load =
    ((Frame.ofGoAway v load).mapError .protocol, d) := rfl

theorem ofControl_windowUpdate : Frame.ofControl d v Frame.windowUpdateKind flags load =
    ((Frame.ofWindowUpdate load).mapError .protocol, d) := rfl

theorem ofControl_unknown {kind : UInt16} (hkind : kind ∉ Frame.knownKinds) :
    Frame.ofControl d v kind flags load = (.ok (.unknown kind flags load), d) := by
  simp only [Frame.knownKinds, List.mem_cons, List.not_mem_nil, or_false, not_or] at hkind
  obtain ⟨hreply, hsettings, hping, hgoAway, hheaders, hwindow⟩ := hkind
  rw [Frame.ofControl, if_neg (not_or.mpr ⟨hreply, hheaders⟩), if_neg hsettings, if_neg hping,
    if_neg hgoAway, if_neg hwindow]
  rfl

theorem ofControl_headers {kind : UInt16} {block : Bytes} {next : codec.Decompressor}
    (hkind : kind = Frame.synReplyKind ∨ kind = Frame.headersKind)
    (hsize : blockPlace v ≤ load.length)
    (hblock : codec.decompress d (load.drop (blockPlace v)) = (.ok block, next)) :
    Frame.ofControl d v kind flags load = (.ok (.headers (word31At load 0) block), next) := by
  rw [Frame.ofControl, if_pos hkind, splitHeaders_eq, if_pos hsize]
  simp only [hblock]
  rfl

end

/-- What a frame says is what the reader makes of it. -/
theorem Heads.ofFrame_of_reads {header : FrameHeader} {w : Bytes} (h : Heads header w)
    {d next : codec.Decompressor} {x : Delivery} (hreads : Reads d w x next) :
    Delivery.ofFrame d header (payload w) = (.ok x, next) := by
  have hspoken : ∀ {v : Version} {frame : Frame}, Control w v →
      Frame.ofControl d v (Grammar.kind w) (Grammar.flags w) (payload w) = (.ok frame, next) →
      Delivery.ofFrame d header (payload w) = (.ok ⟨some v, frame⟩, next) := by
    intro v frame hv hframe
    rw [Delivery.ofFrame, if_pos (h.control.mpr hv.control), h.version, hv.number,
      Version.ofNumber_number, h.kind, h.flags]
    simp only [hframe]
    rfl
  cases hreads with
  | data hdata =>
      rw [Delivery.ofFrame, if_neg fun hc => hdata (h.control.mp hc), h.stream, h.flags]
  | settings hv hkind hsize hcount =>
      apply hspoken hv
      rw [hkind, ofControl_settings, ofSettings_eq, if_neg (Nat.not_lt.mpr hsize), if_pos hcount]
      rfl
  | ping hv hkind hsize =>
      apply hspoken hv
      rw [hkind, ofControl_ping, ofPing_eq, if_pos hsize]
      rfl
  | goAway hv hkind hsize =>
      apply hspoken hv
      rw [hkind, ofControl_goAway, ofGoAway_eq, if_pos hsize]
      rfl
  | headers hv hkind hsize hblock =>
      exact hspoken hv (ofControl_headers d _ (Grammar.flags w) (payload w) hkind hsize hblock)
  | windowUpdate hv hkind hsize =>
      apply hspoken hv
      rw [hkind, ofControl_windowUpdate, ofWindowUpdate_eq, if_pos hsize]
      rfl
  | unknown hv hkind => exact hspoken hv (ofControl_unknown d _ (Grammar.flags w) (payload w) hkind)

/-- A complete frame says one thing. -/
theorem Reads.unique {d next next' : codec.Decompressor} {w : Bytes} {x x' : Delivery}
    (hw : IsFrame w) (h : Reads d w x next) (h' : Reads d w x' next') : x = x' ∧ next = next' := by
  obtain ⟨header, hheader⟩ := exists_header hw
  have hsame :=
    calc (Except.ok x, next) = Delivery.ofFrame d header (payload w) :=
          (hheader.ofFrame_of_reads h).symm
      _ = (Except.ok x', next') := hheader.ofFrame_of_reads h'
  cases hsame
  exact ⟨rfl, rfl⟩

/-- A complete frame is well formed when it says something. -/
theorem wellFormed_iff_reads {d : codec.Decompressor} {w : Bytes} (hw : IsFrame w) :
    WellFormed d w ↔ ∃ x next, Reads d w x next := by
  constructor
  · intro hformed
    obtain ⟨header, hheader⟩ := exists_header hw
    rcases hheader.reads_or_refuses d with ⟨x, next, -, hreads⟩ | ⟨fault, next, -, hrefuses⟩
    · exact ⟨x, next, hreads⟩
    · exact absurd hformed hrefuses.not_wellFormed
  · rintro ⟨x, next, hreads⟩
    exact hreads.wellFormed

end Grammar

end SpdySessions
