import SpdySessions.Proofs.Wire.RoundTrip

/-! What a reader does not look at. A frame has places that say nothing: the flags of most types,
reserved bits, the padding of version 2, and whether headers came in a reply. Its normal form has zeros
there. A frame that was read and is written again comes out in its normal form, so it comes out as it
was exactly when nothing was set in those places, and frames of one normal form say the same. -/

namespace SpdySessions

/-! ### Words written back -/

namespace Bytes

theorem ofNat_eq {n : Nat} {b : UInt8} (h : n % 0x100 = b.toNat) : UInt8.ofNat n = b := by
  apply UInt8.toNat_inj.mp
  rw [UInt8.toNat_ofNat']
  exact h

theorem be16_ofNat_number (a b : UInt8) : be16 (UInt16.ofNat (number [a, b])) = [a, b] := by
  have ha := a.toNat_lt
  have hb := b.toNat_lt
  have hword : (UInt16.ofNat (number [a, b])).toNat = a.toNat * 0x100 + b.toNat := by
    rw [UInt16.toNat_ofNat', number_two]
    omega
  rw [be16, hword, ofNat_eq (b := a) (by omega), ofNat_eq (b := b) (by omega)]

theorem be32_ofNat_number (a b c d : UInt8) :
    be32 (UInt32.ofNat (number [a, b, c, d])) = [a, b, c, d] := by
  have ha := a.toNat_lt
  have hb := b.toNat_lt
  have hc := c.toNat_lt
  have hd := d.toNat_lt
  have hword : (UInt32.ofNat (number [a, b, c, d])).toNat =
      a.toNat * 0x1000000 + b.toNat * 0x10000 + c.toNat * 0x100 + d.toNat := by
    rw [UInt32.toNat_ofNat', number_four]
    omega
  rw [be32, be24, hword, ofNat_eq (b := a) (by omega), ofNat_eq (b := b) (by omega),
    ofNat_eq (b := c) (by omega), ofNat_eq (b := d) (by omega)]

theorem be24_ofNat_number (a b c : UInt8) : be24 (UInt32.ofNat (number [a, b, c])) = [a, b, c] := by
  have hnumber : number [a, b, c] = number [0, a, b, c] := by
    have hzero : (0 : UInt8).toNat = 0 := rfl
    rw [number_three, number_four, hzero]
    omega
  have hword := be32_ofNat_number 0 a b c
  rw [be32, ← hnumber] at hword
  exact (List.cons.inj hword).2

end Bytes

/-- A byte without its top bit. -/
def clearTop (b : UInt8) : UInt8 :=
  UInt8.ofNat (b.toNat % 0x80)

/-- A stream number or a window increment is written without the reserved bit. -/
theorem be32_word31At (a b c d : UInt8) (rest : Bytes) :
    Bytes.be32 (low31 (word31At (a :: b :: c :: d :: rest) 0)) = [clearTop a, b, c, d] := by
  have ha := a.toNat_lt
  have hb := b.toNat_lt
  have hc := c.toNat_lt
  have hd := d.toNat_lt
  have hclear : (clearTop a).toNat = a.toNat % 0x80 := by
    rw [clearTop, UInt8.toNat_ofNat']
    omega
  have hword : low31 (word31At (a :: b :: c :: d :: rest) 0) =
      UInt32.ofNat (number [clearTop a, b, c, d]) := by
    apply UInt32.toNat_inj.mp
    have hfield : field (a :: b :: c :: d :: rest) 0 4 = number [a, b, c, d] := rfl
    rw [toNat_low31, word31At, hfield, UInt32.toNat_ofNat', UInt32.toNat_ofNat', number_four,
      number_four, hclear]
    omega
  rw [hword, Bytes.be32_ofNat_number]

theorem be32_wordAt (a b c d : UInt8) (rest : Bytes) :
    Bytes.be32 (wordAt (a :: b :: c :: d :: rest) 0) = [a, b, c, d] :=
  Bytes.be32_ofNat_number a b c d

/-- Entries of settings are written as they were read. -/
theorem Setting.flatMap_bytes_ofBytes (version : Version) (count : Nat) (entries : Bytes)
    (hlen : entries.length = 8 * count) :
    (Setting.ofBytes version entries).flatMap (Setting.bytes version) = entries := by
  induction count generalizing entries with
  | zero =>
      rw [List.length_eq_zero_iff.mp hlen]
      rfl
  | succ count ih =>
      obtain ⟨e0, e1, e2, e3, rest, rfl⟩ := exists_word (by omega : 4 ≤ entries.length)
      simp only [List.length_cons] at hlen
      obtain ⟨v0, v1, v2, v3, rest, rfl⟩ := exists_word (by omega : 4 ≤ rest.length)
      simp only [List.length_cons] at hlen
      have hvalue := Bytes.be32_ofNat_number v0 v1 v2 v3
      cases version with
      | v2 =>
          have hnumber := Bytes.be24_ofNat_number e2 e1 e0
          rw [Setting.ofBytes, List.flatMap_cons, ih rest (by omega), Setting.bytes, word32_eq, hvalue,
            word24_eq, hnumber]
          rfl
      | v3 =>
          have hnumber := Bytes.be24_ofNat_number e1 e2 e3
          rw [Setting.ofBytes, List.flatMap_cons, ih rest (by omega), Setting.bytes, word32_eq, hvalue,
            word24_eq, hnumber]
          rfl

namespace Grammar

/-! ### The normal form of a frame -/

/-- Types that have no flags. -/
def flaglessKinds : List UInt16 :=
  [Frame.pingKind, Frame.goAwayKind, Frame.headersKind, Frame.windowUpdateKind]

/-- A reply says what a header frame says. -/
def normalKind (kind : UInt16) : UInt16 :=
  if kind = Frame.synReplyKind then Frame.headersKind else kind

/-- Settings have one flag. -/
def normalFlags (kind : UInt16) (flags : UInt8) : UInt8 :=
  if kind = Frame.settingsKind then UInt8.ofNat (flags.toNat % 2)
  else if kind ∈ flaglessKinds then 0
  else flags

/-- Reserved bits and padding are zero. -/
def normalPayload (number kind : UInt16) (load : Bytes) : Bytes :=
  if kind = Frame.goAwayKind then load.modify 0 clearTop
  else if kind = Frame.windowUpdateKind then (load.modify 0 clearTop).modify 4 clearTop
  else if kind = Frame.headersKind then
    let load := load.modify 0 clearTop
    if number = Version.v2.number then (load.set 4 0).set 5 0 else load
  else load

/-- The frame with another type, other flags and another payload of the same length. -/
def dress (w : Bytes) (kind : UInt16) (flags : UInt8) (load : Bytes) : Bytes :=
  w.take 2 ++ (Bytes.be16 kind ++ (flags :: ((w.drop 5).take 3 ++ load)))

/-- The frame with zeros where no reader looks. A data frame has no such place. -/
def normal (w : Bytes) : Bytes :=
  if IsControl w then
    let k := normalKind (kind w)
    dress w k (normalFlags k (flags w)) (normalPayload (versionNumber w) k (payload w))
  else w

/-- Nothing is set where no reader looks. -/
structure Canonical (w : Bytes) : Prop where
  reply : IsControl w → kind w ≠ Frame.synReplyKind
  settings : IsControl w → kind w = Frame.settingsKind → (flags w).toNat < 2
  flagless : IsControl w → kind w ∈ flaglessKinds → flags w = 0
  stream : IsControl w →
    kind w = Frame.goAwayKind ∨ kind w = Frame.headersKind ∨ kind w = Frame.windowUpdateKind →
    field (payload w) 0 4 < 0x80000000
  delta : IsControl w → kind w = Frame.windowUpdateKind → field (payload w) 4 4 < 0x80000000
  padding : Control w .v2 → kind w = Frame.headersKind → field (payload w) 4 2 = 0

section

variable {w load : Bytes} {k : UInt16} {g : UInt8} {v : Version}

/-! ### Frames in another dress -/

theorem exists_bytes (h : IsFrame w) : ∃ b0 b1 b2 b3 b4 l0 l1 l2 load,
    w = b0 :: b1 :: b2 :: b3 :: b4 :: l0 :: l1 :: l2 :: load ∧ load.length = number [l0, l1, l2] := by
  have hlen : w.length = 8 + field w 5 3 := h
  obtain ⟨b0, b1, b2, b3, rest, rfl⟩ := exists_word (by omega : 4 ≤ w.length)
  simp only [List.length_cons] at hlen
  obtain ⟨b4, l0, l1, l2, load, rfl⟩ := exists_word (by omega : 4 ≤ rest.length)
  have hfield : field (b0 :: b1 :: b2 :: b3 :: b4 :: l0 :: l1 :: l2 :: load) 5 3 =
      number [l0, l1, l2] := rfl
  rw [hfield] at hlen
  simp only [List.length_cons] at hlen
  exact ⟨b0, b1, b2, b3, b4, l0, l1, l2, load, rfl, by omega⟩

theorem dress_self (h : IsFrame w) : dress w (kind w) (flags w) (payload w) = w := by
  obtain ⟨b0, b1, b2, b3, b4, l0, l1, l2, load, rfl, -⟩ := exists_bytes h
  have hkind : Bytes.be16 (kind (b0 :: b1 :: b2 :: b3 :: b4 :: l0 :: l1 :: l2 :: load)) = [b2, b3] :=
    Bytes.be16_ofNat_number b2 b3
  have hflags : flags (b0 :: b1 :: b2 :: b3 :: b4 :: l0 :: l1 :: l2 :: load) = b4 :=
    ofNat_number_one b4
  rw [dress, hkind, hflags]
  rfl

theorem length_dress (h : IsFrame w) (hload : load.length = (payload w).length) :
    (dress w k g load).length = w.length := by
  obtain ⟨b0, b1, b2, b3, b4, l0, l1, l2, load', rfl, -⟩ := exists_bytes h
  have hlen : load.length = load'.length := hload
  show load.length + 8 = load'.length + 8
  rw [hlen]

theorem isFrame_dress (h : IsFrame w) (hload : load.length = (payload w).length) :
    IsFrame (dress w k g load) := by
  have hlen := length_dress (k := k) (g := g) h hload
  obtain ⟨b0, b1, b2, b3, b4, l0, l1, l2, load', rfl, -⟩ := exists_bytes h
  rw [IsFrame, hlen]
  exact h

theorem kind_dress (h : IsFrame w) : kind (dress w k g load) = k := by
  obtain ⟨b0, b1, b2, b3, b4, l0, l1, l2, load', rfl, -⟩ := exists_bytes h
  show UInt16.ofNat (number (Bytes.be16 k)) = k
  rw [number_be16, UInt16.ofNat_toNat]

theorem flags_dress (h : IsFrame w) : flags (dress w k g load) = g := by
  obtain ⟨b0, b1, b2, b3, b4, l0, l1, l2, load', rfl, -⟩ := exists_bytes h
  exact ofNat_number_one g

theorem payload_dress (h : IsFrame w) : payload (dress w k g load) = load := by
  obtain ⟨b0, b1, b2, b3, b4, l0, l1, l2, load', rfl, -⟩ := exists_bytes h
  rfl

theorem isControl_dress (h : IsFrame w) : IsControl (dress w k g load) ↔ IsControl w := by
  obtain ⟨b0, b1, b2, b3, b4, l0, l1, l2, load', rfl, -⟩ := exists_bytes h
  exact Iff.rfl

theorem versionNumber_dress (h : IsFrame w) :
    versionNumber (dress w k g load) = versionNumber w := by
  obtain ⟨b0, b1, b2, b3, b4, l0, l1, l2, load', rfl, -⟩ := exists_bytes h
  rfl

/-- A frame in another dress is the same only if nothing of it has changed. -/
theorem dress_eq_self_iff (h : IsFrame w) :
    dress w k g load = w ↔ k = kind w ∧ g = flags w ∧ load = payload w := by
  constructor
  · intro heq
    refine ⟨?_, ?_, ?_⟩
    · have hkind : kind (dress w k g load) = k := kind_dress h
      rw [← hkind, heq]
    · have hflags : flags (dress w k g load) = g := flags_dress h
      rw [← hflags, heq]
    · have hload : payload (dress w k g load) = load := payload_dress h
      rw [← hload, heq]
  · rintro ⟨rfl, rfl, rfl⟩
    exact dress_self h

/-- The bytes of a control frame are another one's with its type, flags and payload, as long as the
version and the length agree. -/
theorem wire_eq_dress {codec : HeaderCodec} (c : codec.Compressor) (hw : IsFrame w) (h : Control w v)
    {f : Frame} (hkind : f.kind? = some k) (hload : (f.payload c v).1.length = (payload w).length) :
    (f.wire c v).1 = dress w k f.headerFlags (f.payload c v).1 := by
  obtain ⟨b0, b1, b2, b3, b4, l0, l1, l2, load', rfl, hlen⟩ := exists_bytes hw
  have hfirst : 0x80 ≤ b0.toNat := by
    have hcontrol := h.control
    have hfield : field (b0 :: b1 :: b2 :: b3 :: b4 :: l0 :: l1 :: l2 :: load') 0 1 = b0.toNat :=
      number_one b0
    rwa [IsControl, hfield] at hcontrol
  have hword : number [b0, b1] = 0x8000 + v.number.toNat := by
    have hnumber := congrArg UInt16.toNat h.number
    have hb0 := b0.toNat_lt
    have hb1 := b1.toNat_lt
    have hfield : field (b0 :: b1 :: b2 :: b3 :: b4 :: l0 :: l1 :: l2 :: load') 0 2 =
        b0.toNat * 0x100 + b1.toNat := number_two b0 b1
    rw [versionNumber, hfield, UInt16.toNat_ofNat'] at hnumber
    rw [number_two]
    omega
  have hversion : Bytes.be16 (0x8000 ||| v.number) = [b0, b1] := by
    have hnumber : 0x8000 ||| v.number = UInt16.ofNat (number [b0, b1]) := by
      rw [hword]
      cases v <;> rfl
    rw [hnumber, Bytes.be16_ofNat_number]
  have hlength : Bytes.be24 (UInt32.ofNat (f.payload c v).1.length) = [l0, l1, l2] := by
    have hsame : (f.payload c v).1.length = number [l0, l1, l2] := hload.trans hlen
    rw [hsame, Bytes.be24_ofNat_number]
  show f.header v (f.payload c v).1.length ++ (f.payload c v).1 = _
  rw [Frame.header, headerWord_of_kind v hkind, hversion, hlength, dress]
  simp only [List.cons_append, List.nil_append, List.append_assoc, List.take_succ_cons, List.take_zero,
    List.drop_succ_cons, List.drop_zero]

theorem length_normalPayload (n k : UInt16) (load : Bytes) :
    (normalPayload n k load).length = load.length := by
  unfold normalPayload
  split
  · exact List.length_modify ..
  split
  · rw [List.length_modify, List.length_modify]
  split
  · dsimp only
    split
    · rw [List.length_set, List.length_set, List.length_modify]
    · exact List.length_modify ..
  · rfl

/-! ### What is written of what was read -/

variable {codec : HeaderCodec} (c : codec.Compressor)

theorem payload_settings (clear : Bool) (hsize : 4 ≤ load.length)
    (hcount : load.length = 4 + 8 * field load 0 4) :
    ((Frame.settings clear ((List.range (field load 0 4)).map fun i =>
      settingAt v load (4 + 8 * i))).payload c v).1 = load := by
  obtain ⟨c0, c1, c2, c3, entries, rfl⟩ := exists_word hsize
  generalize hn : field (c0 :: c1 :: c2 :: c3 :: entries) 0 4 = count at hcount
  simp only [List.length_cons] at hcount
  have hentries : (List.range count).map (fun i =>
      settingAt v (c0 :: c1 :: c2 :: c3 :: entries) (4 + 8 * i)) = Setting.ofBytes v entries := by
    rw [ofBytes_eq v count entries (by omega)]
    refine List.map_congr_left fun i _ => ?_
    rw [← settingAt_drop]
    rfl
  have hcountBytes : Bytes.be32 (UInt32.ofNat count) = [c0, c1, c2, c3] := by
    rw [← hn]
    exact Bytes.be32_ofNat_number c0 c1 c2 c3
  rw [hentries]
  show Bytes.be32 (UInt32.ofNat (Setting.ofBytes v entries).length) ++
    (Setting.ofBytes v entries).flatMap (Setting.bytes v) = _
  rw [Setting.flatMap_bytes_ofBytes v count entries (by omega), ← hentries, List.length_map,
    List.length_range, hcountBytes]
  rfl

theorem payload_ping (hsize : load.length = 4) :
    ((Frame.ping (wordAt load 0)).payload c v).1 = load := by
  obtain ⟨a, b, c', d, rest, rfl⟩ := exists_word (Nat.le_of_eq hsize.symm)
  simp only [List.length_cons, Nat.reduceEqDiff, List.length_eq_zero_iff] at hsize
  subst hsize
  exact be32_wordAt a b c' d []

theorem payload_goAway (hsize : load.length = goAwaySize v) :
    ((Frame.goAway (word31At load 0) (goAwayStatus v load)).payload c v).1 =
      load.modify 0 clearTop := by
  cases v with
  | v2 =>
      obtain ⟨a, b, c', d, rest, rfl⟩ := exists_word (Nat.le_of_eq hsize.symm)
      simp only [goAwaySize, List.length_cons, Nat.reduceEqDiff, List.length_eq_zero_iff] at hsize
      subst hsize
      show Bytes.be32 (low31 (word31At [a, b, c', d] 0)) ++ [] = _
      rw [be32_word31At]
      rfl
  | v3 =>
      have hsize' : load.length = 8 := hsize
      obtain ⟨a, b, c', d, rest, rfl⟩ := exists_word (by omega : 4 ≤ load.length)
      simp only [List.length_cons, Nat.reduceEqDiff] at hsize'
      obtain ⟨s0, s1, s2, s3, rest, rfl⟩ := exists_word (Nat.le_of_eq hsize'.symm)
      simp only [List.length_cons, Nat.reduceEqDiff, List.length_eq_zero_iff] at hsize'
      subst hsize'
      show Bytes.be32 (low31 (word31At [a, b, c', d, s0, s1, s2, s3] 0)) ++
        Bytes.be32 (wordAt [s0, s1, s2, s3] 0) = _
      rw [be32_word31At, be32_wordAt]
      rfl

theorem payload_windowUpdate (hsize : load.length = 8) :
    ((Frame.windowUpdate (word31At load 0) (word31At load 4)).payload c v).1 =
      (load.modify 0 clearTop).modify 4 clearTop := by
  obtain ⟨a, b, c', d, rest, rfl⟩ := exists_word (by omega : 4 ≤ load.length)
  simp only [List.length_cons, Nat.reduceEqDiff] at hsize
  obtain ⟨d0, d1, d2, d3, rest, rfl⟩ := exists_word (Nat.le_of_eq hsize.symm)
  simp only [List.length_cons, Nat.reduceEqDiff, List.length_eq_zero_iff] at hsize
  subst hsize
  show Bytes.be32 (low31 (word31At [a, b, c', d, d0, d1, d2, d3] 0)) ++
    Bytes.be32 (low31 (word31At [d0, d1, d2, d3] 0)) = _
  rw [be32_word31At, be32_word31At]
  rfl

/-- A header block that is written as it is. -/
theorem payload_headers (c : HeaderCodec.identity.Compressor) (hsize : blockPlace v ≤ load.length) :
    ((Frame.headers (word31At load 0) (load.drop (blockPlace v))).payload c v).1 =
      normalPayload v.number Frame.headersKind load := by
  cases v with
  | v2 =>
      have hsize' : 6 ≤ load.length := hsize
      obtain ⟨a, b, c', d, rest, rfl⟩ := exists_word (by omega : 4 ≤ load.length)
      match rest, hsize' with
      | p :: q :: block, _ =>
          show Bytes.be32 (low31 (word31At (a :: b :: c' :: d :: p :: q :: block) 0)) ++ [0, 0] ++
            block = _
          rw [be32_word31At]
          rfl
  | v3 =>
      obtain ⟨a, b, c', d, block, rfl⟩ := exists_word hsize
      show Bytes.be32 (low31 (word31At (a :: b :: c' :: d :: block) 0)) ++ [] ++ block = _
      rw [be32_word31At]
      rfl

/-- Settings are written with the one flag that they have. -/
theorem flags_settings (g : UInt8) :
    (if (g.toNat % 2 == 1) = true then Frame.clearFlag else 0) = UInt8.ofNat (g.toNat % 2) := by
  rcases Nat.mod_two_eq_zero_or_one g.toNat with h | h <;> rw [h] <;> rfl

/-- Frames of a type that is not understood have no place that is not read. -/
theorem normal_unknown (h : k ∉ Frame.knownKinds) :
    normalKind k = k ∧ (∀ g, normalFlags k g = g) ∧ ∀ n load, normalPayload n k load = load := by
  simp only [Frame.knownKinds, List.mem_cons, List.not_mem_nil, or_false, not_or] at h
  obtain ⟨hreply, hsettings, hping, hgoAway, hheaders, hwindow⟩ := h
  refine ⟨if_neg hreply, fun g => ?_, fun n load => ?_⟩
  · simp [normalFlags, flaglessKinds, hsettings, hping, hgoAway, hheaders, hwindow]
  · simp [normalPayload, hgoAway, hheaders, hwindow]

theorem wire_data (v : Version) (hw : IsFrame w) (hdata : ¬IsControl w) :
    ((Frame.data (word31At w 0) (flags w) (payload w)).wire c v).1 = normal w := by
  obtain ⟨b0, b1, b2, b3, b4, l0, l1, l2, load, rfl, hlen⟩ := exists_bytes hw
  have hflags : flags (b0 :: b1 :: b2 :: b3 :: b4 :: l0 :: l1 :: l2 :: load) = b4 :=
    ofNat_number_one b4
  have hfirst : clearTop b0 = b0 := by
    have hfield : field (b0 :: b1 :: b2 :: b3 :: b4 :: l0 :: l1 :: l2 :: load) 0 1 = b0.toNat :=
      number_one b0
    rw [IsControl, hfield] at hdata
    exact Bytes.ofNat_eq (by omega)
  have hlength : Bytes.be24 (UInt32.ofNat load.length) = [l0, l1, l2] := by
    rw [hlen, Bytes.be24_ofNat_number]
  rw [normal, if_neg hdata, hflags]
  show Bytes.be32 (low31 (word31At _ 0)) ++ b4 :: Bytes.be24 (UInt32.ofNat load.length) ++ load = _
  rw [be32_word31At, hfirst, hlength]
  rfl

/-- A frame that was read is written in its normal form. The version matters only to a control frame,
which has one. -/
theorem wire_of_reads (hw : IsFrame w) {d next : HeaderCodec.identity.Decompressor} {x : Delivery}
    (h : Reads d w x next) (c : HeaderCodec.identity.Compressor)
    (hv : ∀ v', x.version = some v' → v = v') : (x.frame.wire c v).1 = normal w := by
  have hspoken : ∀ {v' : Version} {k : UInt16} {f : Frame}, v = v' → Control w v' → f.kind? = some k →
      normalKind (kind w) = k → f.headerFlags = normalFlags k (flags w) →
      (f.payload c v').1 = normalPayload v'.number k (payload w) → (f.wire c v).1 = normal w := by
    rintro v' k f rfl hcontrol hkind hnormal hflags hload
    have hlength : (f.payload c v).1.length = (payload w).length := by
      rw [hload, length_normalPayload]
    rw [wire_eq_dress c hw hcontrol hkind hlength, normal, if_pos hcontrol.control, hcontrol.number,
      hnormal, hflags, hload]
  cases h with
  | data hdata => exact wire_data c v hw hdata
  | settings hcontrol hkind hsize hcount =>
      exact hspoken (hv _ rfl) hcontrol rfl (by rw [hkind]; rfl) (flags_settings (flags w))
        (payload_settings c _ hsize hcount)
  | ping hcontrol hkind hsize =>
      exact hspoken (hv _ rfl) hcontrol rfl (by rw [hkind]; rfl) rfl (payload_ping c hsize)
  | goAway hcontrol hkind hsize =>
      exact hspoken (hv _ rfl) hcontrol rfl (by rw [hkind]; rfl) rfl (payload_goAway c hsize)
  | headers hcontrol hkind hsize hblock =>
      obtain ⟨hblock, -⟩ := Prod.mk.inj hblock
      obtain rfl := Except.ok.inj hblock
      refine hspoken (hv _ rfl) hcontrol rfl ?_ rfl (payload_headers c hsize)
      rcases hkind with hkind | hkind <;> rw [hkind] <;> rfl
  | windowUpdate hcontrol hkind hsize =>
      exact hspoken (hv _ rfl) hcontrol rfl (by rw [hkind]; rfl) rfl (payload_windowUpdate c hsize)
  | unknown hcontrol hkind =>
      obtain ⟨hk, hflags, hload⟩ := normal_unknown hkind
      exact hspoken (hv _ rfl) hcontrol rfl hk (hflags _).symm (hload _ _).symm

/-! ### Normal means canonical -/

theorem clearTop_eq_self_iff (b : UInt8) : clearTop b = b ↔ b.toNat < 0x80 := by
  constructor
  · intro h
    rw [← h, clearTop, UInt8.toNat_ofNat']
    omega
  · exact fun h => Bytes.ofNat_eq (by have := b.toNat_lt; omega)

/-- The reserved bit of a word is the top bit of its first byte. -/
theorem number_lt_iff (a b c d : UInt8) : number [a, b, c, d] < 0x80000000 ↔ a.toNat < 0x80 := by
  have hb := b.toNat_lt
  have hc := c.toNat_lt
  have hd := d.toNat_lt
  rw [number_four]
  omega

theorem normalFlags_eq_self_iff (k : UInt16) (g : UInt8) :
    normalFlags k g = g ↔ (k = Frame.settingsKind → g.toNat < 2) ∧ (k ∈ flaglessKinds → g = 0) := by
  unfold normalFlags
  split
  · rename_i hk
    have hflagged : k ∉ flaglessKinds := by rw [hk]; decide
    have hone : UInt8.ofNat (g.toNat % 2) = g ↔ g.toNat < 2 := by
      constructor
      · intro h
        rw [← h, UInt8.toNat_ofNat']
        omega
      · exact fun h => Bytes.ofNat_eq (by omega)
    rw [hone]
    exact ⟨fun h => ⟨fun _ => h, fun hmem => absurd hmem hflagged⟩, fun h => h.1 hk⟩
  split
  · rename_i hk hflagless
    exact ⟨fun h => ⟨fun hsettings => absurd hsettings hk, fun _ => h.symm⟩,
      fun h => (h.2 hflagless).symm⟩
  · rename_i hk hflagged
    exact ⟨fun _ => ⟨fun h => absurd h hk, fun h => absurd h hflagged⟩, fun _ => rfl⟩

theorem clear_first_eq_self_iff (h : 4 ≤ load.length) :
    load.modify 0 clearTop = load ↔ field load 0 4 < 0x80000000 := by
  obtain ⟨a, b, c, d, rest, rfl⟩ := exists_word h
  have hfield : field (a :: b :: c :: d :: rest) 0 4 = number [a, b, c, d] := rfl
  rw [hfield, number_lt_iff, ← clearTop_eq_self_iff]
  show clearTop a :: b :: c :: d :: rest = _ ↔ _
  rw [List.cons.injEq, and_iff_left rfl]

theorem clear_both_eq_self_iff (h : load.length = 8) :
    (load.modify 0 clearTop).modify 4 clearTop = load ↔
      field load 0 4 < 0x80000000 ∧ field load 4 4 < 0x80000000 := by
  obtain ⟨a, b, c, d, rest, rfl⟩ := exists_word (by omega : 4 ≤ load.length)
  simp only [List.length_cons, Nat.reduceEqDiff] at h
  obtain ⟨e, f, g, i, rest, rfl⟩ := exists_word (Nat.le_of_eq h.symm)
  have hfield : field (a :: b :: c :: d :: e :: f :: g :: i :: rest) 0 4 = number [a, b, c, d] := rfl
  have hfield' : field (a :: b :: c :: d :: e :: f :: g :: i :: rest) 4 4 = number [e, f, g, i] := rfl
  rw [hfield, hfield', number_lt_iff, number_lt_iff, ← clearTop_eq_self_iff, ← clearTop_eq_self_iff]
  show clearTop a :: b :: c :: d :: clearTop e :: f :: g :: i :: rest = _ ↔ _
  simp

theorem pad_eq_self_iff (h : 6 ≤ load.length) :
    ((load.modify 0 clearTop).set 4 0).set 5 0 = load ↔
      field load 0 4 < 0x80000000 ∧ field load 4 2 = 0 := by
  obtain ⟨a, b, c, d, rest, rfl⟩ := exists_word (by omega : 4 ≤ load.length)
  match rest, h with
  | p :: q :: block, _ =>
      have hfield : field (a :: b :: c :: d :: p :: q :: block) 0 4 = number [a, b, c, d] := rfl
      have hfield' : field (a :: b :: c :: d :: p :: q :: block) 4 2 = number [p, q] := rfl
      have hzero : number [p, q] = 0 ↔ 0 = p ∧ 0 = q := by
        have hbyte : ∀ b : UInt8, 0 = b ↔ b.toNat = 0 := fun b =>
          eq_comm.trans UInt8.toNat_inj.symm
        rw [number_two, hbyte, hbyte]
        omega
      rw [hfield, hfield', number_lt_iff, ← clearTop_eq_self_iff, hzero]
      show clearTop a :: b :: c :: d :: 0 :: 0 :: block = _ ↔ _
      simp

/-- The places of a payload that are not read are those that the frame should leave zero. -/
theorem normalPayload_eq_self_iff {codec : HeaderCodec} {d : codec.Decompressor} (h : Control w v)
    (hfits : Fits d w v) :
    normalPayload (versionNumber w) (kind w) (payload w) = payload w ↔
      (kind w = Frame.goAwayKind ∨ kind w = Frame.headersKind ∨ kind w = Frame.windowUpdateKind →
        field (payload w) 0 4 < 0x80000000) ∧
      (kind w = Frame.windowUpdateKind → field (payload w) 4 4 < 0x80000000) ∧
      (v = .v2 → kind w = Frame.headersKind → field (payload w) 4 2 = 0) := by
  have hone : Frame.goAwayKind ≠ Frame.windowUpdateKind ∧ Frame.goAwayKind ≠ Frame.headersKind ∧
      Frame.windowUpdateKind ≠ Frame.headersKind := by decide
  obtain ⟨hgw, hgh, hwh⟩ := hone
  unfold normalPayload
  split
  · rename_i hk
    have hsize := (fits_goAway hk).mp hfits
    have hroom : 4 ≤ (payload w).length := by
      rw [hsize]
      cases v <;> decide
    rw [clear_first_eq_self_iff hroom]
    simp [hk, hgw, hgh]
  split
  · rename_i hk
    rw [clear_both_eq_self_iff ((fits_windowUpdate hk).mp hfits)]
    simp [hk, hwh]
  split
  · rename_i hgoAway hwindow hk
    have hsize := ((fits_headers (Or.inr hk)).mp hfits).1
    dsimp only
    rw [h.number]
    cases v with
    | v2 =>
        rw [if_pos rfl, pad_eq_self_iff hsize]
        simp [hk, Ne.symm hwh]
    | v3 =>
        rw [if_neg (by decide), clear_first_eq_self_iff hsize]
        simp [hk, Ne.symm hwh]
  · rename_i hgoAway hwindow hheaders
    simp [hgoAway, hwindow, hheaders]

/-- A well-formed frame is in normal form exactly when nothing is set where no reader looks. -/
theorem normal_eq_self_iff (hw : IsFrame w) {codec : HeaderCodec} {d : codec.Decompressor}
    (hformed : WellFormed d w) : normal w = w ↔ Canonical w := by
  by_cases hcontrol : IsControl w
  · obtain ⟨v, hnumber, hfits⟩ := hformed.resolve_left (not_not_intro hcontrol)
    have hspoken : Control w v := ⟨hcontrol, hnumber⟩
    have hversion : Control w .v2 ↔ v = .v2 :=
      ⟨fun h => number_injective (hnumber.symm.trans h.number), fun h => h ▸ hspoken⟩
    rw [normal, if_pos hcontrol, dress_eq_self_iff hw]
    by_cases hreply : kind w = Frame.synReplyKind
    · have hkind : normalKind (kind w) ≠ kind w := by
        rw [hreply]
        decide
      exact iff_of_false (fun h => hkind h.1) fun h => h.reply hcontrol hreply
    · have hkind : normalKind (kind w) = kind w := if_neg hreply
      rw [hkind, normalFlags_eq_self_iff, normalPayload_eq_self_iff hspoken hfits]
      constructor
      · rintro ⟨-, ⟨hsettings, hflagless⟩, hstream, hdelta, hpadding⟩
        exact ⟨fun _ => hreply, fun _ => hsettings, fun _ => hflagless, fun _ => hstream,
          fun _ => hdelta, fun h => hpadding (hversion.mp h)⟩
      · intro h
        exact ⟨rfl, ⟨h.settings hcontrol, h.flagless hcontrol⟩, h.stream hcontrol, h.delta hcontrol,
          fun hv => h.padding (hversion.mpr hv)⟩
  · have hnone : normal w = w := if_neg hcontrol
    exact iff_of_true hnone ⟨fun h => absurd h hcontrol, fun h => absurd h hcontrol,
      fun h => absurd h hcontrol, fun h => absurd h hcontrol, fun h => absurd h hcontrol,
      fun h => absurd h.control hcontrol⟩

/-! ### Reading the normal form -/

theorem isFrame_normal (hw : IsFrame w) : IsFrame (normal w) ∧ (normal w).length = w.length := by
  unfold normal
  split
  · exact ⟨isFrame_dress hw (length_normalPayload _ _ _), length_dress hw (length_normalPayload _ _ _)⟩
  · exact ⟨hw, rfl⟩

theorem isControl_normal (hw : IsFrame w) : IsControl (normal w) ↔ IsControl w := by
  unfold normal
  split
  · exact isControl_dress hw
  · exact Iff.rfl

theorem versionNumber_normal (hw : IsFrame w) : versionNumber (normal w) = versionNumber w := by
  unfold normal
  split
  · exact versionNumber_dress hw
  · rfl

theorem kind_normal (hw : IsFrame w) (h : IsControl w) : kind (normal w) = normalKind (kind w) := by
  rw [normal, if_pos h]
  exact kind_dress hw

theorem payload_normal (hw : IsFrame w) (h : IsControl w) :
    payload (normal w) = normalPayload (versionNumber w) (normalKind (kind w)) (payload w) := by
  rw [normal, if_pos h]
  exact payload_dress hw

theorem fits_normal (hw : IsFrame w) (h : IsControl w) (d : HeaderCodec.identity.Decompressor) :
    Fits d (normal w) v ↔ Fits d w v := by
  have hk := kind_normal hw h
  have hload := payload_normal hw h
  have hlength : (payload (normal w)).length = (payload w).length := by
    rw [hload, length_normalPayload]
  by_cases hheaders : kind w = Frame.synReplyKind ∨ kind w = Frame.headersKind
  · have hk' : kind (normal w) = Frame.headersKind := by
      rw [hk]
      rcases hheaders with hheaders | hheaders <;> rw [hheaders] <;> rfl
    -- A block that travels as it is can always be read.
    have hblock : ∀ load : Bytes, ∃ block, (HeaderCodec.identity.decompress d load).1 = .ok block :=
      fun load => ⟨load, rfl⟩
    rw [fits_headers hheaders, fits_headers (Or.inr hk'), hlength, and_iff_left (hblock _),
      and_iff_left (hblock _)]
  have hk' : kind (normal w) = kind w := by
    rw [hk]
    exact if_neg (not_or.mp hheaders).1
  by_cases hsettings : kind w = Frame.settingsKind
  · have hsame : payload (normal w) = payload w := by
      rw [hload, ← hk, hk', hsettings]
      rfl
    rw [fits_settings hsettings, fits_settings (hk'.trans hsettings), hsame]
  by_cases hping : kind w = Frame.pingKind
  · rw [fits_ping hping, fits_ping (hk'.trans hping), hlength]
  by_cases hgoAway : kind w = Frame.goAwayKind
  · rw [fits_goAway hgoAway, fits_goAway (hk'.trans hgoAway), hlength]
  by_cases hwindow : kind w = Frame.windowUpdateKind
  · rw [fits_windowUpdate hwindow, fits_windowUpdate (hk'.trans hwindow), hlength]
  · have hunknown : kind w ∉ Frame.knownKinds := by
      simp only [Frame.knownKinds, List.mem_cons, List.not_mem_nil, or_false, not_or]
      exact ⟨(not_or.mp hheaders).1, hsettings, hping, hgoAway, (not_or.mp hheaders).2, hwindow⟩
    exact iff_of_true (fits_unknown (hk' ▸ hunknown)) (fits_unknown hunknown)

/-- The normal form of a frame is as well formed as the frame. -/
theorem wellFormed_normal (hw : IsFrame w) (d : HeaderCodec.identity.Decompressor) :
    WellFormed d (normal w) ↔ WellFormed d w := by
  rw [WellFormed, WellFormed, isControl_normal hw, versionNumber_normal hw]
  by_cases hcontrol : IsControl w
  · simp only [fits_normal hw hcontrol]
  · exact iff_of_true (Or.inl hcontrol) (Or.inl hcontrol)

/-! ### What was read arrives as it is -/

theorem low31_word31At (bytes : Bytes) (place : Nat) :
    low31 (word31At bytes place) = word31At bytes place := by
  apply UInt32.toNat_inj.mp
  rw [toNat_low31, word31At, UInt32.toNat_ofNat']
  omega

theorem low24_ofNat_number {bytes : Bytes} (h : bytes.length ≤ 3) :
    low24 (UInt32.ofNat (number bytes)) = UInt32.ofNat (number bytes) := by
  have hsmall : number bytes < 0x1000000 := by
    match bytes, h with
    | [], _ => decide
    | [a], _ => rw [number_one]; have := a.toNat_lt; omega
    | [a, b], _ => rw [number_two]; have := a.toNat_lt; have := b.toNat_lt; omega
    | [a, b, c], _ =>
        rw [number_three]
        have := a.toNat_lt
        have := b.toNat_lt
        have := c.toNat_lt
        omega
  apply UInt32.toNat_inj.mp
  rw [low24, UInt32.toNat_ofNat', UInt32.toNat_ofNat']
  omega

theorem arrival_settingAt (version : Version) (bytes : Bytes) (place : Nat) :
    (settingAt version bytes place).arrival = settingAt version bytes place := by
  have hthree : ∀ first : Nat, ((bytes.drop first).take 3).length ≤ 3 := fun _ =>
    List.length_take_le _ _
  cases version with
  | v2 =>
      have hid := low24_ofNat_number (Nat.le_trans (Nat.le_of_eq List.length_reverse) (hthree place))
      rw [Setting.arrival, settingAt, hid]
  | v3 =>
      have hid := low24_ofNat_number (hthree (place + 1))
      rw [Setting.arrival, settingAt, field, hid]

/-- A frame that was read has nothing left to lose on its way. -/
theorem Reads.arrival {codec : HeaderCodec} {d next : codec.Decompressor} {x : Delivery}
    (h : Reads d w x next) (hv : ∀ v', x.version = some v' → v = v') :
    Delivery.arrival v x.frame = x := by
  cases h with
  | data hdata =>
      show Delivery.mk none (.data (low31 _) _ _) = _
      rw [low31_word31At]
  | settings =>
      obtain rfl := hv _ rfl
      show Delivery.mk (some v) (.settings _ (List.map _ (List.map _ _))) = _
      simp only [List.map_map, Function.comp_def, arrival_settingAt]
  | ping =>
      obtain rfl := hv _ rfl
      rfl
  | goAway =>
      obtain rfl := hv _ rfl
      show Delivery.mk (some v) (.goAway (low31 _) _) = _
      rw [low31_word31At]
      cases v <;> rfl
  | headers =>
      obtain rfl := hv _ rfl
      show Delivery.mk (some v) (.headers (low31 _) _) = _
      rw [low31_word31At]
  | windowUpdate =>
      obtain rfl := hv _ rfl
      show Delivery.mk (some v) (.windowUpdate (low31 _) (low31 _)) = _
      rw [low31_word31At, low31_word31At]
  | unknown =>
      obtain rfl := hv _ rfl
      rfl

theorem Reads.unmistakable {codec : HeaderCodec} {d next : codec.Decompressor} {x : Delivery}
    (h : Reads d w x next) : x.frame.Unmistakable := by
  intro kind flags load hunknown
  cases h with
  | unknown hcontrol hkind =>
      cases hunknown
      exact hkind
  | data | settings | ping | goAway | headers | windowUpdate => cases hunknown

end

end Grammar

end SpdySessions
