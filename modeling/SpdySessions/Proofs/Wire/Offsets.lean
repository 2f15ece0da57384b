import SpdySessions.Proofs.Wire.Pending

/-! Reading at offsets. Whoever has a stream in one buffer reads it with an offset into that: each frame
is a slice, each field some bytes at places inside of the slice, and the entries of a settings frame are
chunks. Here every access is checked: a difference below zero, a sum that no index can hold, a slice or
a place outside of the buffer, a chunk that is not full and an offset that stands still end the reading
with a breach. The main statement: there is none, whatever the bytes are; the reading comes to what the
reader makes of the bytes, and for each pass of its loop there are eight bytes. -/

namespace SpdySessions

/-- What is wrong with an access to a buffer. -/
inductive Breach where
  /-- A difference below zero. -/
  | below
  /-- A number that no index can hold. -/
  | tooLarge
  /-- A slice that ends before it starts, or behind the end of the buffer. -/
  | slice
  /-- A place behind the end of the buffer. -/
  | place
  /-- Bytes that are left behind the last full chunk. -/
  | remainder
  /-- An offset that has not grown by a header. -/
  | standstill
  deriving DecidableEq

/-- What comes of a reading whose accesses are checked. -/
abbrev Checked := Except Breach

namespace Checked

variable {codec : HeaderCodec}

/-! ### Accesses -/

def sub (m n : Nat) : Checked Nat :=
  if n ≤ m then .ok (m - n) else .error .below

/-- The sum of two indices; `top` is the largest index. -/
def add (top m n : Nat) : Checked Nat :=
  if m + n ≤ top then .ok (m + n) else .error .tooLarge

/-- A word as an index. -/
def index (top : Nat) (w : UInt32) : Checked Nat :=
  if w.toNat ≤ top then .ok w.toNat else .error .tooLarge

def slice (bytes : Bytes) (start stop : Nat) : Checked Bytes :=
  if start ≤ stop ∧ stop ≤ bytes.length then .ok ((bytes.drop start).take (stop - start))
  else .error .slice

def byteAt (bytes : Bytes) (place : Nat) : Checked UInt8 :=
  match bytes[place]? with
  | some b => .ok b
  | none => .error .place

def word (bytes : Bytes) (place : Nat) : Checked UInt32 := do
  let a ← byteAt bytes place
  let b ← byteAt bytes (place + 1)
  let c ← byteAt bytes (place + 2)
  let d ← byteAt bytes (place + 3)
  return Bytes.word32 a b c d

/-- The chunks of one size that a buffer consists of. -/
def chunks (size : Nat) (bytes : Bytes) : Checked (List Bytes) :=
  if bytes.length % size = 0 then
    .ok ((List.range (bytes.length / size)).map fun i => (bytes.drop (size * i)).take size)
  else .error .remainder

theorem ok_bind {α β : Type} (a : α) (f : α → Checked β) : (Except.ok a >>= f : Checked β) = f a :=
  rfl

theorem sub_of_le {m n : Nat} (h : n ≤ m) : sub m n = .ok (m - n) :=
  if_pos h

theorem add_of_le {top m n : Nat} (h : m + n ≤ top) : add top m n = .ok (m + n) :=
  if_pos h

theorem index_of_le {top : Nat} (htop : 0xffffffff ≤ top) (w : UInt32) :
    index top w = .ok w.toNat := by
  have hw := w.toNat_lt
  exact if_pos (by omega)

theorem slice_of_le {bytes : Bytes} {start stop : Nat} (hstart : start ≤ stop)
    (hstop : stop ≤ bytes.length) :
    slice bytes start stop = .ok ((bytes.drop start).take (stop - start)) :=
  if_pos ⟨hstart, hstop⟩

theorem slice_length {bytes : Bytes} {start : Nat} (h : start ≤ bytes.length) :
    slice bytes start bytes.length = .ok (bytes.drop start) := by
  rw [slice_of_le h (Nat.le_refl _), ← List.length_drop, List.take_length]

theorem byteAt_drop (bytes : Bytes) (start place : Nat) :
    byteAt (bytes.drop start) place = byteAt bytes (start + place) := by
  rw [byteAt, byteAt, List.getElem?_drop]

theorem word_of_le {bytes : Bytes} {place : Nat} (h : place + 4 ≤ bytes.length) :
    word bytes place = .ok (wordAt bytes place) := by
  have hsize : 4 ≤ (bytes.drop place).length := by
    rw [List.length_drop]
    omega
  obtain ⟨a, b, c, d, rest, hrest⟩ := exists_word hsize
  have hword : wordAt bytes place = Bytes.word32 a b c d := by
    rw [wordAt, field, hrest, word32_eq]
    rfl
  have hplace : byteAt bytes place = byteAt (bytes.drop place) 0 := (byteAt_drop bytes place 0).symm
  rw [word, hplace, ← byteAt_drop, ← byteAt_drop, ← byteAt_drop, hrest, hword]
  rfl

theorem chunks_of_length {size count : Nat} {bytes : Bytes} (hsize : 0 < size)
    (h : bytes.length = size * count) :
    chunks size bytes =
      .ok ((List.range count).map fun i => (bytes.drop (size * i)).take size) := by
  rw [chunks, h, if_pos (Nat.mul_mod_right size count), Nat.mul_div_cancel_left count hsize]

theorem mapM_of_forall {α β : Type} {read : α → Checked β} {value : α → β} {xs : List α}
    (h : ∀ x ∈ xs, read x = .ok (value x)) : xs.mapM read = .ok (xs.map value) := by
  induction xs with
  | nil => rfl
  | cons x xs ih =>
      rw [List.mapM_cons, h x List.mem_cons_self,
        ih fun y hy => h y (List.mem_cons_of_mem x hy)]
      rfl

theorem toNat_wordAt (bytes : Bytes) (place : Nat) :
    (wordAt bytes place).toNat = field bytes place 4 := by
  rw [wordAt, UInt32.toNat_ofNat']
  exact Nat.mod_eq_of_lt (field_lt bytes place 4)

theorem low31_wordAt (bytes : Bytes) (place : Nat) :
    low31 (wordAt bytes place) = word31At bytes place := by
  rw [low31, toNat_wordAt, word31At]

/-! ### Frames -/

/-- How long a settings payload of this many entries is, if an index can hold that. -/
def settingsSize (top count : Nat) : Option Nat :=
  if count * 8 ≤ top ∧ count * 8 + 4 ≤ top then some (count * 8 + 4) else none

def setting (version : Version) (entry : Bytes) : Checked Setting := do
  let e0 ← byteAt entry 0
  let e1 ← byteAt entry 1
  let e2 ← byteAt entry 2
  let e3 ← byteAt entry 3
  let value ← word entry 4
  match version with
  | .v2 => return ⟨Bytes.word24 e2 e1 e0, e3, value⟩
  | .v3 => return ⟨Bytes.word24 e1 e2 e3, e0, value⟩

/-- The entries behind the count of a settings payload. -/
def entries (version : Version) (payload : Bytes) : Checked (List Setting) := do
  let behind ← slice payload 4 payload.length
  let parts ← chunks 8 behind
  parts.mapM (setting version)

def settings (top : Nat) (version : Version) (flags : UInt8) (payload : Bytes) :
    Checked (Except Malformed Frame) :=
  if payload.length < 4 then return .error .entryCountMissing
  else do
    let word ← word payload 0
    let count ← index top word
    if settingsSize top count = some payload.length then
      let read ← entries version payload
      return .ok (.settings (flags.toNat % 2 == 1) read)
    else return .error (.entryCount payload.length count)

/-- The frame of a payload, if that has the one length that its type knows. -/
def ofLength (kind : UInt16) (payload : Bytes) (expected : Nat) (read : Checked Frame) :
    Checked (Except Malformed Frame) :=
  if payload.length = expected then do
    let frame ← read
    return .ok frame
  else return .error (.payloadLength kind payload.length expected)

def ping (payload : Bytes) : Checked (Except Malformed Frame) :=
  ofLength Frame.pingKind payload 4 do
    let id ← word payload 0
    return .ping id

def goAway (version : Version) (payload : Bytes) : Checked (Except Malformed Frame) :=
  match version with
  | .v2 => ofLength Frame.goAwayKind payload 4 do
      let stream ← word payload 0
      return .goAway (low31 stream) 0
  | .v3 => ofLength Frame.goAwayKind payload 8 do
      let status ← word payload 4
      let stream ← word payload 0
      return .goAway (low31 stream) status

def windowUpdate (payload : Bytes) : Checked (Except Malformed Frame) :=
  ofLength Frame.windowUpdateKind payload 8 do
    let stream ← word payload 0
    let delta ← word payload 4
    return .windowUpdate (low31 stream) (low31 delta)

def headers (d : codec.Decompressor) (version : Version) (kind : UInt16) (payload : Bytes) :
    Checked (Except Fault Frame × codec.Decompressor) :=
  if payload.length < blockPlace version then
    return (.error (.protocol (.tooShort kind payload.length)), d)
  else do
    let compressed ← slice payload (blockPlace version) payload.length
    match codec.decompress d compressed with
    | (.error fault, next) => return (.error fault, next)
    | (.ok block, next) =>
        let stream ← word payload 0
        return (.ok (.headers (low31 stream) block), next)

def control (top : Nat) (d : codec.Decompressor) (version : Version) (kind : UInt16) (flags : UInt8)
    (payload : Bytes) : Checked (Except Fault Frame × codec.Decompressor) :=
  let plain (read : Checked (Except Malformed Frame)) :
      Checked (Except Fault Frame × codec.Decompressor) := do
    let frame ← read
    return (frame.mapError .protocol, d)
  if kind = Frame.settingsKind then plain (settings top version flags payload)
  else if kind = Frame.pingKind then plain (ping payload)
  else if kind = Frame.goAwayKind then plain (goAway version payload)
  else if kind = Frame.synReplyKind ∨ kind = Frame.headersKind then headers d version kind payload
  else if kind = Frame.windowUpdateKind then plain (windowUpdate payload)
  else return (.ok (.unknown kind flags payload), d)

/-- The delivery of a header and a payload. -/
def delivery (top : Nat) (d : codec.Decompressor) (header payload : Bytes) :
    Checked (Except Fault Delivery × codec.Decompressor) := do
  let flags ← byteAt header 4
  let b0 ← byteAt header 0
  if b0.toNat < 0x80 then
    let stream ← word header 0
    return (.ok ⟨none, .data (low31 stream) flags payload⟩, d)
  else
    let b1 ← byteAt header 1
    let number := Bytes.word16 (UInt8.ofNat (b0.toNat % 0x80)) b1
    match Version.ofNumber number with
    | .error _ => return (.error (.protocol (.version number)), d)
    | .ok version =>
        let b2 ← byteAt header 2
        let b3 ← byteAt header 3
        let (frame, next) ← control top d version (Bytes.word16 b2 b3) flags payload
        return (frame.map (⟨some version, ·⟩), next)

/-! ### Frames are read in bounds -/

theorem setting_take (version : Version) {bytes : Bytes} (h : 8 ≤ bytes.length) :
    setting version (bytes.take 8) = .ok (settingAt version bytes 0) := by
  obtain ⟨e0, e1, e2, e3, rest, rfl⟩ := exists_word (by omega : 4 ≤ bytes.length)
  simp only [List.length_cons] at h
  obtain ⟨v0, v1, v2, v3, rest, rfl⟩ := exists_word (by omega : 4 ≤ rest.length)
  cases version with
  | v2 =>
      have hentry : settingAt .v2 (e0 :: e1 :: e2 :: e3 :: v0 :: v1 :: v2 :: v3 :: rest) 0 =
          ⟨UInt32.ofNat (number [e2, e1, e0]), UInt8.ofNat (number [e3]),
            UInt32.ofNat (number [v0, v1, v2, v3])⟩ := rfl
      rw [hentry, ofNat_number_one, ← word32_eq, ← word24_eq]
      rfl
  | v3 =>
      have hentry : settingAt .v3 (e0 :: e1 :: e2 :: e3 :: v0 :: v1 :: v2 :: v3 :: rest) 0 =
          ⟨UInt32.ofNat (number [e1, e2, e3]), UInt8.ofNat (number [e0]),
            UInt32.ofNat (number [v0, v1, v2, v3])⟩ := rfl
      rw [hentry, ofNat_number_one, ← word32_eq, ← word24_eq]
      rfl

/-- The entries behind the count are chunks of eight bytes, and each is read where it stands. -/
theorem entries_of_length (version : Version) {payload : Bytes} {count : Nat}
    (h : payload.length = 4 + 8 * count) :
    entries version payload =
      .ok ((List.range count).map fun i => settingAt version payload (4 + 8 * i)) := by
  have hbehind : (payload.drop 4).length = 8 * count := by
    rw [List.length_drop]
    omega
  have hread : ∀ i ∈ List.range count,
      setting version (((payload.drop 4).drop (8 * i)).take 8) =
        .ok (settingAt version payload (4 + 8 * i)) := by
    intro i hi
    have hi := List.mem_range.mp hi
    rw [setting_take, settingAt_drop, settingAt_drop]
    · rfl
    · rw [List.length_drop, hbehind]
      omega
  rw [entries, slice_length (by omega), ok_bind, chunks_of_length (by decide) hbehind, ok_bind,
    List.mapM_map]
  exact mapM_of_forall hread

/-- The size that is computed from a count cannot be that of a payload with another count. -/
theorem settingsSize_eq_some_iff {top count length : Nat} (h : length ≤ top) :
    settingsSize top count = some length ↔ length = 4 + 8 * count := by
  unfold settingsSize
  split
  · rw [Option.some.injEq]
    omega
  · constructor
    · intro hnone
      cases hnone
    · omega

theorem settings_eq {top : Nat} (htop : 0xffffffff ≤ top) (version : Version) (flags : UInt8)
    {payload : Bytes} (hpayload : payload.length ≤ top) :
    settings top version flags payload = .ok (Frame.ofSettings version flags payload) := by
  rw [ofSettings_eq, settings]
  by_cases hshort : payload.length < 4
  · rw [if_pos hshort, if_pos hshort]
    rfl
  rw [if_neg hshort, if_neg hshort, word_of_le (Nat.not_lt.mp hshort), ok_bind, index_of_le htop,
    ok_bind, toNat_wordAt]
  by_cases hcount : payload.length = 4 + 8 * field payload 0 4
  · rw [if_pos ((settingsSize_eq_some_iff hpayload).mpr hcount), if_pos hcount,
      entries_of_length version hcount]
    rfl
  · rw [if_neg fun h => hcount ((settingsSize_eq_some_iff hpayload).mp h), if_neg hcount]
    rfl

theorem ofLength_eq (kind : UInt16) (payload : Bytes) (expected : Nat) {read : Checked Frame}
    {frame : Frame} (h : payload.length = expected → read = .ok frame) :
    ofLength kind payload expected read =
      .ok (if payload.length = expected then .ok frame
        else .error (.payloadLength kind payload.length expected)) := by
  unfold ofLength
  by_cases hlength : payload.length = expected
  · rw [if_pos hlength, if_pos hlength, h hlength]
    rfl
  · rw [if_neg hlength, if_neg hlength]
    rfl

theorem ping_eq (payload : Bytes) : ping payload = .ok (Frame.ofPing payload) := by
  rw [ofPing_eq]
  refine ofLength_eq _ _ _ fun hlength => ?_
  rw [word_of_le (by omega)]
  rfl

theorem goAway_eq (version : Version) (payload : Bytes) :
    goAway version payload = .ok (Frame.ofGoAway version payload) := by
  rw [ofGoAway_eq]
  cases version with
  | v2 =>
      refine ofLength_eq _ _ _ fun hlength => ?_
      rw [word_of_le (by omega), ok_bind, low31_wordAt]
      rfl
  | v3 =>
      refine ofLength_eq _ _ _ fun hlength => ?_
      rw [word_of_le (by omega), ok_bind, word_of_le (by omega), ok_bind, low31_wordAt]
      rfl

theorem windowUpdate_eq (payload : Bytes) :
    windowUpdate payload = .ok (Frame.ofWindowUpdate payload) := by
  rw [ofWindowUpdate_eq]
  refine ofLength_eq _ _ _ fun hlength => ?_
  rw [word_of_le (by omega), ok_bind, word_of_le (by omega), ok_bind, low31_wordAt, low31_wordAt]
  rfl

theorem headers_eq (d : codec.Decompressor) (version : Version) {kind : UInt16} (flags : UInt8)
    (payload : Bytes) (hkind : kind = Frame.synReplyKind ∨ kind = Frame.headersKind) :
    headers d version kind payload = .ok (Frame.ofControl d version kind flags payload) := by
  rw [Frame.ofControl, if_pos hkind, splitHeaders_eq, headers]
  by_cases hshort : payload.length < blockPlace version
  · rw [if_pos hshort, if_neg (Nat.not_le.mpr hshort)]
    rfl
  have hsize := Nat.not_lt.mp hshort
  have hplace : 0 + 4 ≤ payload.length := by
    cases version <;> simp only [blockPlace] at hsize <;> omega
  rw [if_neg hshort, if_pos hsize, slice_length hsize, ok_bind]
  rcases hblock : codec.decompress d (payload.drop (blockPlace version)) with ⟨fault | block, next⟩
  · simp only [hblock]
    rfl
  · simp only [hblock, word_of_le hplace, ok_bind, low31_wordAt]
    rfl

theorem control_eq {top : Nat} (htop : 0xffffffff ≤ top) (d : codec.Decompressor) (version : Version)
    (kind : UInt16) (flags : UInt8) {payload : Bytes} (hpayload : payload.length ≤ top) :
    control top d version kind flags payload =
      .ok (Frame.ofControl d version kind flags payload) := by
  unfold control
  dsimp only
  split
  · rename_i hkind
    rw [hkind, settings_eq htop version flags hpayload]
    rfl
  split
  · rename_i hkind
    rw [hkind, ping_eq]
    rfl
  split
  · rename_i hkind
    rw [hkind, goAway_eq]
    rfl
  split
  · rename_i hkind
    exact headers_eq d version flags payload hkind
  split
  · rename_i hkind
    rw [hkind, windowUpdate_eq]
    rfl
  · rename_i hsettings hping hgoAway hblock hwindow
    rw [Grammar.ofControl_unknown]
    · rfl
    · simp only [Frame.knownKinds, List.mem_cons, List.not_mem_nil, or_false, not_or]
      exact ⟨(not_or.mp hblock).1, hsettings, hping, hgoAway, (not_or.mp hblock).2, hwindow⟩

/-- The bytes of a header in front of its length. -/
def front (header : FrameHeader) : Bytes :=
  [header.b0, header.b1, header.b2, header.b3, header.flags]

theorem delivery_eq {top : Nat} (htop : 0xffffffff ≤ top) (d : codec.Decompressor)
    (header : FrameHeader) (length : Bytes) {payload : Bytes} (hpayload : payload.length ≤ top) :
    delivery top d (front header ++ length) payload = .ok (Delivery.ofFrame d header payload) := by
  obtain ⟨b0, b1, b2, b3, flags⟩ := header
  rw [Delivery.ofFrame]
  by_cases hdata : b0.toNat < 0x80
  · rw [if_neg (by simp only [FrameHeader.isControl, decide_eq_true_eq]; omega)]
    exact if_pos hdata
  · rw [if_pos (by simp only [FrameHeader.isControl, decide_eq_true_eq]; omega)]
    refine (if_neg hdata).trans ?_
    have hsecond : byteAt (front ⟨b0, b1, b2, b3, flags⟩ ++ length) 1 = .ok b1 := rfl
    rw [hsecond, ok_bind]
    dsimp only [FrameHeader.version]
    cases Version.ofNumber (Bytes.word16 (UInt8.ofNat (b0.toNat % 0x80)) b1) with
    | error cause => rfl
    | ok version =>
        have hthird : byteAt (front ⟨b0, b1, b2, b3, flags⟩ ++ length) 2 = .ok b2 := rfl
        have hfourth : byteAt (front ⟨b0, b1, b2, b3, flags⟩ ++ length) 3 = .ok b3 := rfl
        dsimp only
        rw [hthird, ok_bind, hfourth, ok_bind, control_eq htop d version _ flags hpayload]
        rfl

/-! ### Streams -/

def payloadLength (top : Nat) (header : Bytes) : Checked Nat := do
  let l0 ← byteAt header 5
  let l1 ← byteAt header 6
  let l2 ← byteAt header 7
  index top (Bytes.word24 l0 l1 l2)

/-- The end of the reading at an offset: what is behind it is left over. -/
def leave (d : codec.Decompressor) (bytes : Bytes) (offset : Nat) :
    Checked (FrameReader.Outcome codec) := do
  let rest ← slice bytes offset bytes.length
  return ⟨[], rest, d, none⟩

/-- The frame at an offset, if it is complete: where it ends, and what comes of it. -/
def pass (top : Nat) (d : codec.Decompressor) (bytes : Bytes) (offset : Nat) :
    Checked (Option (Nat × Except Fault Delivery × codec.Decompressor)) := do
  let start ← add top offset Frame.headerSize
  let header ← slice bytes offset start
  let length ← payloadLength top header
  let left ← sub bytes.length offset
  let room ← sub left Frame.headerSize
  if room < length then return none
  else
    let stop ← add top start length
    let payload ← slice bytes start stop
    let answer ← delivery top d header payload
    return some (stop, answer)

/-- Reads frames from an offset on until none is left or one is malformed, and counts its passes. -/
def scan (top : Nat) (d : codec.Decompressor) (bytes : Bytes) (offset : Nat) :
    Checked (Nat × FrameReader.Outcome codec) := do
  let left ← sub bytes.length offset
  if left < Frame.headerSize then
    let outcome ← leave d bytes offset
    return (0, outcome)
  else
    match ← pass top d bytes offset with
    | none =>
        let outcome ← leave d bytes offset
        return (1, outcome)
    | some (_, .error fault, next) => return (1, ⟨[], [], next, some fault⟩)
    | some (stop, .ok delivery, next) =>
        if h : offset + Frame.headerSize ≤ stop ∧ stop ≤ bytes.length then
          have : bytes.length - stop < bytes.length - offset := by
            simp only [Frame.headerSize] at h
            omega
          let (passes, outcome) ← scan top next bytes stop
          return (passes + 1, { outcome with deliveries := delivery :: outcome.deliveries })
        else .error .standstill
  termination_by bytes.length - offset

/-- Takes in bytes behind those that are pending. -/
def feed (top : Nat) (r : FrameReader codec) (data : Bytes) :
    Checked (Nat × List Delivery × Option Fault × FrameReader codec) := do
  let (passes, outcome) ← scan top r.decompressor (r.pending ++ data) 0
  return (passes, outcome.deliveries, outcome.fault,
    { decompressor := outcome.decompressor, pending := outcome.rest })

/-! ### Streams are read in bounds -/

/-- The header at an offset: what is behind the offset, and the slice that is taken of it. -/
theorem exists_header_at {bytes : Bytes} {offset : Nat} (h : offset + Frame.headerSize ≤ bytes.length) :
    ∃ (header : FrameHeader) (l0 l1 l2 : UInt8),
      bytes.drop offset = front header ++ ([l0, l1, l2] ++ bytes.drop (offset + Frame.headerSize)) ∧
      slice bytes offset (offset + Frame.headerSize) = .ok (front header ++ [l0, l1, l2]) := by
  have hsize : 8 ≤ (bytes.drop offset).length := by
    rw [List.length_drop]
    simp only [Frame.headerSize] at h
    omega
  obtain ⟨b0, b1, b2, b3, rest, hrest⟩ := exists_word (by omega : 4 ≤ (bytes.drop offset).length)
  rw [hrest, List.length_cons, List.length_cons, List.length_cons, List.length_cons] at hsize
  obtain ⟨flags, l0, l1, l2, body, rfl⟩ := exists_word (by omega : 4 ≤ rest.length)
  refine ⟨⟨b0, b1, b2, b3, flags⟩, l0, l1, l2, ?_, ?_⟩
  · rw [← List.drop_drop, hrest]
    rfl
  · rw [slice_of_le (Nat.le_add_right _ _) h, Nat.add_sub_cancel_left, hrest]
    rfl

theorem cut?_header (header : FrameHeader) (l0 l1 l2 : UInt8) (body : Bytes) :
    FrameReader.cut? (front header ++ ([l0, l1, l2] ++ body)) =
      if (Bytes.word24 l0 l1 l2).toNat ≤ body.length then
        some (header, body.take (Bytes.word24 l0 l1 l2).toNat,
          body.drop (Bytes.word24 l0 l1 l2).toNat)
      else none := by
  simp only [front, List.cons_append, List.nil_append, FrameReader.cut?, Bytes.atLeast_iff]

theorem cut?_of_short {bytes : Bytes} (h : bytes.length < Frame.headerSize) :
    FrameReader.cut? bytes = none := by
  rw [Option.eq_none_iff_forall_ne_some]
  intro parts hcut
  have hlength := FrameReader.length_of_cut? hcut
  omega

theorem drop_of_cut? {bytes payload rest : Bytes} {header : FrameHeader}
    (h : FrameReader.cut? bytes = some (header, payload, rest)) :
    bytes.drop (Frame.headerSize + payload.length) = rest := by
  obtain ⟨l0, l1, l2, -, rfl⟩ := FrameReader.cut?_eq_some_iff.mp h
  rw [← List.append_assoc]
  exact List.drop_left' (by simp only [List.length_append, List.length_cons, List.length_nil]; rfl)

theorem leave_eq (d : codec.Decompressor) {bytes : Bytes} {offset : Nat} (h : offset ≤ bytes.length) :
    leave d bytes offset = .ok ⟨[], bytes.drop offset, d, none⟩ := by
  rw [leave, slice_length h]
  rfl

theorem payloadLength_header {top : Nat} (htop : 0xffffffff ≤ top) (header : FrameHeader)
    (l0 l1 l2 : UInt8) :
    payloadLength top (front header ++ [l0, l1, l2]) = .ok (Bytes.word24 l0 l1 l2).toNat := by
  have hfirst : byteAt (front header ++ [l0, l1, l2]) 5 = .ok l0 := rfl
  have hsecond : byteAt (front header ++ [l0, l1, l2]) 6 = .ok l1 := rfl
  have hthird : byteAt (front header ++ [l0, l1, l2]) 7 = .ok l2 := rfl
  rw [payloadLength, hfirst, ok_bind, hsecond, ok_bind, hthird, ok_bind, index_of_le htop]

/-- A pass finds what the first cut finds. -/
theorem pass_eq {top : Nat} (htop : 0xffffffff ≤ top) {bytes : Bytes} (hbytes : bytes.length ≤ top)
    (d : codec.Decompressor) {offset : Nat} (hoffset : offset + Frame.headerSize ≤ bytes.length) :
    pass top d bytes offset = .ok ((FrameReader.cut? (bytes.drop offset)).map fun parts =>
      (offset + Frame.headerSize + parts.2.1.length, Delivery.ofFrame d parts.1 parts.2.1)) := by
  obtain ⟨header, l0, l1, l2, hdrop, hheader⟩ := exists_header_at hoffset
  have hroom : bytes.length - offset - Frame.headerSize =
      (bytes.drop (offset + Frame.headerSize)).length := by
    rw [List.length_drop, Nat.sub_sub]
  rw [pass, add_of_le (by omega), ok_bind, hheader, ok_bind, payloadLength_header htop, ok_bind,
    sub_of_le (by omega), ok_bind, sub_of_le (by omega), ok_bind, hroom, hdrop, cut?_header]
  generalize (Bytes.word24 l0 l1 l2).toNat = length
  by_cases hshort : (bytes.drop (offset + Frame.headerSize)).length < length
  · rw [if_pos hshort, if_neg (Nat.not_le.mpr hshort)]
    rfl
  have hcomplete := Nat.not_lt.mp hshort
  have hpayload : ((bytes.drop (offset + Frame.headerSize)).take length).length = length :=
    List.length_take_of_le hcomplete
  rw [if_neg hshort, if_pos hcomplete, add_of_le (by omega), ok_bind,
    slice_of_le (by omega) (by omega), ok_bind, Nat.add_sub_cancel_left,
    delivery_eq htop d header _ (by omega), ok_bind, Option.map_some, hpayload]
  rfl

/-- One pass at a time: a pass has a header before it, and the next starts behind the frame. -/
theorem exists_scan_eq {top : Nat} (htop : 0xffffffff ≤ top) {bytes : Bytes} (hbytes : bytes.length ≤ top)
    (d : codec.Decompressor) {offset : Nat} (hoffset : offset ≤ bytes.length) :
    ∃ passes, scan top d bytes offset = .ok (passes, FrameReader.scan d (bytes.drop offset)) ∧
      8 * passes ≤ bytes.length - offset := by
  -- By what is left behind the offset, of which every pass takes a header at least.
  induction hleft : bytes.length - offset using Nat.strongRecOn generalizing d offset with
  | _ left ih =>
  subst hleft
  rw [scan, sub_of_le hoffset, ok_bind]
  by_cases hshort : bytes.length - offset < Frame.headerSize
  · have hcut : FrameReader.cut? (bytes.drop offset) = none :=
      cut?_of_short (by rw [List.length_drop]; exact hshort)
    refine ⟨0, ?_, Nat.zero_le _⟩
    rw [if_pos hshort, leave_eq d hoffset, FrameReader.scan_of_incomplete d hcut]
    rfl
  have hheader := Nat.not_lt.mp hshort
  rw [if_neg hshort, pass_eq htop hbytes d (by simp only [Frame.headerSize] at hheader ⊢; omega), ok_bind]
  cases hcut : FrameReader.cut? (bytes.drop offset) with
  | none =>
      refine ⟨1, ?_, hheader⟩
      rw [FrameReader.scan_of_incomplete d hcut]
      dsimp only [Option.map_none]
      rw [leave_eq d hoffset]
      rfl
  | some parts =>
      obtain ⟨header, payload, rest⟩ := parts
      dsimp only [Option.map_some]
      rcases hframe : Delivery.ofFrame d header payload with ⟨fault | delivery, next⟩
      · refine ⟨1, ?_, hheader⟩
        rw [FrameReader.scan_of_fault hcut hframe]
        rfl
      · have hparts := FrameReader.length_of_cut? hcut
        rw [List.length_drop] at hparts
        simp only [Frame.headerSize] at hheader hparts
        have hstop : offset + Frame.headerSize + payload.length ≤ bytes.length := by
          simp only [Frame.headerSize]
          omega
        have hrest : bytes.drop (offset + Frame.headerSize + payload.length) = rest := by
          rw [Nat.add_assoc, ← List.drop_drop, drop_of_cut? hcut]
        obtain ⟨passes, hscan, hpasses⟩ := ih _ (by simp only [Frame.headerSize]; omega) next hstop rfl
        refine ⟨passes + 1, ?_, ?_⟩
        · dsimp only
          rw [dif_pos ⟨Nat.le_add_right _ _, hstop⟩, hscan, hrest,
            FrameReader.scan_of_delivery hcut hframe]
          rfl
        · simp only [Frame.headerSize] at hpasses hstop
          omega

/-- **Reading stays in bounds and ends.** Whatever is pending and whatever comes, if the two fit into a
buffer and an index holds a word, then nothing that the reading at offsets does is a breach: no
difference is below zero, every slice and every place is inside of its buffer, no chunk is left open, and
the offset always grows by a header. It makes of the bytes what the reader makes of them, in at most one
pass for eight bytes. The size that a settings frame is checked against is computed without a wrap: a
payload with entries has as many as its count says, eight bytes each, and four for the count. -/
theorem reading_is_in_bounds {top : Nat} (htop : 0xffffffff ≤ top) (r : FrameReader codec) (data : Bytes)
    (hroom : (r.pending ++ data).length ≤ top) :
    (∃ passes, feed top r data = .ok (passes, r.feed data) ∧
      8 * passes ≤ (r.pending ++ data).length) ∧
    ∀ version flags payload clear entries,
      Frame.ofSettings version flags payload = .ok (.settings clear entries) →
      entries.length = field payload 0 4 ∧ payload.length = 4 + 8 * entries.length := by
  refine ⟨?_, fun version flags payload clear entries h => ?_⟩
  · obtain ⟨passes, hscan, hpasses⟩ :=
      exists_scan_eq htop hroom r.decompressor (Nat.zero_le (r.pending ++ data).length)
    refine ⟨passes, ?_, hpasses⟩
    rw [feed, hscan]
    rfl
  · rw [ofSettings_eq] at h
    split at h
    · cases h
    split at h
    · rename_i hlength
      injection h with h
      injection h with hclear hentries
      rw [← hentries, List.length_map, List.length_range]
      exact ⟨rfl, hlength⟩
    · cases h

/-- A settings frame with a count whose entries would take 2 ^ 32 bytes, after its first three bytes. -/
theorem wrapping_count_is_refused :
    ∃ passes, feed 0xffffffff (⟨(), [0x80, 3, 0]⟩ : FrameReader .identity)
        [4, 0, 0, 0, 4, 0x20, 0, 0, 0] =
      .ok (passes, [], some (.protocol (.entryCount 4 0x20000000)), ⟨(), []⟩) ∧ 8 * passes ≤ 12 := by
  have hread : (⟨(), [0x80, 3, 0]⟩ : FrameReader .identity).feed [4, 0, 0, 0, 4, 0x20, 0, 0, 0] =
      ([], some (.protocol (.entryCount 4 0x20000000)), ⟨(), []⟩) := by
    have hscan : (FrameReader.scan () [0x80, 3, 0, 4, 0, 0, 0, 4, 0x20, 0, 0, 0] :
        FrameReader.Outcome .identity) =
          ⟨[], [], (), some (.protocol (.entryCount 4 0x20000000))⟩ := FrameReader.scan_of_fault rfl rfl
    exact congrArg (fun outcome : FrameReader.Outcome .identity =>
      (outcome.deliveries, outcome.fault,
        (⟨outcome.decompressor, outcome.rest⟩ : FrameReader .identity))) hscan
  obtain ⟨⟨passes, hfeed, hpasses⟩, -⟩ := reading_is_in_bounds (Nat.le_refl 0xffffffff)
    (⟨(), [0x80, 3, 0]⟩ : FrameReader .identity) [4, 0, 0, 0, 4, 0x20, 0, 0, 0] (by decide)
  rw [hread] at hfeed
  exact ⟨passes, hfeed, hpasses⟩

end Checked

end SpdySessions
