import SpdySessions.Proofs.Wire.RoundTrip

/-! The sizes of frames. How long a payload is follows from the frame, the layout and, for headers, the
compressor; a frame is written exactly when its length field can express that. Then the header says
the length, the number of settings in front of their entries is their number, and the pool has no part
in the bytes: its buffers come empty, whatever was in them before. -/

namespace SpdySessions

namespace Frame

/-- The length of the payload. -/
def payloadLength {codec : HeaderCodec} (compressor : codec.Compressor) (version : Version) :
    Frame → Nat
  | settings _ entries => 4 + 8 * entries.length
  | ping _ => 4
  | goAway _ _ => goAwaySize version
  | headers _ block => blockPlace version + (codec.compress compressor block).1.length
  | windowUpdate _ _ => 8
  | data _ _ payload => payload.length
  | unknown _ _ payload => payload.length

variable {codec : HeaderCodec} (c : codec.Compressor) (v : Version) (f : Frame)

theorem length_payload : (f.payload c v).1.length = f.payloadLength c v := by
  cases f with
  | settings clear entries =>
      show (Bytes.be32 _ ++ entries.flatMap (Setting.bytes v)).length = _
      rw [List.length_append, Setting.length_flatMap_bytes, Bytes.length_be32, payloadLength]
  | goAway lastGoodStream status => cases v <;> rfl
  | headers stream block =>
      show (Bytes.be32 _ ++ headerPadding v ++ (codec.compress c block).1).length = _
      have hplace : 4 + (headerPadding v).length = blockPlace v := by cases v <;> rfl
      rw [List.length_append, List.length_append, Bytes.length_be32, hplace, payloadLength]
  | ping | windowUpdate | data | unknown => rfl

theorem length_wire : (f.wire c v).1.length = headerSize + f.payloadLength c v := by
  obtain ⟨a, b, c', d, hword⟩ := Grammar.exists_headerWord v f
  show (f.header v _ ++ (f.payload c v).1).length = _
  rw [header, hword, List.length_append, length_payload]
  rfl

end Frame

namespace Grammar

variable {codec : HeaderCodec} (c : codec.Compressor) (v : Version) (f : Frame)

/-- The control bit is set on all frames but data. -/
theorem isControl_wire :
    IsControl (f.wire c v).1 ↔ ∀ stream flags data, f ≠ .data stream flags data := by
  cases f with
  | data stream flags data =>
      refine iff_of_false ?_ fun h => h stream flags data rfl
      exact not_isControl_header v data stream flags data data.length
  | settings | ping | goAway | headers | windowUpdate | unknown =>
      exact iff_of_true (control_header v _ rfl _).control (by simp)

variable {f}

/-- The length field says the length. -/
theorem lengthField_wire (h : f.payloadLength c v ≤ Frame.maxPayload) :
    field (f.wire c v).1 5 3 = f.payloadLength c v := by
  rw [← Frame.length_payload] at h
  have hframe : (f.wire c v).1.length = Frame.headerSize + field (f.wire c v).1 5 3 :=
    isFrame_header v f _ h
  rw [Frame.length_wire] at hframe
  omega

/-- The number in front of the entries is their number. -/
theorem countField_wire {clear : Bool} {entries : List Setting}
    (h : (Frame.settings clear entries).payloadLength c v ≤ Frame.maxPayload) :
    field ((Frame.settings clear entries).wire c v).1 8 4 = entries.length := by
  have hload : payload ((Frame.settings clear entries).wire c v).1 =
      ((Frame.settings clear entries).payload c v).1 := payload_header v _ _ _
  rw [← Frame.length_payload] at h
  obtain ⟨-, hcount, -⟩ := settings_payload v entries hload (hload ▸ h)
  rw [payload, field_drop] at hcount
  exact hcount

end Grammar

namespace FrameWriter

open Grammar

variable {codec : HeaderCodec} (w : FrameWriter codec) {pool pool' : BufferPool} (v : Version)
  (f : Frame)

/-- A payload that is too long is not written. The pool is not asked for a buffer then, but the
compressor has had the block. -/
theorem write_of_lt (pool : BufferPool) (h : Frame.maxPayload < f.payloadLength w.compressor v) :
    w.write pool v f = (.error (.protocol (.tooLarge (f.payloadLength w.compressor v))),
      ⟨(f.payload w.compressor v).2⟩, pool) := by
  rw [← Frame.length_payload] at h ⊢
  exact if_pos h

/-- What is written is the header and the payload, in whatever buffer the pool has. -/
theorem exists_write_of_le (hpool : pool.Reachable)
    (h : f.payloadLength w.compressor v ≤ Frame.maxPayload) :
    ∃ buffer next, w.write pool v f = (.ok buffer, ⟨(f.wire w.compressor v).2⟩, next) ∧
      buffer.content = (f.wire w.compressor v).1 := by
  rw [← Frame.length_payload] at h
  have hwrite := w.write_of_le pool h
  exact ⟨_, _, hwrite, (content_of_write hpool hwrite).1⟩

/-- **Headers tell the truth, and the limit is exact.** A frame is refused, as one that breaks the
protocol, exactly when its payload is longer than 16777215 bytes. Otherwise it is written, in eight bytes
and its payload; the length field says the length of the payload, the control bit is set unless the
frame is data, and the number in front of settings is the number of entries, so no number lost a digit
on its way into a field. The bytes, and the compressor after them, are the same whatever the pool is
and was used for. -/
theorem header_tells_truth (hpool : pool.Reachable) :
    ((∃ cause, (w.write pool v f).1 = .error (.protocol cause)) ↔
      16777215 < f.payloadLength w.compressor v) ∧
    (f.payloadLength w.compressor v ≤ 16777215 → ∃ buffer, (w.write pool v f).1 = .ok buffer ∧
      buffer.content.length = 8 + f.payloadLength w.compressor v ∧
      field buffer.content 5 3 = f.payloadLength w.compressor v ∧
      (IsControl buffer.content ↔ ∀ stream flags data, f ≠ .data stream flags data) ∧
      ∀ clear entries, f = .settings clear entries → field buffer.content 8 4 = entries.length) ∧
    ∀ other : BufferPool, other.Reachable →
      (w.write other v f).1.map Buffer.content = (w.write pool v f).1.map Buffer.content ∧
      (w.write other v f).2.1 = (w.write pool v f).2.1 := by
  by_cases hsize : f.payloadLength w.compressor v ≤ Frame.maxPayload
  · obtain ⟨buffer, next, hwrite, hcontent⟩ := w.exists_write_of_le v f hpool hsize
    refine ⟨?_, fun _ => ⟨buffer, congrArg Prod.fst hwrite, ?_, ?_, ?_, ?_⟩, fun other hother => ?_⟩
    · rw [hwrite]
      exact iff_of_false (by simp) (Nat.not_lt.mpr hsize)
    · rw [hcontent, Frame.length_wire, Frame.headerSize]
    · rw [hcontent, lengthField_wire w.compressor v hsize]
    · rw [hcontent, isControl_wire]
    · rintro clear entries rfl
      rw [hcontent, countField_wire w.compressor v hsize]
    · obtain ⟨buffer', next', hwrite', hcontent'⟩ := w.exists_write_of_le v f hother hsize
      rw [hwrite, hwrite']
      refine ⟨?_, rfl⟩
      show Except.ok buffer'.content = Except.ok buffer.content
      rw [hcontent, hcontent']
  · have hlarge : Frame.maxPayload < f.payloadLength w.compressor v := Nat.not_le.mp hsize
    refine ⟨?_, fun hle => absurd hle hsize, fun other _ => ?_⟩
    · rw [w.write_of_lt v f pool hlarge]
      exact iff_of_true ⟨_, rfl⟩ hlarge
    · rw [w.write_of_lt v f pool hlarge, w.write_of_lt v f other hlarge]
      exact ⟨rfl, rfl⟩

/-- Settings at the limit: as many entries as fit in a frame, and one more. -/
theorem settings_at_limit :
    (∃ buffer, ((fresh .rolling).write (BufferPool.release ⟨16, 4, []⟩ ⟨[1, 2, 3], 64⟩) .v2
        (.settings true (List.replicate 2097151 ⟨7, 1, 9⟩))).1 = .ok buffer ∧
      buffer.content.length = 16777220 ∧ field buffer.content 5 3 = 16777212 ∧
      IsControl buffer.content ∧ field buffer.content 8 4 = 2097151) ∧
    ∃ cause, ((fresh .rolling).write (BufferPool.release ⟨16, 4, []⟩ ⟨[1, 2, 3], 64⟩) .v2
      (.settings true (List.replicate 2097152 ⟨7, 1, 9⟩))).1 = .error (.protocol cause) := by
  have hpool : (BufferPool.release ⟨16, 4, []⟩ ⟨[1, 2, 3], 64⟩).Reachable :=
    .release (.empty 16 4) ⟨[1, 2, 3], 64⟩
  have hload : ∀ n : Nat, (Frame.settings true (List.replicate n ⟨7, 1, 9⟩)).payloadLength
      (fresh .rolling).compressor .v2 = 4 + 8 * n := by
    intro n
    rw [Frame.payloadLength, List.length_replicate]
  have hfits := hload 2097151
  constructor
  · obtain ⟨buffer, hwrite, hlength, hfield, hcontrol, hcount⟩ :=
      (header_tells_truth (fresh .rolling) .v2 (.settings true (List.replicate 2097151 ⟨7, 1, 9⟩))
        hpool).2.1 (by omega)
    refine ⟨buffer, hwrite, ?_, ?_, ?_, ?_⟩
    · omega
    · omega
    · exact hcontrol.mpr fun stream flags data h => nomatch h
    · exact (hcount true _ rfl).trans List.length_replicate
  · apply (header_tells_truth (fresh .rolling) .v2 (.settings true (List.replicate 2097152 ⟨7, 1, 9⟩))
      hpool).1.mpr
    have hlarge := hload 2097152
    omega

end FrameWriter

end SpdySessions
