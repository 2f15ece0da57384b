import SpdySessions.Wire.FrameReader

/-! Where the fields of a frame stand. A field is the number that some bytes at a fixed place write;
each reader of a payload is shown to read exactly the fields of its frame type at their places, and
to refuse exactly the payloads that are too short or too long to hold them. -/

namespace SpdySessions

/-- The number that bytes write, high byte first. -/
def number (bytes : Bytes) : Nat :=
  bytes.foldl (fun n b => n * 0x100 + b.toNat) 0

/-- The number in the `width` bytes from `place` on. -/
def field (bytes : Bytes) (place width : Nat) : Nat :=
  number ((bytes.drop place).take width)

/-- The word at a place. -/
def wordAt (bytes : Bytes) (place : Nat) : UInt32 :=
  UInt32.ofNat (field bytes place 4)

/-- The word at a place without its reserved top bit. -/
def word31At (bytes : Bytes) (place : Nat) : UInt32 :=
  UInt32.ofNat (field bytes place 4 % 0x80000000)

/-- The settings entry of eight bytes at a place: the number in three bytes, low byte first in
version 2 and behind the flags in version 3, and the value in four. -/
def settingAt (version : Version) (bytes : Bytes) (place : Nat) : Setting :=
  match version with
  | .v2 =>
      { id := UInt32.ofNat (number ((bytes.drop place).take 3).reverse)
        flags := UInt8.ofNat (field bytes (place + 3) 1)
        value := wordAt bytes (place + 4) }
  | .v3 =>
      { id := UInt32.ofNat (field bytes (place + 1) 3)
        flags := UInt8.ofNat (field bytes place 1)
        value := wordAt bytes (place + 4) }

/-- The payload of a farewell: the last good stream, and in version 3 a status. -/
def goAwaySize : Version → Nat
  | .v2 => 4
  | .v3 => 8

/-- The status of a farewell, which version 2 does not have. -/
def goAwayStatus (version : Version) (payload : Bytes) : UInt32 :=
  match version with
  | .v2 => 0
  | .v3 => wordAt payload 4

/-- Where the header block starts: behind the stream, and in version 2 behind two bytes more. -/
def blockPlace : Version → Nat
  | .v2 => 6
  | .v3 => 4

/-! ### Numbers in bytes -/

theorem field_drop (bytes : Bytes) (skipped place width : Nat) :
    field (bytes.drop skipped) place width = field bytes (skipped + place) width := by
  rw [field, field, List.drop_drop]

theorem settingAt_drop (version : Version) (bytes : Bytes) (skipped place : Nat) :
    settingAt version (bytes.drop skipped) place = settingAt version bytes (skipped + place) := by
  cases version <;>
    simp only [settingAt, wordAt, field_drop, List.drop_drop, Nat.add_assoc]

theorem number_one (b : UInt8) : number [b] = b.toNat := by
  simp only [number, List.foldl_cons, List.foldl_nil, Nat.zero_mul, Nat.zero_add]

theorem ofNat_number_one (b : UInt8) : UInt8.ofNat (number [b]) = b := by
  rw [number_one, UInt8.ofNat_toNat]

theorem number_two (a b : UInt8) : number [a, b] = a.toNat * 0x100 + b.toNat := by
  simp only [number, List.foldl_cons, List.foldl_nil, Nat.zero_mul, Nat.zero_add]

theorem number_three (a b c : UInt8) :
    number [a, b, c] = a.toNat * 0x10000 + b.toNat * 0x100 + c.toNat := by
  simp only [number, List.foldl_cons, List.foldl_nil]
  omega

theorem number_four (a b c d : UInt8) :
    number [a, b, c, d] =
      a.toNat * 0x1000000 + b.toNat * 0x10000 + c.toNat * 0x100 + d.toNat := by
  simp only [number, List.foldl_cons, List.foldl_nil]
  omega

theorem word24_eq (a b c : UInt8) : Bytes.word24 a b c = UInt32.ofNat (number [a, b, c]) := by
  rw [number_three]
  rfl

theorem toNat_word24 (a b c : UInt8) : (Bytes.word24 a b c).toNat = number [a, b, c] := by
  have ha := a.toNat_lt
  have hb := b.toNat_lt
  have hc := c.toNat_lt
  rw [word24_eq, UInt32.toNat_ofNat', number_three]
  omega

theorem word32_eq (a b c d : UInt8) :
    Bytes.word32 a b c d = UInt32.ofNat (number [a, b, c, d]) := by
  rw [number_four]
  rfl

theorem toNat_word32 (a b c d : UInt8) :
    (Bytes.word32 a b c d).toNat = number [a, b, c, d] := by
  have ha := a.toNat_lt
  have hb := b.toNat_lt
  have hc := c.toNat_lt
  have hd := d.toNat_lt
  rw [word32_eq, UInt32.toNat_ofNat', number_four]
  omega

theorem low31_word32 (a b c d : UInt8) :
    low31 (Bytes.word32 a b c d) = UInt32.ofNat (number [a, b, c, d] % 0x80000000) := by
  rw [low31, toNat_word32]

/-! ### Payloads by place -/

theorem exists_word {bytes : Bytes} (h : 4 ≤ bytes.length) :
    ∃ a b c d rest, bytes = a :: b :: c :: d :: rest := by
  match bytes, h with
  | a :: b :: c :: d :: rest, _ => exact ⟨a, b, c, d, rest, rfl⟩

theorem ofPing_eq (payload : Bytes) :
    Frame.ofPing payload =
      if payload.length = 4 then .ok (.ping (wordAt payload 0))
      else .error (.payloadLength Frame.pingKind payload.length 4) := by
  by_cases hlen : payload.length = 4
  · rw [if_pos hlen]
    obtain ⟨a, b, c, d, rest, rfl⟩ := exists_word (Nat.le_of_eq hlen.symm)
    simp only [List.length_cons, Nat.reduceEqDiff, List.length_eq_zero_iff] at hlen
    subst hlen
    rw [Frame.ofPing, word32_eq]
    rfl
  · rw [if_neg hlen]
    unfold Frame.ofPing
    split
    · exact absurd rfl hlen
    · rfl

theorem ofWindowUpdate_eq (payload : Bytes) :
    Frame.ofWindowUpdate payload =
      if payload.length = 8 then .ok (.windowUpdate (word31At payload 0) (word31At payload 4))
      else .error (.payloadLength Frame.windowUpdateKind payload.length 8) := by
  by_cases hlen : payload.length = 8
  · rw [if_pos hlen]
    obtain ⟨a, b, c, d, rest, rfl⟩ := exists_word (by omega : 4 ≤ payload.length)
    simp only [List.length_cons, Nat.reduceEqDiff] at hlen
    obtain ⟨e, f, g, h, rest, rfl⟩ := exists_word (Nat.le_of_eq hlen.symm)
    simp only [List.length_cons, Nat.reduceEqDiff, List.length_eq_zero_iff] at hlen
    subst hlen
    rw [Frame.ofWindowUpdate, low31_word32, low31_word32]
    rfl
  · rw [if_neg hlen]
    unfold Frame.ofWindowUpdate
    split
    · exact absurd rfl hlen
    · rfl

theorem ofGoAway_eq (version : Version) (payload : Bytes) :
    Frame.ofGoAway version payload =
      if payload.length = goAwaySize version then
        .ok (.goAway (word31At payload 0) (goAwayStatus version payload))
      else .error (.payloadLength Frame.goAwayKind payload.length (goAwaySize version)) := by
  by_cases hlen : payload.length = goAwaySize version
  · rw [if_pos hlen]
    cases version with
    | v2 =>
        obtain ⟨a, b, c, d, rest, rfl⟩ := exists_word (Nat.le_of_eq hlen.symm)
        simp only [List.length_cons, goAwaySize, Nat.reduceEqDiff, List.length_eq_zero_iff] at hlen
        subst hlen
        rw [Frame.ofGoAway, low31_word32]
        rfl
    | v3 =>
        have hsize : payload.length = 8 := hlen
        obtain ⟨a, b, c, d, rest, rfl⟩ := exists_word (by omega : 4 ≤ payload.length)
        simp only [List.length_cons, Nat.reduceEqDiff] at hsize
        obtain ⟨e, f, g, h, rest, rfl⟩ := exists_word (Nat.le_of_eq hsize.symm)
        simp only [List.length_cons, Nat.reduceEqDiff, List.length_eq_zero_iff] at hsize
        subst hsize
        rw [Frame.ofGoAway, low31_word32, word32_eq]
        rfl
  · rw [if_neg hlen]
    unfold Frame.ofGoAway
    split
    · exact absurd rfl hlen
    · rfl
    · exact absurd rfl hlen
    · rfl

theorem splitHeaders_eq (version : Version) (kind : UInt16) (payload : Bytes) :
    Frame.splitHeaders version kind payload =
      if blockPlace version ≤ payload.length then
        .ok (word31At payload 0, payload.drop (blockPlace version))
      else .error (.tooShort kind payload.length) := by
  by_cases hlen : blockPlace version ≤ payload.length
  · rw [if_pos hlen]
    cases version with
    | v2 =>
        have hsize : 6 ≤ payload.length := hlen
        obtain ⟨a, b, c, d, rest, rfl⟩ := exists_word (by omega : 4 ≤ payload.length)
        match rest, hsize with
        | p :: q :: block, _ =>
            rw [Frame.splitHeaders, low31_word32]
            rfl
    | v3 =>
        obtain ⟨a, b, c, d, block, rfl⟩ := exists_word hlen
        rw [Frame.splitHeaders, low31_word32]
        rfl
  · rw [if_neg hlen]
    unfold Frame.splitHeaders
    split
    · simp only [blockPlace, List.length_cons] at hlen
      omega
    · simp only [blockPlace, List.length_cons] at hlen
      omega
    · rfl

/-- Whole entries are read one after the other, eight bytes each. -/
theorem ofBytes_eq (version : Version) (count : Nat) (entries : Bytes)
    (hlen : entries.length = 8 * count) :
    Setting.ofBytes version entries =
      (List.range count).map fun i => settingAt version entries (8 * i) := by
  induction count generalizing entries with
  | zero =>
      rw [List.length_eq_zero_iff.mp hlen]
      rfl
  | succ count ih =>
      obtain ⟨e0, e1, e2, e3, rest, rfl⟩ := exists_word (by omega : 4 ≤ entries.length)
      simp only [List.length_cons] at hlen
      obtain ⟨v0, v1, v2, v3, rest, rfl⟩ := exists_word (by omega : 4 ≤ rest.length)
      simp only [List.length_cons] at hlen
      have htail : ∀ i, settingAt version rest (8 * i) =
          settingAt version (e0 :: e1 :: e2 :: e3 :: v0 :: v1 :: v2 :: v3 :: rest) (8 * (i + 1)) := by
        intro i
        rw [Nat.mul_add, Nat.add_comm (8 * i)]
        exact settingAt_drop version (e0 :: e1 :: e2 :: e3 :: v0 :: v1 :: v2 :: v3 :: rest) 8 (8 * i)
      have hsplit : Setting.ofBytes version (e0 :: e1 :: e2 :: e3 :: v0 :: v1 :: v2 :: v3 :: rest) =
          settingAt version (e0 :: e1 :: e2 :: e3 :: v0 :: v1 :: v2 :: v3 :: rest) 0 ::
            Setting.ofBytes version rest := by
        cases version with
        | v2 =>
            have hentry : settingAt .v2 (e0 :: e1 :: e2 :: e3 :: v0 :: v1 :: v2 :: v3 :: rest) 0 =
                ⟨UInt32.ofNat (number [e2, e1, e0]), UInt8.ofNat (number [e3]),
                  UInt32.ofNat (number [v0, v1, v2, v3])⟩ := rfl
            rw [hentry, ofNat_number_one, Setting.ofBytes, word32_eq, word24_eq]
        | v3 =>
            have hentry : settingAt .v3 (e0 :: e1 :: e2 :: e3 :: v0 :: v1 :: v2 :: v3 :: rest) 0 =
                ⟨UInt32.ofNat (number [e1, e2, e3]), UInt8.ofNat (number [e0]),
                  UInt32.ofNat (number [v0, v1, v2, v3])⟩ := rfl
            rw [hentry, ofNat_number_one, Setting.ofBytes, word32_eq, word24_eq]
      rw [hsplit, ih rest (by omega), List.range_succ_eq_map, List.map_cons, List.map_map]
      exact congrArg (List.cons _) (List.map_congr_left fun i _ => htail i)

theorem ofSettings_eq (version : Version) (flags : UInt8) (payload : Bytes) :
    Frame.ofSettings version flags payload =
      if payload.length < 4 then .error .entryCountMissing
      else if payload.length = 4 + 8 * field payload 0 4 then
        .ok (.settings (flags.toNat % 2 == 1)
          ((List.range (field payload 0 4)).map fun i => settingAt version payload (4 + 8 * i)))
      else .error (.entryCount payload.length (field payload 0 4)) := by
  by_cases hshort : payload.length < 4
  · rw [if_pos hshort]
    unfold Frame.ofSettings
    split
    · simp only [List.length_cons] at hshort
      omega
    · rfl
  · rw [if_neg hshort]
    obtain ⟨c0, c1, c2, c3, entries, rfl⟩ := exists_word (by omega : 4 ≤ payload.length)
    have hcount : (Bytes.word32 c0 c1 c2 c3).toNat =
        field (c0 :: c1 :: c2 :: c3 :: entries) 0 4 := toNat_word32 c0 c1 c2 c3
    have hentries : ∀ i, settingAt version entries i =
        settingAt version (c0 :: c1 :: c2 :: c3 :: entries) (4 + i) :=
      settingAt_drop version (c0 :: c1 :: c2 :: c3 :: entries) 4
    simp only [Frame.ofSettings, hcount, List.length_cons]
    generalize field (c0 :: c1 :: c2 :: c3 :: entries) 0 4 = count at hcount ⊢
    by_cases hlen : entries.length = count * 8
    · rw [if_pos hlen, if_pos (by omega), ofBytes_eq version count entries (by omega)]
      simp only [hentries]
    · rw [if_neg hlen, if_neg (by omega)]

end SpdySessions
