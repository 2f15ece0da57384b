import SpdySessions.Wire.FrameReader

/-! Reading a stream piece by piece. What is cut off the front of a stream does not depend on what
comes behind it, so reading may stop anywhere and go on from the bytes left over: a scan of two
pieces is the scan of the first, and unless that failed the scan of its rest with the second. -/

namespace SpdySessions.FrameReader

variable {codec : HeaderCodec}

/-- The cut, read as a statement about the bytes: eight of a header, a payload of the length that the
last three of them give, and the rest. -/
theorem cut?_eq_some_iff {bytes payload rest : Bytes} {header : FrameHeader} :
    cut? bytes = some (header, payload, rest) ↔
      ∃ l0 l1 l2, (Bytes.word24 l0 l1 l2).toNat = payload.length ∧
        bytes = [header.b0, header.b1, header.b2, header.b3, header.flags, l0, l1, l2] ++
          (payload ++ rest) := by
  constructor
  · intro h
    unfold cut? at h
    split at h
    · rename_i b0 b1 b2 b3 flags l0 l1 l2 body
      simp only [Bytes.atLeast_iff, Option.ite_none_right_eq_some, Option.some.injEq,
        Prod.mk.injEq] at h
      obtain ⟨hlen, rfl, rfl, rfl⟩ := h
      exact ⟨l0, l1, l2, by rw [List.length_take, Nat.min_eq_left hlen],
        by simp only [List.take_append_drop, List.cons_append, List.nil_append]⟩
    · cases h
  · rintro ⟨l0, l1, l2, hlen, rfl⟩
    have hroom : (Bytes.word24 l0 l1 l2).toNat ≤ (payload ++ rest).length := by
      rw [hlen, List.length_append]
      exact Nat.le_add_right _ _
    simp only [List.cons_append, List.nil_append, cut?]
    rw [if_pos ((Bytes.atLeast_iff _ _).mpr hroom), hlen, List.take_left, List.drop_left]

/-- A frame that is complete stays so, whatever comes behind it. -/
theorem cut?_append {bytes payload rest : Bytes} {header : FrameHeader}
    (h : cut? bytes = some (header, payload, rest)) (more : Bytes) :
    cut? (bytes ++ more) = some (header, payload, rest ++ more) := by
  obtain ⟨l0, l1, l2, hlen, rfl⟩ := cut?_eq_some_iff.mp h
  exact cut?_eq_some_iff.mpr ⟨l0, l1, l2, hlen, by simp only [List.append_assoc]⟩

theorem length_rest_lt {bytes payload rest : Bytes} {header : FrameHeader}
    (h : cut? bytes = some (header, payload, rest)) : rest.length < bytes.length := by
  have := length_of_cut? h
  simp only [Frame.headerSize] at this
  omega

/-! ### One frame of a scan -/

/-- The scan, without the bound that ends it. -/
theorem scan_eq (d : codec.Decompressor) (bytes : Bytes) :
    scan d bytes =
      match cut? bytes with
      | none => ⟨[], bytes, d, none⟩
      | some (header, payload, rest) =>
          match Delivery.ofFrame d header payload with
          | (.error fault, next) => ⟨[], [], next, some fault⟩
          | (.ok delivery, next) =>
              { scan next rest with deliveries := delivery :: (scan next rest).deliveries } := by
  rw [scan]
  split
  · rename_i hcut
    simp only [hcut]
  · rename_i header payload rest hcut
    rcases hframe : Delivery.ofFrame d header payload with ⟨fault | x, next⟩
    · simp only [hcut, hframe]
    · simp only [hcut, hframe]

theorem scan_of_incomplete (d : codec.Decompressor) {bytes : Bytes} (h : cut? bytes = none) :
    scan d bytes = ⟨[], bytes, d, none⟩ := by
  rw [scan_eq, h]

theorem scan_of_fault {d next : codec.Decompressor} {bytes payload rest : Bytes}
    {header : FrameHeader} {fault : Fault} (h : cut? bytes = some (header, payload, rest))
    (hframe : Delivery.ofFrame d header payload = (.error fault, next)) :
    scan d bytes = ⟨[], [], next, some fault⟩ := by
  rw [scan_eq, h]
  simp only [hframe]

theorem scan_of_delivery {d next : codec.Decompressor} {bytes payload rest : Bytes}
    {header : FrameHeader} {delivery : Delivery} (h : cut? bytes = some (header, payload, rest))
    (hframe : Delivery.ofFrame d header payload = (.ok delivery, next)) :
    scan d bytes =
      { scan next rest with deliveries := delivery :: (scan next rest).deliveries } := by
  rw [scan_eq, h]
  simp only [hframe]

/-- A scan of one frame and what is less than another one. -/
theorem scan_of_single {d next : codec.Decompressor} {bytes payload rest : Bytes}
    {header : FrameHeader} {delivery : Delivery} (h : cut? bytes = some (header, payload, rest))
    (hframe : Delivery.ofFrame d header payload = (.ok delivery, next)) (hrest : cut? rest = none) :
    scan d bytes = ⟨[delivery], rest, next, none⟩ := by
  rw [scan_of_delivery h hframe, scan_of_incomplete next hrest]

/-- The frames of a stream, one after the other: a fact about every scan holds if it holds where
nothing complete is in front, where the frame in front is malformed, and where it is delivered and
the fact holds of the scan of what is behind it. -/
theorem scan_induction {motive : codec.Decompressor → Bytes → Prop}
    (incomplete : ∀ d bytes, cut? bytes = none → motive d bytes)
    (fault : ∀ d bytes header payload rest cause next,
      cut? bytes = some (header, payload, rest) →
      Delivery.ofFrame d header payload = (.error cause, next) → motive d bytes)
    (delivery : ∀ d bytes header payload rest x next,
      cut? bytes = some (header, payload, rest) →
      Delivery.ofFrame d header payload = (.ok x, next) → motive next rest → motive d bytes)
    (d : codec.Decompressor) (bytes : Bytes) : motive d bytes := by
  cases hcut : cut? bytes with
  | none => exact incomplete d bytes hcut
  | some cut =>
      obtain ⟨header, payload, rest⟩ := cut
      match hframe : Delivery.ofFrame d header payload with
      | (.error cause, next) => exact fault d bytes header payload rest cause next hcut hframe
      | (.ok x, next) =>
          have := length_rest_lt hcut
          exact delivery d bytes header payload rest x next hcut hframe
            (scan_induction incomplete fault delivery next rest)
  termination_by bytes.length

/-! ### Scans of two pieces -/

/-- A scan leaves nothing complete behind. -/
theorem cut?_rest (d : codec.Decompressor) (bytes : Bytes) : cut? (scan d bytes).rest = none := by
  induction d, bytes using scan_induction with
  | incomplete d bytes h =>
      rw [scan_of_incomplete d h]
      exact h
  | fault d bytes header payload rest cause next h hframe =>
      rw [scan_of_fault h hframe]
      rfl
  | delivery d bytes header payload rest x next h hframe ih =>
      rw [scan_of_delivery h hframe]
      exact ih

/-- A scan that fails leaves nothing at all. -/
theorem rest_of_fault {d : codec.Decompressor} {bytes : Bytes} {cause : Fault}
    (hfault : (scan d bytes).fault = some cause) : (scan d bytes).rest = [] := by
  induction d, bytes using scan_induction with
  | incomplete d bytes h =>
      rw [scan_of_incomplete d h] at hfault
      cases hfault
  | fault d bytes header payload rest cause next h hframe => rw [scan_of_fault h hframe]
  | delivery d bytes header payload rest x next h hframe ih =>
      rw [scan_of_delivery h hframe] at hfault ⊢
      exact ih hfault

/-- What comes behind a malformed frame is not looked at. -/
theorem scan_append_of_fault {d : codec.Decompressor} {bytes : Bytes} {cause : Fault}
    (hfault : (scan d bytes).fault = some cause) (more : Bytes) :
    scan d (bytes ++ more) = scan d bytes := by
  induction d, bytes using scan_induction with
  | incomplete d bytes h =>
      rw [scan_of_incomplete d h] at hfault
      cases hfault
  | fault d bytes header payload rest cause next h hframe =>
      rw [scan_of_fault h hframe, scan_of_fault (cut?_append h more) hframe]
  | delivery d bytes header payload rest x next h hframe ih =>
      rw [scan_of_delivery h hframe] at hfault ⊢
      rw [scan_of_delivery (cut?_append h more) hframe, ih hfault]

/-- **Reading may stop anywhere.** After a scan without a fault, reading on from what it left is
reading the whole. -/
theorem scan_append {d : codec.Decompressor} {bytes : Bytes} (hfault : (scan d bytes).fault = none)
    (more : Bytes) :
    scan d (bytes ++ more) =
      let first := scan d bytes
      let second := scan first.decompressor (first.rest ++ more)
      { second with deliveries := first.deliveries ++ second.deliveries } := by
  induction d, bytes using scan_induction with
  | incomplete d bytes h =>
      rw [scan_of_incomplete d h]
      rfl
  | fault d bytes header payload rest cause next h hframe =>
      rw [scan_of_fault h hframe] at hfault
      cases hfault
  | delivery d bytes header payload rest x next h hframe ih =>
      rw [scan_of_delivery h hframe] at hfault ⊢
      rw [scan_of_delivery (cut?_append h more) hframe, ih hfault]
      rfl

end SpdySessions.FrameReader
