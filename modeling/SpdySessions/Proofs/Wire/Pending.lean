import Mathlib.Algebra.Group.Nat.Defs
import Mathlib.Data.List.Induction
import SpdySessions.Proofs.Wire.Acceptance

/-! What is pending. A reader that has not failed has lost nothing and read nothing twice: what it
delivered and what it keeps are the bytes it was given. What it keeps is less than one frame, so its
size is bounded, whatever came before, and wherever a stream is stopped, the frames that have been
delivered are those that end before that place. -/

namespace SpdySessions

/-! ### Fields and what is behind them -/

theorem field_append {bytes : Bytes} {place width : Nat} (h : place + width ≤ bytes.length)
    (more : Bytes) : field (bytes ++ more) place width = field bytes place width := by
  have hroom : width ≤ (bytes.drop place).length := by
    rw [List.length_drop]
    omega
  rw [field, field, List.drop_append_of_le_length (by omega), List.take_append_of_le_length hroom]

theorem number_concat (bytes : Bytes) (b : UInt8) :
    number (bytes ++ [b]) = number bytes * 0x100 + b.toNat := by
  simp only [number, List.foldl_append, List.foldl_cons, List.foldl_nil]

theorem number_lt (bytes : Bytes) : number bytes < 0x100 ^ bytes.length := by
  induction bytes using List.reverseRecOn with
  | nil => decide
  | append_singleton bytes b ih =>
      have hb := b.toNat_lt
      rw [number_concat, List.length_append, List.length_singleton, Nat.pow_succ]
      omega

theorem field_lt (bytes : Bytes) (place width : Nat) : field bytes place width < 0x100 ^ width := by
  have hwidth : ((bytes.drop place).take width).length ≤ width := List.length_take_le _ _
  calc field bytes place width < 0x100 ^ ((bytes.drop place).take width).length := number_lt _
    _ ≤ 0x100 ^ width := Nat.pow_le_pow_right (by decide) hwidth

namespace Grammar

open FrameReader (cut?)

/-- Less than a frame: the header is not all there, or less follows it than it says. -/
def Incomplete (bytes : Bytes) : Prop :=
  bytes.length < Frame.headerSize ∨ bytes.length < Frame.headerSize + field bytes 5 3

theorem incomplete_iff {bytes : Bytes} : Incomplete bytes ↔ cut? bytes = none := by
  rw [cut?_eq_none_iff, Incomplete, Frame.headerSize]
  constructor
  · rintro h w more hw rfl
    have hlength : w.length = 8 + field w 5 3 := hw
    rw [field_append (by omega), List.length_append] at h
    omega
  · intro h
    by_contra hroom
    have hlength : 8 ≤ (bytes.take (8 + field bytes 5 3)).length := by
      rw [List.length_take]
      omega
    have hfield : field (bytes.take (8 + field bytes 5 3)) 5 3 = field bytes 5 3 := by
      rw [← field_append hlength (bytes.drop (8 + field bytes 5 3)), List.take_append_drop]
    have hframe : IsFrame (bytes.take (8 + field bytes 5 3)) := by
      rw [IsFrame, hfield, List.length_take, Frame.headerSize]
      omega
    exact h _ (bytes.drop (8 + field bytes 5 3)) hframe (List.take_append_drop _ _).symm

theorem Incomplete.length_le {bytes : Bytes} (h : Incomplete bytes) : bytes.length ≤ 16777222 := by
  have hfield := field_lt bytes 5 3
  rw [Incomplete, Frame.headerSize] at h
  omega

/-! ### Cuts of a stream that is stopped -/

/-- Where a frame of a stream ends. -/
def endOf (frames : List Bytes) (i : Nat) : Nat :=
  (frames.take (i + 1)).flatten.length

theorem length_flatten_take_le (frames : List Bytes) {m n : Nat} (h : m ≤ n) :
    (frames.take m).flatten.length ≤ (frames.take n).flatten.length := by
  have hprefix : frames.take m <+: frames.take n := List.take_prefix_take_left h
  obtain ⟨more, hmore⟩ := hprefix
  rw [← hmore, List.flatten_append, List.length_append]
  exact Nat.le_add_right _ _

/-- The front of a stream is cut where the stream is: the frames in it are the first ones, those that
end in it. -/
theorem Cut.front {front back rest : Bytes} {frames : List Bytes}
    (h : Cut (front ++ back) frames rest) :
    ∃ n rest', n ≤ frames.length ∧ Cut front (frames.take n) rest' ∧
      ∀ i < frames.length, i < n ↔ endOf frames i ≤ front.length := by
  obtain ⟨early, rest', hfront⟩ := exists_cut front
  obtain ⟨late, last, hback⟩ := exists_cut (rest' ++ back)
  have hwhole : Cut (front ++ back) (early ++ late) last := by
    refine ⟨?_, List.forall_mem_append.mpr ⟨hfront.complete, hback.complete⟩, hback.incomplete⟩
    rw [hfront.joined, List.append_assoc, hback.joined, List.flatten_append, List.append_assoc]
  obtain ⟨rfl, rfl⟩ := h.unique hwhole
  refine ⟨early.length, rest', by simp, by simpa using hfront, fun i hi => ⟨fun hlt => ?_, fun hend => ?_⟩⟩
  · calc endOf (early ++ late) i ≤ ((early ++ late).take early.length).flatten.length :=
          length_flatten_take_le _ hlt
      _ = early.flatten.length := by rw [List.take_left]
      _ ≤ front.length := by rw [hfront.joined, List.length_append]; exact Nat.le_add_right _ _
  · -- A frame behind `early` that ended in the front would stand at the start of what is left of it.
    by_contra hle
    match late, hback, hi with
    | [], _, hi => simp at hi; omega
    | w :: late, hback, _ =>
        have hw : IsFrame w := hback.complete w List.mem_cons_self
        have htake : (early ++ w :: late).take (early.length + 1) = early ++ [w] :=
          List.take_length_add_append 1
        have hlength : early.flatten.length + w.length ≤ front.length := by
          calc early.flatten.length + w.length
              = ((early ++ w :: late).take (early.length + 1)).flatten.length := by
                rw [htake, List.flatten_append, List.length_append, List.flatten_singleton]
            _ ≤ endOf (early ++ w :: late) i := length_flatten_take_le _ (by omega)
            _ ≤ front.length := hend
        have hroom : w.length ≤ rest'.length := by
          rw [hfront.joined, List.length_append] at hlength
          omega
        have hstart : w <+: rest' ++ back := by
          rw [hback.joined, List.flatten_cons, List.append_assoc]
          exact List.prefix_append _ _
        obtain ⟨more, hmore⟩ := List.prefix_of_prefix_length_le hstart (List.prefix_append _ _) hroom
        exact hfront.incomplete w more hw hmore.symm

section

variable {codec : HeaderCodec}

theorem ReadsAll.take {d next : codec.Decompressor} {frames : List Bytes} {xs : List Delivery}
    (h : ReadsAll d frames xs next) (n : Nat) :
    ∃ mid, ReadsAll d (frames.take n) (xs.take n) mid := by
  induction h generalizing n with
  | nil d => exact ⟨d, by simpa using .nil d⟩
  | @cons d mid next w x frames xs hw hrest ih =>
      cases n with
      | zero => exact ⟨d, .nil d⟩
      | succ n =>
          obtain ⟨last, hlast⟩ := ih n
          exact ⟨last, .cons hw hlast⟩

end

end Grammar

namespace FrameReader

open Grammar

variable {codec : HeaderCodec} {r next : FrameReader codec}

/-- What may be pending is anything that is less than a frame. -/
theorem exists_reachable_pending_iff {bytes : Bytes} :
    (∃ r : FrameReader codec, Reachable r ∧ r.pending = bytes) ↔ Incomplete bytes := by
  constructor
  · rintro ⟨r, hr, rfl⟩
    exact incomplete_iff.mpr hr.settled
  · intro h
    refine ⟨((fresh codec).feed bytes).2.2, .feed .fresh bytes, ?_⟩
    simp only [feed, fresh, List.nil_append, scan_of_incomplete _ (incomplete_iff.mp h)]

/-- A parse that answered has read every complete frame and keeps the rest. -/
theorem readsAll_of_parse {listeners count : Nat} {data : Bytes} {log : List (Nat × Delivery)}
    (h : r.parse listeners data = (.ok count, log, next)) :
    ∃ frames xs, Cut (r.pending ++ data) frames next.pending ∧
      ReadsAll r.decompressor frames xs next.decompressor ∧ count = frames.length ∧
      log = fanOut listeners xs := by
  obtain ⟨frames, rest, hcut⟩ := exists_cut (r.pending ++ data)
  cases hfault : (r.feed data).2.1 with
  | some fault =>
      rw [parse_of_fault hfault] at h
      cases h
  | none =>
      rw [parse_of_none hfault] at h
      cases h
      have hscan : scan r.decompressor (r.pending ++ data) =
          ⟨(r.feed data).1, (r.feed data).2.2.pending, (r.feed data).2.2.decompressor, none⟩ := by
        rw [← hfault]
        rfl
      obtain ⟨hall, hrest⟩ := (hcut.scan_eq_iff _ _ _).mp hscan
      exact ⟨frames, _, hrest ▸ hcut, hall, hall.length_eq, rfl⟩

/-- **Nothing is lost and nothing is read twice.** A reader never holds more than 16777222 bytes,
whatever it was fed and however that ended. A call that answers a count has told its listeners, once
each and in order, what as many complete frames say; these frames and what is pending then, which is
less than a frame, are the bytes that were pending and the new ones. So of a stream that is read without
a fault, at every place `k`, in whatever chunks the reader came there: the frames that were delivered
are those that end at `k` or before it, and what stands between the last of them and `k` is pending. -/
theorem nothing_lost_or_repeated (h : Reachable r) (listeners : Nat) :
    r.pending.length ≤ 16777222 ∧
    (∀ data count log next, r.parse listeners data = (.ok count, log, next) →
      ∃ frames xs, r.pending ++ data = frames.flatten ++ next.pending ∧
        (∀ w ∈ frames, w.length = 8 + field w 5 3) ∧
        (next.pending.length < 8 ∨ next.pending.length < 8 + field next.pending 5 3) ∧
        ReadsAll r.decompressor frames xs next.decompressor ∧ count = frames.length ∧
        log = xs.flatMap fun x => (List.range listeners).map fun i => (i, x)) ∧
    (∀ chunks total log next, r.parseAll listeners chunks = (.ok total, log, next) →
      ∃ frames xs, r.pending ++ chunks.flatten = frames.flatten ++ next.pending ∧
        (∀ w ∈ frames, w.length = 8 + field w 5 3) ∧
        ReadsAll r.decompressor frames xs next.decompressor ∧ total = frames.length ∧
        ∀ early k, k ≤ (r.pending ++ chunks.flatten).length →
          r.pending ++ early.flatten = (r.pending ++ chunks.flatten).take k →
          ∃ n mid, (∀ i < frames.length, i < n ↔ endOf frames i ≤ k) ∧
            r.parseAll listeners early =
              (.ok n, (xs.take n).flatMap fun x => (List.range listeners).map fun i => (i, x),
                ⟨mid, ((r.pending ++ chunks.flatten).take k).drop (frames.take n).flatten.length⟩)) := by
  refine ⟨(exists_reachable_pending_iff.mp ⟨r, h, rfl⟩).length_le, fun data count log next hparse => ?_,
    fun chunks total log next hparse => ?_⟩
  · obtain ⟨frames, xs, hcut, hall, hcount, hlog⟩ := readsAll_of_parse hparse
    exact ⟨frames, xs, hcut.joined, hcut.complete, incomplete_iff.mpr hcut.cut?_rest, hall, hcount, hlog⟩
  · rw [h.settled.parseAll_eq] at hparse
    obtain ⟨frames, xs, hcut, hall, hcount, -⟩ := readsAll_of_parse hparse
    refine ⟨frames, xs, hcut.joined, hcut.complete, hall, hcount, fun early k hk hearly => ?_⟩
    have hsplit := List.take_append_drop k (r.pending ++ chunks.flatten)
    rw [← hsplit] at hcut
    obtain ⟨n, rest, hn, hfront, hends⟩ := hcut.front
    obtain ⟨mid, hread⟩ := hall.take n
    refine ⟨n, mid, fun i hi => ?_, ?_⟩
    · rw [hends i hi, List.length_take, Nat.min_eq_left hk]
    · have hscan := hread.scan_eq hfront.complete hfront.cut?_rest
      rw [← hfront.joined, ← hearly] at hscan
      have hpending : ((r.pending ++ chunks.flatten).take k).drop (frames.take n).flatten.length =
          rest := by
        rw [hfront.joined, List.drop_left]
      have hlength : (xs.take n).length = n := by
        rw [List.length_take, hall.length_eq, Nat.min_eq_left hn]
      rw [h.settled.parseAll_eq, parse_of_scan listeners hscan, hpending, hlength]
      rfl

/-- A reader that holds the first bytes of a header frame. -/
def waiting : FrameReader .rolling :=
  ((fresh .rolling).feed [0x80, 3, 0]).2.2

theorem waiting_eq : waiting = ⟨(0 : UInt8), [0x80, 3, 0]⟩ := by
  simp only [waiting, feed, fresh, List.nil_append,
    scan_of_incomplete _ (show cut? [0x80, 3, 0] = none from rfl)]
  rfl

/-- The rest of the frame comes in pieces, with three bytes of another one. Had the stream been stopped
one byte before the end of the frame, all that had come would be pending. -/
theorem waiting_lost_nothing :
    Reachable waiting ∧
      waiting.parseAll 1 [[8, 0], [], [0, 0, 5, 0, 0, 0, 1, 65, 0, 0, 0]] =
        (.ok 1, [(0, ⟨some .v3, .headers 1 [65]⟩)], ⟨(1 : UInt8), [0, 0, 0]⟩) ∧
      ∃ mid, waiting.parseAll 1 [[8, 0, 0], [0, 5, 0, 0, 0, 1]] =
        (.ok 0, [], ⟨mid, [0x80, 3, 0, 8, 0, 0, 0, 5, 0, 0, 0, 1]⟩) := by
  have hreachable : Reachable waiting := .feed .fresh _
  have hcut : cut? [0x80, 3, 0, 8, 0, 0, 0, 5, 0, 0, 0, 1, 65, 0, 0, 0] =
    some (⟨0x80, 3, 0, 8, 0⟩, [0, 0, 0, 1, 65], [0, 0, 0]) := rfl
  have hscan : scan waiting.decompressor
      (waiting.pending ++ [8, 0, 0, 0, 5, 0, 0, 0, 1, 65, 0, 0, 0]) =
      ⟨[⟨some .v3, .headers 1 [65]⟩], [0, 0, 0], (1 : UInt8), none⟩ := by
    rw [waiting_eq]
    exact scan_of_single hcut rfl rfl
  have hparse : waiting.parseAll 1 [[8, 0], [], [0, 0, 5, 0, 0, 0, 1, 65, 0, 0, 0]] =
      (.ok 1, [(0, ⟨some .v3, .headers 1 [65]⟩)], ⟨(1 : UInt8), [0, 0, 0]⟩) := by
    rw [hreachable.settled.parseAll_eq]
    exact parse_of_scan 1 hscan
  obtain ⟨-, -, hrun⟩ := nothing_lost_or_repeated hreachable 1
  obtain ⟨frames, xs, hjoined, -, -, htotal, hstop⟩ := hrun _ _ _ _ hparse
  obtain ⟨n, mid, hends, hearly⟩ := hstop [[8, 0, 0], [0, 5, 0, 0, 0, 1]] 12
    (by rw [waiting_eq]; decide) (by rw [waiting_eq]; rfl)
  obtain ⟨w, rfl⟩ := List.length_eq_one_iff.mp htotal.symm
  have hlength : endOf [w] 0 = 13 := by
    have hsum := congrArg List.length hjoined
    rw [waiting_eq, List.length_append, List.length_append] at hsum
    have hflat : [w].flatten.length + 3 = 16 := hsum.symm
    exact Nat.add_right_cancel hflat
  have hn : n = 0 := by
    have hfirst := hends 0 (by simp)
    omega
  subst hn
  refine ⟨hreachable, hparse, mid, ?_⟩
  rw [waiting_eq] at hearly ⊢
  exact hearly

end FrameReader

end SpdySessions
