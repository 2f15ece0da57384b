import SpdySessions.Proofs.Wire.Stream

/-! Chunks do not matter. A reader that is given a stream in pieces, until a fault or the end, gives
the same answer, tells its listeners the same and ends in the same state as one that is given the
whole stream at once. The decompressor is any state machine; the induction is on the chunks and is
carried by one property of readers: nothing complete is pending. -/

namespace SpdySessions.FrameReader

variable {codec : HeaderCodec}

/-- The readers that come about by feeding. -/
inductive Reachable : FrameReader codec → Prop
  | fresh : Reachable (fresh codec)
  | feed {r : FrameReader codec} (h : Reachable r) (bytes : Bytes) : Reachable (r.feed bytes).2.2

/-- Feeds chunk after chunk until one fails. The answers are added up. -/
def parseAll (listeners : Nat) (r : FrameReader codec) :
    List Bytes → Except Fault Nat × List (Nat × Delivery) × FrameReader codec
  | [] => (.ok 0, [], r)
  | chunk :: chunks =>
      match r.parse listeners chunk with
      | (.error fault, log, r) => (.error fault, log, r)
      | (.ok count, log, r) =>
          let (total, later, r) := parseAll listeners r chunks
          (total.map (count + ·), log ++ later, r)

/-- No complete frame is pending. -/
def Settled (r : FrameReader codec) : Prop :=
  cut? r.pending = none

theorem settled_feed (r : FrameReader codec) (bytes : Bytes) : (r.feed bytes).2.2.Settled :=
  cut?_rest r.decompressor (r.pending ++ bytes)

theorem Reachable.settled {r : FrameReader codec} (h : Reachable r) : r.Settled := by
  cases h with
  | fresh => rfl
  | feed h bytes => exact settled_feed _ bytes

/-! ### Feeding twice -/

theorem feed_nil {r : FrameReader codec} (h : r.Settled) : r.feed [] = ([], none, r) := by
  rw [feed, List.append_nil, scan_of_incomplete r.decompressor h]

theorem feed_append_of_fault {r : FrameReader codec} {bytes : Bytes} {fault : Fault}
    (h : (r.feed bytes).2.1 = some fault) (more : Bytes) : r.feed (bytes ++ more) = r.feed bytes := by
  have hscan : (scan r.decompressor (r.pending ++ bytes)).fault = some fault := h
  rw [feed, feed, ← List.append_assoc, scan_append_of_fault hscan more]

theorem feed_append {r : FrameReader codec} {bytes : Bytes} (h : (r.feed bytes).2.1 = none)
    (more : Bytes) :
    r.feed (bytes ++ more) =
      let first := r.feed bytes
      let second := first.2.2.feed more
      (first.1 ++ second.1, second.2) := by
  have hscan : (scan r.decompressor (r.pending ++ bytes)).fault = none := h
  simp only [feed]
  rw [← List.append_assoc, scan_append hscan more]

theorem pending_of_fault {r : FrameReader codec} {bytes : Bytes} {fault : Fault}
    (h : (r.feed bytes).2.1 = some fault) : (r.feed bytes).2.2.pending = [] := by
  have hscan : (scan r.decompressor (r.pending ++ bytes)).fault = some fault := h
  exact rest_of_fault hscan

/-! ### What callers and listeners see -/

theorem fanOut_append (listeners : Nat) (first second : List Delivery) :
    fanOut listeners (first ++ second) = fanOut listeners first ++ fanOut listeners second :=
  List.flatMap_append

theorem parse_of_fault {r : FrameReader codec} {bytes : Bytes} {fault : Fault}
    (h : (r.feed bytes).2.1 = some fault) (listeners : Nat) :
    r.parse listeners bytes =
      (.error fault, fanOut listeners (r.feed bytes).1, (r.feed bytes).2.2) := by
  simp only [parse, h]

theorem parse_of_none {r : FrameReader codec} {bytes : Bytes} (h : (r.feed bytes).2.1 = none)
    (listeners : Nat) :
    r.parse listeners bytes =
      (.ok (r.feed bytes).1.length, fanOut listeners (r.feed bytes).1, (r.feed bytes).2.2) := by
  simp only [parse, h]

theorem parse_of_scan {r : FrameReader codec} {bytes rest : Bytes} {xs : List Delivery}
    {next : codec.Decompressor} (listeners : Nat)
    (h : scan r.decompressor (r.pending ++ bytes) = ⟨xs, rest, next, none⟩) :
    r.parse listeners bytes = (.ok xs.length, fanOut listeners xs, ⟨next, rest⟩) := by
  simp only [parse, feed, h]

theorem parse_of_scan_of_fault {r : FrameReader codec} {bytes rest : Bytes} {xs : List Delivery}
    {next : codec.Decompressor} {fault : Fault} (listeners : Nat)
    (h : scan r.decompressor (r.pending ++ bytes) = ⟨xs, rest, next, some fault⟩) :
    r.parse listeners bytes = (.error fault, fanOut listeners xs, ⟨next, rest⟩) := by
  simp only [parse, feed, h]

/-- After a fault nothing is pending. -/
theorem pending_parse_of_error {r : FrameReader codec} {listeners : Nat} {bytes : Bytes}
    {fault : Fault} (h : (r.parse listeners bytes).1 = .error fault) :
    (r.parse listeners bytes).2.2.pending = [] := by
  cases hfault : (r.feed bytes).2.1 with
  | none =>
      rw [parse_of_none hfault] at h
      cases h
  | some cause =>
      rw [parse_of_fault hfault]
      exact pending_of_fault hfault

/-- Parsing two pieces, the first of which does not fail, is parsing both at once. -/
theorem parse_append {r : FrameReader codec} {listeners : Nat} {bytes : Bytes}
    (h : (r.feed bytes).2.1 = none) (more : Bytes) :
    r.parse listeners (bytes ++ more) =
      let second := (r.feed bytes).2.2.parse listeners more
      (second.1.map ((r.feed bytes).1.length + ·),
        fanOut listeners (r.feed bytes).1 ++ second.2.1, second.2.2) := by
  simp only [parse, feed_append h more, fanOut_append, List.length_append]
  cases ((r.feed bytes).2.2.feed more).2.1 <;> rfl

theorem parse_append_of_fault {r : FrameReader codec} {listeners : Nat} {bytes : Bytes}
    {fault : Fault} (h : (r.feed bytes).2.1 = some fault) (more : Bytes) :
    r.parse listeners (bytes ++ more) = r.parse listeners bytes := by
  rw [parse, parse, feed_append_of_fault h more]

/-- The chunks of a settled reader may as well be fed at once. -/
theorem Settled.parseAll_eq {r : FrameReader codec} (h : r.Settled) (listeners : Nat)
    (chunks : List Bytes) : r.parseAll listeners chunks = r.parse listeners chunks.flatten := by
  induction chunks generalizing r with
  | nil =>
      rw [parseAll, List.flatten_nil, parse, feed_nil h]
      rfl
  | cons chunk chunks ih =>
      rw [parseAll, List.flatten_cons]
      cases hfault : (r.feed chunk).2.1 with
      | some fault =>
          rw [parse_append_of_fault hfault, parse_of_fault hfault]
      | none =>
          rw [parse_append hfault, parse_of_none hfault]
          simp only [ih (settled_feed r chunk)]

/-- **Chunks do not matter.** Feeding a reachable reader a stream cut anyhow, up to the first fault,
is feeding it the whole stream: the answers add up to the one answer, every listener is told the
same, and the pending bytes and the decompressor are the same in the end. A fault leaves nothing
pending. -/
theorem parseAll_eq_parse_flatten {r : FrameReader codec} (h : Reachable r) (listeners : Nat)
    (chunks : List Bytes) :
    r.parseAll listeners chunks = r.parse listeners chunks.flatten ∧
      ∀ fault, (r.parseAll listeners chunks).1 = .error fault →
        (r.parseAll listeners chunks).2.2.pending = [] := by
  refine ⟨h.settled.parseAll_eq listeners chunks, ?_⟩
  intro fault hfault
  rw [h.settled.parseAll_eq] at hfault ⊢
  exact pending_parse_of_error hfault

/-- A header block cut in four, one of the pieces empty, for a reader that holds the first bytes of
its frame; a frame of an unknown version stands behind it. -/
theorem parseAll_of_pending_header :
    Reachable ((fresh HeaderCodec.rolling).feed [0x80, 3, 0]).2.2 ∧
      ((fresh HeaderCodec.rolling).feed [0x80, 3, 0]).2.2.parseAll 2
          [[8, 0], [], [0, 0, 5, 0, 0], [0, 1, 65, 0x80], [9, 0, 6, 0, 0, 0, 0, 7]] =
        ((fresh HeaderCodec.rolling).feed [0x80, 3, 0]).2.2.parse 2
          [8, 0, 0, 0, 5, 0, 0, 0, 1, 65, 0x80, 9, 0, 6, 0, 0, 0, 0, 7] ∧
      ∀ fault,
        (((fresh HeaderCodec.rolling).feed [0x80, 3, 0]).2.2.parseAll 2
          [[8, 0], [], [0, 0, 5, 0, 0], [0, 1, 65, 0x80], [9, 0, 6, 0, 0, 0, 0, 7]]).1 =
            .error fault →
        (((fresh HeaderCodec.rolling).feed [0x80, 3, 0]).2.2.parseAll 2
          [[8, 0], [], [0, 0, 5, 0, 0], [0, 1, 65, 0x80],
            [9, 0, 6, 0, 0, 0, 0, 7]]).2.2.pending = [] :=
  ⟨.feed .fresh _, parseAll_eq_parse_flatten (.feed .fresh _) 2 _⟩

end SpdySessions.FrameReader
