import SpdySessions.Proofs.Wire.Chunking
import SpdySessions.Proofs.Wire.Grammar

/-! What a reader accepts. Every stream has one cut into complete frames and an incomplete rest, and
the decompressor is carried from frame to frame. The reader follows the cut: it delivers what the
frames say, in order, and keeps the rest, unless a frame is refused; then it has delivered what stands
before that frame, answers the reason and keeps nothing. -/

namespace SpdySessions.Grammar

open FrameReader (cut? length_rest_lt scan scan_of_incomplete scan_of_fault scan_of_delivery
  parse_of_scan parse_of_scan_of_fault)

variable {codec : HeaderCodec}

/-- What frames say one after the other, and the decompressor after the last. -/
inductive ReadsAll : codec.Decompressor → List Bytes → List Delivery → codec.Decompressor → Prop
  | nil (d : codec.Decompressor) : ReadsAll d [] [] d
  | cons {d mid next : codec.Decompressor} {w : Bytes} {x : Delivery} {frames : List Bytes}
      {xs : List Delivery} (h : Reads d w x mid) (hrest : ReadsAll mid frames xs next) :
      ReadsAll d (w :: frames) (x :: xs) next

/-- Every frame is well formed for the decompressor that the frames before it leave. -/
def AllWellFormed : codec.Decompressor → List Bytes → Prop
  | _, [] => True
  | d, w :: frames => WellFormed d w ∧ ∀ x next, Reads d w x next → AllWellFormed next frames

/-! ### One cut of every stream -/

theorem exists_cut (bytes : Bytes) : ∃ frames rest, Cut bytes frames rest := by
  cases hcut : cut? bytes with
  | none =>
      refine ⟨[], bytes, rfl, ?_, cut?_eq_none_iff.mp hcut⟩
      intro w hw
      cases hw
  | some cut =>
      obtain ⟨header, load, behind⟩ := cut
      have hshorter := length_rest_lt hcut
      obtain ⟨w, hw, rfl⟩ := isFrame_of_cut? hcut
      obtain ⟨frames, rest, hbehind⟩ := exists_cut behind
      refine ⟨w :: frames, rest, ?_, ?_, hbehind.incomplete⟩
      · rw [List.flatten_cons, List.append_assoc, ← hbehind.joined]
      · intro u hu
        rcases List.mem_cons.mp hu with rfl | hu
        · exact hw
        · exact hbehind.complete u hu
  termination_by bytes.length

/-- A stream starts with at most one complete frame: its length stands in its own first bytes. -/
theorem isFrame_unique {w w' more more' : Bytes} (hw : IsFrame w) (hw' : IsFrame w')
    (h : w ++ more = w' ++ more') : w = w' ∧ more = more' := by
  obtain ⟨header, hheader⟩ := exists_header hw
  obtain ⟨header', hheader'⟩ := exists_header hw'
  have hcut : some (header, payload w, more) = some (header', payload w', more') :=
    calc some (header, payload w, more) = cut? (w ++ more) := (hheader.cut more).symm
      _ = cut? (w' ++ more') := congrArg cut? h
      _ = some (header', payload w', more') := hheader'.cut more'
  simp only [Option.some.injEq, Prod.mk.injEq] at hcut
  obtain ⟨-, -, rfl⟩ := hcut
  exact ⟨List.append_cancel_right h, rfl⟩

theorem Cut.unique {bytes rest rest' : Bytes} {frames frames' : List Bytes}
    (h : Cut bytes frames rest) (h' : Cut bytes frames' rest') :
    frames' = frames ∧ rest' = rest := by
  induction frames generalizing bytes frames' with
  | nil =>
      have hrest : bytes = rest := h.joined
      cases frames' with
      | nil => exact ⟨rfl, h'.joined.symm.trans hrest⟩
      | cons w' frames' =>
          refine absurd ?_ (h.incomplete w' (frames'.flatten ++ rest')
            (h'.complete w' List.mem_cons_self))
          rw [← hrest, h'.joined, List.flatten_cons, List.append_assoc]
  | cons w frames ih =>
      have hw := h.complete w List.mem_cons_self
      have hjoined := h.joined
      rw [List.flatten_cons, List.append_assoc] at hjoined
      cases frames' with
      | nil =>
          have hrest' : bytes = rest' := h'.joined
          exact absurd (hrest'.symm.trans hjoined) (h'.incomplete w _ hw)
      | cons w' frames' =>
          have hjoined' := h'.joined
          rw [List.flatten_cons, List.append_assoc] at hjoined'
          obtain ⟨rfl, hbehind⟩ := isFrame_unique hw (h'.complete w' List.mem_cons_self)
            (hjoined.symm.trans hjoined')
          obtain ⟨rfl, rfl⟩ := ih
            ⟨rfl, fun u hu => h.complete u (List.mem_cons_of_mem w hu), h.incomplete⟩
            ⟨hbehind, fun u hu => h'.complete u (List.mem_cons_of_mem w hu), h'.incomplete⟩
          exact ⟨rfl, rfl⟩

theorem Cut.cut?_rest {bytes rest : Bytes} {frames : List Bytes} (h : Cut bytes frames rest) :
    cut? rest = none :=
  cut?_eq_none_iff.mpr h.incomplete

/-! ### Well-formed throughout means readable throughout -/

section

variable {d mid next : codec.Decompressor} {good : List Bytes} {xs : List Delivery}

theorem ReadsAll.length_eq (h : ReadsAll d good xs next) : xs.length = good.length := by
  induction h with
  | nil d => rfl
  | cons h hrest ih => rw [List.length_cons, List.length_cons, ih]

theorem ReadsAll.allWellFormed_append (h : ReadsAll d good xs mid) (hgood : ∀ w ∈ good, IsFrame w)
    (later : List Bytes) : AllWellFormed d (good ++ later) ↔ AllWellFormed mid later := by
  induction h with
  | nil d => exact Iff.rfl
  | @cons d mid next w x frames xs hw hrest ih =>
      have hframe := hgood w List.mem_cons_self
      rw [← ih fun u hu => hgood u (List.mem_cons_of_mem w hu)]
      constructor
      · intro h
        exact h.2 x mid hw
      · refine fun h => ⟨hw.wellFormed, fun x' mid' hw' => ?_⟩
        obtain ⟨-, rfl⟩ := Reads.unique hframe hw hw'
        exact h

theorem ReadsAll.allWellFormed (h : ReadsAll d good xs next) (hgood : ∀ w ∈ good, IsFrame w) :
    AllWellFormed d good := by
  have hall := (h.allWellFormed_append hgood []).mpr trivial
  rwa [List.append_nil] at hall

theorem ReadsAll.not_allWellFormed {bad : Bytes} {later : List Bytes} (h : ReadsAll d good xs mid)
    (hgood : ∀ w ∈ good, IsFrame w) (hbad : ¬WellFormed mid bad) :
    ¬AllWellFormed d (good ++ bad :: later) := by
  rw [h.allWellFormed_append hgood (bad :: later)]
  exact fun hall => hbad hall.1

end

/-- Complete frames can all be read, or up to one that is not well formed. -/
theorem exists_readsAll (d : codec.Decompressor) (frames : List Bytes)
    (hframes : ∀ w ∈ frames, IsFrame w) :
    (∃ xs next, ReadsAll d frames xs next) ∨
      ∃ good bad later xs mid, frames = good ++ bad :: later ∧ ReadsAll d good xs mid ∧
        ¬WellFormed mid bad := by
  induction frames generalizing d with
  | nil => exact Or.inl ⟨[], d, .nil d⟩
  | cons w frames ih =>
      by_cases hw : WellFormed d w
      · obtain ⟨x, mid, hreads⟩ := (wellFormed_iff_reads (hframes w List.mem_cons_self)).mp hw
        rcases ih mid fun u hu => hframes u (List.mem_cons_of_mem w hu) with
          ⟨xs, next, hall⟩ | ⟨good, bad, later, xs, last, rfl, hgood, hbad⟩
        · exact Or.inl ⟨x :: xs, next, .cons hreads hall⟩
        · exact Or.inr ⟨w :: good, bad, later, x :: xs, last, rfl, .cons hreads hgood, hbad⟩
      · exact Or.inr ⟨[], w, frames, [], d, rfl, .nil d, hw⟩

/-! ### The reader follows the cut -/

/-- A scan delivers what the frames in front say and goes on behind them. -/
theorem ReadsAll.scan_append {d mid : codec.Decompressor} {good : List Bytes} {xs : List Delivery}
    (h : ReadsAll d good xs mid) (hgood : ∀ w ∈ good, IsFrame w) (more : Bytes) :
    scan d (good.flatten ++ more) =
      { scan mid more with deliveries := xs ++ (scan mid more).deliveries } := by
  induction h with
  | nil d => rfl
  | @cons d mid next w x frames xs hw hrest ih =>
      obtain ⟨header, hheader⟩ := exists_header (hgood w List.mem_cons_self)
      rw [List.flatten_cons, List.append_assoc,
        scan_of_delivery (hheader.cut (frames.flatten ++ more)) (hheader.ofFrame_of_reads hw),
        ih fun u hu => hgood u (List.mem_cons_of_mem w hu)]
      rfl

/-- A scan keeps what no frame is complete in. -/
theorem ReadsAll.scan_eq {d next : codec.Decompressor} {frames : List Bytes} {xs : List Delivery}
    {rest : Bytes} (h : ReadsAll d frames xs next) (hframes : ∀ w ∈ frames, IsFrame w)
    (hrest : cut? rest = none) : scan d (frames.flatten ++ rest) = ⟨xs, rest, next, none⟩ := by
  rw [h.scan_append hframes, scan_of_incomplete next hrest, List.append_nil]

/-- A scan stops at a frame that is not well formed, for the reason it has. -/
theorem exists_scan_of_not_wellFormed {d : codec.Decompressor} {bad : Bytes} (hw : IsFrame bad)
    (hbad : ¬WellFormed d bad) (more : Bytes) :
    ∃ fault next, Refuses d bad fault next ∧ scan d (bad ++ more) = ⟨[], [], next, some fault⟩ := by
  obtain ⟨header, hheader⟩ := exists_header hw
  rcases hheader.reads_or_refuses d with ⟨x, next, -, hreads⟩ | ⟨fault, next, hframe, hrefuses⟩
  · exact absurd hreads.wellFormed hbad
  · exact ⟨fault, next, hrefuses, scan_of_fault (hheader.cut more) hframe⟩

/-- A scan without a fault has read every complete frame, and keeps the rest. -/
theorem Cut.scan_eq_iff {bytes rest rest' : Bytes} {frames : List Bytes}
    (hcut : Cut bytes frames rest) (d next : codec.Decompressor) (xs : List Delivery) :
    scan d bytes = ⟨xs, rest', next, none⟩ ↔ ReadsAll d frames xs next ∧ rest' = rest := by
  constructor
  · intro hscan
    rcases exists_readsAll d frames hcut.complete with
      ⟨ys, last, hall⟩ | ⟨good, bad, later, ys, mid, rfl, hgood, hbad⟩
    · have hread := hall.scan_eq hcut.complete hcut.cut?_rest
      rw [← hcut.joined, hscan] at hread
      simp only [FrameReader.Outcome.mk.injEq] at hread
      obtain ⟨rfl, rfl, rfl, -⟩ := hread
      exact ⟨hall, rfl⟩
    · obtain ⟨fault, last, -, hstop⟩ := exists_scan_of_not_wellFormed
        (hcut.complete bad (List.mem_append_right good List.mem_cons_self)) hbad
        (later.flatten ++ rest)
      have hsplit : bytes = good.flatten ++ (bad ++ (later.flatten ++ rest)) := by
        rw [hcut.joined, List.flatten_append, List.flatten_cons, List.append_assoc,
          List.append_assoc]
      rw [hsplit, hgood.scan_append (fun w hw => hcut.complete w (List.mem_append_left _ hw)),
        hstop] at hscan
      cases hscan
  · rintro ⟨hall, rfl⟩
    rw [hcut.joined]
    exact hall.scan_eq hcut.complete hcut.cut?_rest

/-- **A reader accepts its grammar.** The pending bytes with the new ones have one cut into complete
frames and a rest. The answer is not an error exactly when all the frames are well formed. Then it is
their number, each listener is told in its turn what each frame says, and the rest is pending. Else the
answer is the fault of the first frame that is not well formed, what the frames before it say has been
told, and nothing is pending. -/
theorem parse_accepts_iff (r : FrameReader codec) (listeners : Nat) (data : Bytes) :
    ∃ frames rest, Cut (r.pending ++ data) frames rest ∧
      (∀ frames' rest', Cut (r.pending ++ data) frames' rest' → frames' = frames ∧ rest' = rest) ∧
      ((∃ count, (r.parse listeners data).1 = .ok count) ↔ AllWellFormed r.decompressor frames) ∧
      ((∃ xs next, ReadsAll r.decompressor frames xs next ∧
          r.parse listeners data =
            (.ok frames.length, xs.flatMap fun x => (List.range listeners).map fun i => (i, x),
              ⟨next, rest⟩)) ∨
        ∃ good bad later xs mid fault next, frames = good ++ bad :: later ∧
          ReadsAll r.decompressor good xs mid ∧ ¬WellFormed mid bad ∧ Refuses mid bad fault next ∧
          r.parse listeners data =
            (.error fault, xs.flatMap fun x => (List.range listeners).map fun i => (i, x),
              ⟨next, []⟩)) := by
  obtain ⟨frames, rest, hcut⟩ := exists_cut (r.pending ++ data)
  refine ⟨frames, rest, hcut, fun frames' rest' hcut' => hcut.unique hcut', ?_⟩
  rcases exists_readsAll r.decompressor frames hcut.complete with
    ⟨xs, next, hall⟩ | ⟨good, bad, later, xs, mid, rfl, hgood, hbad⟩
  · have hscan := hall.scan_eq hcut.complete hcut.cut?_rest
    rw [← hcut.joined] at hscan
    have hparse := parse_of_scan listeners hscan
    rw [hall.length_eq] at hparse
    refine ⟨?_, Or.inl ⟨xs, next, hall, hparse⟩⟩
    rw [hparse]
    exact ⟨fun _ => hall.allWellFormed hcut.complete, fun _ => ⟨frames.length, rfl⟩⟩
  · have hframes : ∀ w ∈ good, IsFrame w := fun w hw =>
      hcut.complete w (List.mem_append_left _ hw)
    obtain ⟨fault, next, hrefuses, hstop⟩ := exists_scan_of_not_wellFormed
      (hcut.complete bad (List.mem_append_right good List.mem_cons_self)) hbad (later.flatten ++ rest)
    have hsplit : r.pending ++ data = good.flatten ++ (bad ++ (later.flatten ++ rest)) := by
      rw [hcut.joined, List.flatten_append, List.flatten_cons, List.append_assoc, List.append_assoc]
    have hscan : scan r.decompressor (r.pending ++ data) = ⟨xs, [], next, some fault⟩ := by
      rw [hsplit, hgood.scan_append hframes, hstop, List.append_nil]
    have hparse := parse_of_scan_of_fault listeners hscan
    refine ⟨?_, Or.inr ⟨good, bad, later, xs, mid, fault, next, rfl, hgood, hbad, hrefuses, hparse⟩⟩
    rw [hparse]
    constructor
    · rintro ⟨count, hcount⟩
      cases hcount
    · intro hformed
      exact absurd hformed (hgood.not_allWellFormed hframes hbad)

end SpdySessions.Grammar
