import Mathlib.Data.List.Forall2
import SpdySessions.Proofs.Wire.Canonical

/-! Reading and writing again. What a reader has taken in without a fault can be sent on as it was
delivered. Header blocks travel as they are here, so both sides have no state, and the wire of a list
of deliveries is, frame by frame, the normal form of the frames that were read. The induction is on
the frames. -/

namespace SpdySessions

/-- An item that sends a delivery on: a control frame in the version that it came in, a data frame in
either. -/
structure Delivery.Resent (x : Delivery) (item : Version × Frame) : Prop where
  frame : item.2 = x.frame
  version : ∀ v, x.version = some v → item.1 = v

namespace HeaderCodec

theorem tracks_identity : identity.Tracks fun _ _ => True where
  start := trivial
  block _ _ _ _ := rfl
  follow _ _ _ _ := trivial

end HeaderCodec

namespace Grammar

/-! ### One frame sent on -/

section

variable {w w' : Bytes} {d next : HeaderCodec.identity.Decompressor} {x : Delivery}

theorem Reads.wire_eq_normal (h : Reads d w x next) (hw : IsFrame w) {item : Version × Frame}
    (hitem : x.Resent item) (c : HeaderCodec.identity.Compressor) :
    (item.2.wire c item.1).1 = normal w := by
  rw [hitem.frame]
  exact wire_of_reads hw h c hitem.version

/-- What fitted into a frame fits again. -/
theorem Reads.length_payload (h : Reads d w x next) (hw : IsFrame w) {item : Version × Frame}
    (hitem : x.Resent item) (c : HeaderCodec.identity.Compressor) :
    (item.2.payload c item.1).1.length ≤ Frame.maxPayload := by
  have hwire := congrArg List.length (h.wire_eq_normal hw hitem c)
  have hheader : (item.2.wire c item.1).1.length =
      8 + (item.2.payload c item.1).1.length := by
    obtain ⟨a, b, c', d', hword⟩ := exists_headerWord item.1 item.2
    show (item.2.header item.1 _ ++ _).length = _
    rw [Frame.header, hword, List.length_append]
    rfl
  obtain ⟨b0, b1, b2, b3, b4, l0, l1, l2, load, rfl, hlength⟩ := exists_bytes hw
  rw [hheader, (isFrame_normal hw).2] at hwire
  simp only [List.length_cons] at hwire
  have h0 := l0.toNat_lt
  have h1 := l1.toNat_lt
  have h2 := l2.toNat_lt
  rw [number_three] at hlength
  show _ ≤ 0xffffff
  omega

/-- The normal form says what the frame says. -/
theorem Reads.normal (h : Reads d w x next) (hw : IsFrame w) : Reads d (normal w) x next := by
  have hitem : x.Resent (x.version.getD .v2, x.frame) := ⟨rfl, fun v hv => by rw [hv]; rfl⟩
  obtain ⟨next', hreads, -⟩ := reads_wire HeaderCodec.tracks_identity (c := ()) (d := d) trivial
    (x.version.getD .v2) h.unmistakable (h.length_payload hw hitem ())
  rw [h.wire_eq_normal hw hitem (), h.arrival hitem.version] at hreads
  exact hreads

/-- Frames of one normal form say the same. -/
theorem Reads.of_normal_eq (h : Reads d w x next) (hw : IsFrame w) (hw' : IsFrame w')
    (hnormal : Grammar.normal w' = Grammar.normal w) : Reads d w' x next := by
  have hformed : WellFormed d w' := by
    rw [← wellFormed_normal hw' d, hnormal, wellFormed_normal hw d]
    exact h.wellFormed
  obtain ⟨x', next', h'⟩ := (wellFormed_iff_reads hw').mp hformed
  have hboth := h'.normal hw'
  rw [hnormal] at hboth
  obtain ⟨rfl, rfl⟩ := Reads.unique (isFrame_normal hw).1 hboth (h.normal hw)
  exact h'

/-- Frames that say the same have one normal form. -/
theorem Reads.normal_eq {d' next' : HeaderCodec.identity.Decompressor} (h : Reads d w x next)
    (h' : Reads d' w' x next') (hw : IsFrame w) (hw' : IsFrame w') :
    Grammar.normal w' = Grammar.normal w := by
  have hitem : x.Resent (x.version.getD .v2, x.frame) := ⟨rfl, fun v hv => by rw [hv]; rfl⟩
  rw [← h.wire_eq_normal hw hitem (), ← h'.wire_eq_normal hw' hitem ()]

end

/-! ### Streams sent on -/

open FrameWriter (Written content_of_write)

section

variable {d next : HeaderCodec.identity.Decompressor} {frames frames' : List Bytes}
  {xs : List Delivery} {items : List (Version × Frame)}

theorem ReadsAll.unmistakable (h : ReadsAll d frames xs next) :
    ∀ x ∈ xs, x.frame.Unmistakable := by
  induction h with
  | nil d =>
      intro x hx
      cases hx
  | cons hw hrest ih =>
      intro x hx
      rcases List.mem_cons.mp hx with rfl | hx
      · exact hw.unmistakable
      · exact ih x hx

/-- Whatever was delivered can be written, at any time and by anybody. -/
theorem ReadsAll.write_ok (h : ReadsAll d frames xs next) (hframes : ∀ w ∈ frames, IsFrame w)
    (hitems : List.Forall₂ Delivery.Resent xs items) (writer : FrameWriter .identity)
    (pool : BufferPool) :
    ∀ item ∈ items, ∃ buffer, (writer.write pool item.1 item.2).1 = .ok buffer := by
  induction h generalizing items with
  | nil d =>
      cases hitems
      intro item hitem
      cases hitem
  | @cons d mid next w x frames xs hw hrest ih =>
      cases hitems with
      | cons hitem hitems =>
          intro item hmem
          rcases List.mem_cons.mp hmem with rfl | hmem
          · have hsize := hw.length_payload (hframes w List.mem_cons_self) hitem writer.compressor
            have hwrite := writer.write_of_le pool hsize
            exact ⟨_, congrArg Prod.fst hwrite⟩
          · exact ih (fun u hu => hframes u (List.mem_cons_of_mem w hu)) hitems item hmem

/-- The bytes that send deliveries on are the normal forms of the frames that were read. -/
theorem ReadsAll.wire_eq (h : ReadsAll d frames xs next) (hframes : ∀ w ∈ frames, IsFrame w)
    (hitems : List.Forall₂ Delivery.Resent xs items) {writer : FrameWriter .identity}
    {wire : List Bytes} (hwire : Written writer items wire) : wire = frames.map normal := by
  induction h generalizing items writer wire with
  | nil d =>
      cases hitems
      cases hwire
      rfl
  | @cons d mid next w x frames xs hw hrest ih =>
      cases hitems with
      | cons hitem hitems =>
          cases hwire with
          | cons hpool hwrite hlater =>
              obtain ⟨hcontent, -, -⟩ := content_of_write hpool hwrite
              rw [List.map_cons, hcontent,
                hw.wire_eq_normal (hframes w List.mem_cons_self) hitem writer.compressor,
                ih (fun u hu => hframes u (List.mem_cons_of_mem w hu)) hitems hlater]

theorem ReadsAll.exists_written (h : ReadsAll d frames xs next) (hframes : ∀ w ∈ frames, IsFrame w)
    (hitems : List.Forall₂ Delivery.Resent xs items) (writer : FrameWriter .identity) :
    ∃ wire, Written writer items wire := by
  induction h generalizing items writer with
  | nil d =>
      cases hitems
      exact ⟨[], .nil writer⟩
  | @cons d mid next w x frames xs hw hrest ih =>
      cases hitems with
      | @cons _ item _ items hitem hitems =>
          obtain ⟨buffer, hbuffer⟩ := (ReadsAll.cons hw hrest).write_ok hframes (.cons hitem hitems)
            writer ⟨16, 4, []⟩ item List.mem_cons_self
          obtain ⟨wire, hwire⟩ := ih (fun u hu => hframes u (List.mem_cons_of_mem w hu)) hitems
            (writer.write ⟨16, 4, []⟩ item.1 item.2).2.1
          exact ⟨buffer.content :: wire, .cons (.empty 16 4) (Prod.ext hbuffer rfl) hwire⟩

theorem ReadsAll.map_normal (h : ReadsAll d frames xs next) (hframes : ∀ w ∈ frames, IsFrame w) :
    ReadsAll d (frames.map normal) xs next := by
  induction h with
  | nil d => exact .nil d
  | @cons d mid next w x frames xs hw hrest ih =>
      exact .cons (hw.normal (hframes w List.mem_cons_self))
        (ih fun u hu => hframes u (List.mem_cons_of_mem w hu))

theorem ReadsAll.of_map_normal_eq (h : ReadsAll d frames xs next)
    (hframes : ∀ w ∈ frames, IsFrame w) (hframes' : ∀ w ∈ frames', IsFrame w)
    (hnormal : frames'.map normal = frames.map normal) : ReadsAll d frames' xs next := by
  induction h generalizing frames' with
  | nil d =>
      rw [List.map_eq_nil_iff.mp hnormal]
      exact .nil d
  | @cons d mid next w x frames xs hw hrest ih =>
      cases frames' with
      | nil => cases hnormal
      | cons w' frames' =>
          obtain ⟨hfirst, hlater⟩ := List.cons.inj hnormal
          exact .cons
            (hw.of_normal_eq (hframes w List.mem_cons_self) (hframes' w' List.mem_cons_self) hfirst)
            (ih (fun u hu => hframes u (List.mem_cons_of_mem w hu))
              (fun u hu => hframes' u (List.mem_cons_of_mem w' hu)) hlater)

theorem ReadsAll.map_normal_eq (h : ReadsAll d frames xs next)
    {d' next' : HeaderCodec.identity.Decompressor} (h' : ReadsAll d' frames' xs next')
    (hframes : ∀ w ∈ frames, IsFrame w) (hframes' : ∀ w ∈ frames', IsFrame w) :
    frames'.map normal = frames.map normal := by
  induction h generalizing d' frames' with
  | nil d =>
      cases h'
      rfl
  | @cons d mid next w x frames xs hw hrest ih =>
      cases h' with
      | @cons _ _ _ w' _ frames' _ hw' hrest' =>
          rw [List.map_cons, List.map_cons,
            hw.normal_eq hw' (hframes w List.mem_cons_self) (hframes' w' List.mem_cons_self),
            ih hrest' (fun u hu => hframes u (List.mem_cons_of_mem w hu))
              fun u hu => hframes' u (List.mem_cons_of_mem w' hu)]

/-- A stream is in normal form when each of its frames is canonical. -/
theorem ReadsAll.map_normal_eq_self_iff (h : ReadsAll d frames xs next)
    (hframes : ∀ w ∈ frames, IsFrame w) :
    frames.map normal = frames ↔ ∀ w ∈ frames, Canonical w := by
  induction h with
  | nil d => exact iff_of_true rfl fun w hw => absurd hw List.not_mem_nil
  | @cons d mid next w x frames xs hw hrest ih =>
      rw [List.map_cons, List.cons.injEq, List.forall_mem_cons,
        normal_eq_self_iff (hframes w List.mem_cons_self) hw.wellFormed,
        ih fun u hu => hframes u (List.mem_cons_of_mem w hu)]

end

theorem Cut.map_normal {bytes : Bytes} {frames : List Bytes} (hcut : Cut bytes frames []) :
    Cut (frames.map normal).flatten (frames.map normal) [] := by
  refine ⟨(List.append_nil _).symm, fun u hu => ?_, hcut.incomplete⟩
  obtain ⟨w, hw, rfl⟩ := List.mem_map.mp hu
  exact (isFrame_normal (hcut.complete w hw)).1

/-- A stream of complete frames is the bytes of its frames and of no others. -/
theorem flatten_normal_eq_iff {bytes : Bytes} {frames : List Bytes} (hcut : Cut bytes frames []) :
    (frames.map normal).flatten = bytes ↔ frames.map normal = frames := by
  constructor
  · intro h
    have hnormal := hcut.map_normal
    rw [h] at hnormal
    exact (hcut.unique hnormal).1
  · intro h
    rw [h, hcut.joined, List.append_nil]

end Grammar

namespace FrameReader

open Grammar
open FrameWriter (Written)

/-- A fresh reader has read a stream of complete frames when their deliveries are what they say. -/
theorem feed_fresh_eq_iff {codec : HeaderCodec} {bytes : Bytes} {frames : List Bytes}
    (hcut : Cut bytes frames []) (xs : List Delivery) (next : FrameReader codec) :
    (fresh codec).feed bytes = (xs, none, next) ↔
      ReadsAll codec.decompressor frames xs next.decompressor ∧ next.pending = [] := by
  rw [← hcut.scan_eq_iff]
  have hfeed : (fresh codec).feed bytes = ((scan codec.decompressor bytes).deliveries,
      (scan codec.decompressor bytes).fault, ⟨(scan codec.decompressor bytes).decompressor,
        (scan codec.decompressor bytes).rest⟩) := rfl
  rw [hfeed]
  constructor
  · intro h
    obtain ⟨hdeliveries, hrest⟩ := Prod.mk.inj h
    obtain ⟨hfault, hnext⟩ := Prod.mk.inj hrest
    rw [← hdeliveries, ← hfault, ← hnext]
  · intro h
    rw [h]

/-- **Writing what was read canonicalises.** Of bytes that a fresh reader takes in to the last
without a fault, every delivery can be written again, in its version and in either one if it is data;
no delivery of an unknown type has the number of a known one. The frames that are written have the
lengths of those that were read, are read as the same deliveries, and are the same bytes exactly when
every frame was canonical. Complete frames are read as these deliveries exactly when they differ from
the frames that were read in nothing but what normal forms leave out. -/
theorem rewritten_eq_iff_canonical {bytes : Bytes} {xs : List Delivery}
    {next : FrameReader .identity} (h : (fresh .identity).feed bytes = (xs, none, next))
    (hpending : next.pending = []) :
    ∃ frames, Cut bytes frames [] ∧ (∀ x ∈ xs, x.frame.Unmistakable) ∧
      (∀ items, List.Forall₂ Delivery.Resent xs items →
        (∀ (writer : FrameWriter .identity) pool, ∀ item ∈ items,
          ∃ buffer, (writer.write pool item.1 item.2).1 = .ok buffer) ∧
        ∃ wire, Written (FrameWriter.fresh .identity) items wire ∧
          (∀ wire', Written (FrameWriter.fresh .identity) items wire' → wire' = wire) ∧
          wire.map List.length = frames.map List.length ∧
          (fresh .identity).feed wire.flatten = (xs, none, next) ∧
          (wire.flatten = bytes ↔ ∀ w ∈ frames, Canonical w)) ∧
      ∀ bytes' frames', Cut bytes' frames' [] →
        ((fresh .identity).feed bytes' = (xs, none, next) ↔
          frames'.map normal = frames.map normal) := by
  obtain ⟨frames, rest, hcut⟩ := exists_cut bytes
  have hscan : scan HeaderCodec.identity.decompressor bytes = ⟨xs, [], next.decompressor, none⟩ := by
    rw [← hpending]
    obtain ⟨hdeliveries, hrest⟩ := Prod.mk.inj h
    obtain ⟨hfault, hnext⟩ := Prod.mk.inj hrest
    rw [← hdeliveries, ← hfault, ← hnext]
    rfl
  obtain ⟨hall, rfl⟩ := (hcut.scan_eq_iff _ _ _).mp hscan
  have hsame : ∀ bytes' frames', Cut bytes' frames' [] →
      ((fresh .identity).feed bytes' = (xs, none, next) ↔
        frames'.map normal = frames.map normal) := by
    intro bytes' frames' hcut'
    rw [feed_fresh_eq_iff hcut', and_iff_left hpending]
    exact ⟨fun hall' => hall.map_normal_eq hall' hcut.complete hcut'.complete,
      fun hnormal => hall.of_map_normal_eq hcut.complete hcut'.complete hnormal⟩
  refine ⟨frames, hcut, hall.unmistakable, ?_, hsame⟩
  intro items hitems
  refine ⟨hall.write_ok hcut.complete hitems, ?_⟩
  obtain ⟨wire, hwire⟩ := hall.exists_written hcut.complete hitems (FrameWriter.fresh .identity)
  obtain rfl := hall.wire_eq hcut.complete hitems hwire
  refine ⟨frames.map normal, hwire, fun wire' hwire' => hall.wire_eq hcut.complete hitems hwire', ?_,
    ?_, ?_⟩
  · rw [List.map_map]
    exact List.map_congr_left fun w hw => (isFrame_normal (hcut.complete w hw)).2
  · exact (feed_fresh_eq_iff hcut.map_normal xs next).mpr
      ⟨hall.map_normal hcut.complete, hpending⟩
  · rw [flatten_normal_eq_iff hcut, hall.map_normal_eq_self_iff hcut.complete]

/-- A reply of version 2 with a flag, its reserved bit and its padding set; behind it a window update
of version 3 with both reserved bits, and data. -/
def careless : Bytes :=
  [128, 2, 0, 2, 9, 0, 0, 8, 128, 0, 0, 1, 7, 7, 65, 66] ++
  [128, 3, 0, 9, 0, 0, 0, 8, 128, 0, 0, 3, 128, 0, 1, 0] ++ [0, 0, 0, 3, 1, 0, 0, 1, 7]

theorem feed_careless : (fresh .identity).feed careless =
    ([⟨some .v2, .headers 1 [65, 66]⟩, ⟨some .v3, .windowUpdate 3 256⟩, ⟨none, .data 3 1 [7]⟩], none,
      ⟨(), []⟩) := by
  have hscan : scan HeaderCodec.identity.decompressor careless =
      ⟨[⟨some .v2, .headers 1 [65, 66]⟩, ⟨some .v3, .windowUpdate 3 256⟩, ⟨none, .data 3 1 [7]⟩], [],
        (), none⟩ := by
    rw [scan_of_delivery rfl rfl, scan_of_delivery rfl rfl, scan_of_delivery rfl rfl,
      scan_of_incomplete _ rfl]
    rfl
  simp only [feed]
  exact congrArg (fun o => (o.deliveries, o.fault, FrameReader.mk o.decompressor o.rest)) hscan

/-- They are sent on, the data in version 2; other bytes come out. -/
theorem rewritten_careless :
    ∃ frames, Cut careless frames [] ∧
      ∃ wire, Written (FrameWriter.fresh .identity)
          [(.v2, .headers 1 [65, 66]), (.v3, .windowUpdate 3 256), (.v2, .data 3 1 [7])] wire ∧
        wire.map List.length = frames.map List.length ∧
        (fresh .identity).feed wire.flatten = (fresh .identity).feed careless ∧
        (wire.flatten = careless ↔ ∀ w ∈ frames, Canonical w) := by
  obtain ⟨frames, hcut, -, hsent, -⟩ := rewritten_eq_iff_canonical feed_careless rfl
  obtain ⟨-, wire, hwire, -, hlengths, hread, hcanonical⟩ := hsent
    [(.v2, .headers 1 [65, 66]), (.v3, .windowUpdate 3 256), (.v2, .data 3 1 [7])]
    (.cons ⟨rfl, fun v hv => Option.some.inj hv⟩ (.cons ⟨rfl, fun v hv => Option.some.inj hv⟩
      (.cons ⟨rfl, fun v hv => nomatch hv⟩ .nil)))
  exact ⟨frames, hcut, wire, hwire, hlengths, hread.trans feed_careless.symm, hcanonical⟩

end FrameReader

end SpdySessions
