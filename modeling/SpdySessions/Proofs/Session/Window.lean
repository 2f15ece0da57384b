import SpdySessions.Proofs.Session.Mirror
import SpdySessions.Proofs.Wire.Pending

/-! The window of a session. In version 2 it stays what it was at first. In version 3 it is the window that
the peer announced last, as far as a window can be that large; nothing else that comes in or is done has a
say in it. The session goes over the entries of settings one by one, which is the same as looking for the
last one that announces a window, in all settings that ever came in. Of settings that come in as bytes the
number of an entry is three bytes, in the order that the version of their frame has. -/

namespace SpdySessions

open Session (Listener Notice Event View)

/-! ### Announcements -/

/-- The value of an entry that announces a window. -/
def Setting.window? (s : Setting) : Option UInt32 :=
  if s.id = initialWindow then some s.value else none

/-- The windows that a frame announces, in order. -/
def Frame.windows : Frame → List UInt32
  | settings _ entries => entries.filterMap Setting.window?
  | _ => []

def Arrival.windows : Arrival → List UInt32
  | frame f => f.windows
  | ended => []

/-- The windows that a listener has heard of in a notice. -/
def Session.Notice.windows : Notice → List UInt32
  | settings _ entries => entries.filterMap Setting.window?
  | _ => []

/-- The window of a session that started with one and to which then some values were announced. -/
def Session.windowFor (v : Version) (initial : Int32) (values : List UInt32) : Int :=
  match v with
  | .v2 => initial.toInt
  | .v3 => match values.getLast? with
    | none => initial.toInt
    | some value => (min value.toNat 0x7fffffff : Nat)

theorem Session.windowFor_nil (v : Version) (initial : Int32) :
    windowFor v initial [] = initial.toInt := by
  cases v <;> rfl

theorem Session.windowFor_concat (v : Version) (initial : Int32) (values : List UInt32)
    (value : UInt32) :
    windowFor v initial (values ++ [value]) =
      match v with
      | .v2 => initial.toInt
      | .v3 => (min value.toNat 0x7fffffff : Nat) := by
  cases v with
  | v2 => rfl
  | v3 => simp only [windowFor, List.getLast?_concat]

/-- No window is larger than the largest one. -/
theorem FlowControl.toInt_announced (value : UInt32) :
    (announced value).toInt = (min value.toNat 0x7fffffff : Nat) := by
  rw [announced, Int32.toInt_ofNat_of_lt (by omega)]

namespace Endpoint

variable {codec : HeaderCodec} {e₀ e : Endpoint codec}

/-- To follow announcements one by one is to follow the last one. -/
theorem toInt_windowAfter (v : Version) (initial : Int32) (entries : List Setting) :
    (windowAfter (.ofVersion v) initial entries).toInt =
      Session.windowFor v initial (entries.filterMap Setting.window?) := by
  induction entries using List.reverseRecOn with
  | nil => exact (Session.windowFor_nil v initial).symm
  | append_singleton entries s ih =>
      rw [windowAfter_append, List.filterMap_append]
      by_cases hid : s.id = Setting.initialWindow
      · have hvalue : [s].filterMap Setting.window? = [s.value] := by
          simp [Setting.window?, hid]
        rw [hvalue, Session.windowFor_concat]
        simp only [windowAfter, List.foldl_cons, List.foldl_nil, if_pos hid]
        cases v with
        | v2 => exact ih
        | v3 => exact FlowControl.toInt_announced s.value
      · have hnone : [s].filterMap Setting.window? = [] := by
          simp [Setting.window?, hid]
        rw [hnone, List.append_nil, ← ih]
        simp only [windowAfter, List.foldl_cons, List.foldl_nil, if_neg hid]

/-! ### From what came in -/

/-- The listener hears of all windows that are announced. -/
theorem windows_events (past : List Event) :
    (past.flatMap Event.announces).filterMap Setting.window? =
      (past.filterMap Event.told?).flatMap Notice.windows := by
  induction past with
  | nil => rfl
  | cons event rest ih =>
      rw [List.flatMap_cons, List.filterMap_append, ih]
      cases event with
      | told notice view => cases notice <;> rfl
      | called | lost => rfl

theorem windows_notice (f : Frame) : f.notice.windows = f.windows := by
  cases f <;> rfl

theorem windows_notices (closed : Bool) (arrivals : List Arrival) :
    (Arrival.notices closed arrivals).flatMap Notice.windows = arrivals.flatMap Arrival.windows := by
  induction arrivals generalizing closed with
  | nil => rfl
  | cons arrival rest ih =>
      cases arrival with
      | frame f =>
          rw [Arrival.notices, List.flatMap_cons, List.flatMap_cons, ih, windows_notice]
          rfl
      | ended => cases closed <;> exact ih true

/-- The window of a session, from what its listener was told. -/
theorem Shown.toInt_window {past : List Event} (h : Shown e₀ past e) :
    e.session.window.toInt = Session.windowFor e₀.session.version e₀.session.window
      ((past.filterMap Event.told?).flatMap Notice.windows) := by
  rw [h.window, Session.flowControl, toInt_windowAfter, windows_events]

end Endpoint

/-! ### Announcements on the wire -/

/-- The number of the settings entry at a place: three bytes, which in version 2 come first, low byte
first, and in version 3 behind the flags, high byte first. -/
def entryNumber (v : Version) (bytes : Bytes) (place : Nat) : Nat :=
  match v with
  | .v2 => number ((bytes.drop place).take 3).reverse
  | .v3 => field bytes (place + 1) 3

namespace Grammar

/-- The windows that a complete frame announces: in settings, the values of the entries of number
seven. -/
def windows (w : Bytes) : List UInt32 :=
  match Version.ofNumber (versionNumber w) with
  | .error _ => []
  | .ok v =>
      if IsControl w ∧ kind w = Frame.settingsKind then
        (List.range (field (payload w) 0 4)).filterMap fun i =>
          if entryNumber v (payload w) (4 + 8 * i) = 7 then
            some (wordAt (payload w) (4 + 8 * i + 4))
          else none
      else []

theorem entryNumber_lt (v : Version) (bytes : Bytes) (place : Nat) :
    entryNumber v bytes place < 0x1000000 := by
  cases v with
  | v2 =>
      have hnumber := number_lt ((bytes.drop place).take 3).reverse
      have hlength : ((bytes.drop place).take 3).reverse.length ≤ 3 := by
        rw [List.length_reverse]
        exact List.length_take_le _ _
      calc number ((bytes.drop place).take 3).reverse
        _ < 0x100 ^ ((bytes.drop place).take 3).reverse.length := hnumber
        _ ≤ 0x100 ^ 3 := Nat.pow_le_pow_right (by decide) hlength
  | v3 => exact field_lt bytes (place + 1) 3

/-- An entry is taken for an announcement just by the three bytes of its number. -/
theorem window?_settingAt (v : Version) (bytes : Bytes) (place : Nat) :
    (settingAt v bytes place).window? =
      if entryNumber v bytes place = 7 then some (wordAt bytes (place + 4)) else none := by
  have hlt := entryNumber_lt v bytes place
  have hid : (settingAt v bytes place).id = Setting.initialWindow ↔ entryNumber v bytes place = 7 := by
    have hnumber : (settingAt v bytes place).id = UInt32.ofNat (entryNumber v bytes place) := by
      cases v <;> rfl
    rw [hnumber, ← UInt32.toNat_inj, UInt32.toNat_ofNat']
    show _ % _ = 7 ↔ _
    omega
  have hvalue : (settingAt v bytes place).value = wordAt bytes (place + 4) := by
    cases v <;> rfl
  rw [Setting.window?, hvalue]
  exact if_congr hid rfl rfl

section

variable {codec : HeaderCodec} {d next : codec.Decompressor} {w : Bytes} {v : Version}

theorem windows_of_kind_ne (h : ¬(IsControl w ∧ kind w = Frame.settingsKind)) : windows w = [] := by
  unfold windows
  split
  · rfl
  · exact if_neg h

/-- What is read announces what the bytes announce. -/
theorem Reads.windows_eq {x : Delivery} (h : Reads d w x next) : x.frame.windows = windows w := by
  have hother : kind w ≠ Frame.settingsKind → windows w = [] := fun hkind =>
    windows_of_kind_ne fun hsettings => hkind hsettings.2
  cases h with
  | data h => exact (windows_of_kind_ne fun hsettings => h hsettings.1).symm
  | settings h hkind hsize hcount =>
      unfold windows
      rw [h.number, Version.ofNumber_number]
      dsimp only
      rw [if_pos ⟨h.control, hkind⟩, Frame.windows, List.filterMap_map]
      exact List.filterMap_congr fun i _ => window?_settingAt _ _ _
  | ping h hkind hsize => exact (hother (by rw [hkind]; decide)).symm
  | goAway h hkind hsize => exact (hother (by rw [hkind]; decide)).symm
  | headers h hkind hsize hblock =>
      refine (hother ?_).symm
      rcases hkind with hkind | hkind
      · rw [hkind]; decide
      · rw [hkind]; decide
  | windowUpdate h hkind hsize => exact (hother (by rw [hkind]; decide)).symm
  | unknown h hkind =>
      refine (hother fun hsettings => hkind ?_).symm
      rw [hsettings]
      decide

theorem ReadsAll.windows_eq {frames : List Bytes} {xs : List Delivery} (h : ReadsAll d frames xs next) :
    xs.flatMap (·.frame.windows) = frames.flatMap windows := by
  induction h with
  | nil d => rfl
  | cons hw hrest ih => rw [List.flatMap_cons, List.flatMap_cons, hw.windows_eq, ih]

/-- Bytes are taken in up to the first complete frame that is not well formed. -/
theorem exists_feed (r : FrameReader codec) (bytes : Bytes) :
    ∃ good later rest mid, Cut (r.pending ++ bytes) (good ++ later) rest ∧
      ReadsAll r.decompressor good (r.feed bytes).1 mid ∧ ∀ bad ∈ later.head?, ¬WellFormed mid bad := by
  obtain ⟨frames, rest, hcut⟩ := exists_cut (r.pending ++ bytes)
  rcases exists_readsAll r.decompressor frames hcut.complete with
    ⟨xs, next, hall⟩ | ⟨good, bad, later, xs, mid, rfl, hgood, hbad⟩
  · have hscan := hall.scan_eq hcut.complete hcut.cut?_rest
    rw [← hcut.joined] at hscan
    refine ⟨frames, [], rest, next, (List.append_nil frames).symm ▸ hcut, ?_, by simp⟩
    rwa [FrameReader.feed, hscan]
  · obtain ⟨fault, last, -, hstop⟩ := exists_scan_of_not_wellFormed
      (hcut.complete bad (List.mem_append_right good List.mem_cons_self)) hbad (later.flatten ++ rest)
    have hscan := hgood.scan_append (fun w hw => hcut.complete w (List.mem_append_left _ hw))
      (bad ++ (later.flatten ++ rest))
    have hsplit : r.pending ++ bytes = good.flatten ++ (bad ++ (later.flatten ++ rest)) := by
      rw [hcut.joined, List.flatten_append, List.flatten_cons, List.append_assoc, List.append_assoc]
    refine ⟨good, bad :: later, rest, mid, hcut, ?_, by simpa using hbad⟩
    rw [FrameReader.feed, hsplit, hscan, hstop]
    simpa using hgood

end

end Grammar

namespace Endpoint

variable {codec : HeaderCodec} {e₀ : Endpoint codec}

/-- What bytes announce is what their complete frames announce, up to the first that is refused. -/
theorem windows_feed (p : Run codec) (listener : Listener) (bytes : Bytes) :
    ∃ good later rest xs mid,
      Grammar.Cut (p.endpoint.reader.pending ++ bytes) (good ++ later) rest ∧
      Grammar.ReadsAll p.endpoint.reader.decompressor good xs mid ∧
      (∀ bad ∈ later.head?, ¬Grammar.WellFormed mid bad) ∧
      (p.perform (.feed listener bytes)).arrivals.flatMap Arrival.windows =
        p.arrivals.flatMap Arrival.windows ++ good.flatMap Grammar.windows := by
  obtain ⟨good, later, rest, mid, hcut, hgood, hbad⟩ := Grammar.exists_feed p.endpoint.reader bytes
  refine ⟨good, later, rest, _, mid, hcut, hgood, hbad, ?_⟩
  show (p.arrivals ++ ((p.endpoint.reader.feed bytes).1.map Delivery.frame).map Arrival.frame).flatMap
    Arrival.windows = _
  rw [List.flatMap_append, ← hgood.windows_eq, List.map_map, List.flatMap_map]
  rfl

/-- **The window of a session.** On every run, whatever is called and whatever listeners do: the window
is the one that the session started with if it speaks version 2, or if no window has been announced; else
it is the value announced last, but at most the largest window. In every notice it is so for what has been
announced by then, in this notice too. So the window depends on nothing but the announced values: two runs
that announce the same end with the same window, whatever flags and other entries and frames come in and
whatever else is done. Bytes announce what their complete frames do: the values of those entries of
settings whose number, three bytes in the order of the version of the frame, is seven. -/
theorem window_is_last_announced {ops : List Operation} {p : Run codec}
    (hrun : (Run.start e₀).performAll ops = p) :
    p.endpoint.session.window.toInt = Session.windowFor e₀.session.version e₀.session.window
      (p.arrivals.flatMap Arrival.windows) ∧
    (∀ before notice view after, p.history.events = before ++ .told notice view :: after →
      view.window.toInt = Session.windowFor e₀.session.version e₀.session.window
        ((before.filterMap Event.told? ++ [notice]).flatMap Notice.windows)) ∧
    (∀ ops' p', (Run.start e₀).performAll ops' = p' →
      p'.arrivals.flatMap Arrival.windows = p.arrivals.flatMap Arrival.windows →
      p'.endpoint.session.window = p.endpoint.session.window) ∧
    ∀ listener bytes, ∃ good later rest xs mid,
      Grammar.Cut (p.endpoint.reader.pending ++ bytes) (good ++ later) rest ∧
      Grammar.ReadsAll p.endpoint.reader.decompressor good xs mid ∧
      (∀ bad ∈ later.head?, ¬Grammar.WellFormed mid bad) ∧
      (p.perform (.feed listener bytes)).arrivals.flatMap Arrival.windows =
        p.arrivals.flatMap Arrival.windows ++ good.flatMap Grammar.windows := by
  have hwindow : ∀ ops, ((Run.start e₀).performAll ops).endpoint.session.window.toInt =
      Session.windowFor e₀.session.version e₀.session.window
        (((Run.start e₀).performAll ops).arrivals.flatMap Arrival.windows) := by
    intro ops
    have hstart : Course e₀ (Run.start e₀).history (Run.start e₀).endpoint := .start
    have hmirrors : Mirrors e₀ (Run.start e₀) := ⟨rfl, (Bool.or_false _).symm⟩
    rw [(hstart.performAll ops).trace.shown.toInt_window, (hmirrors.performAll ops).told, windows_notices]
  subst hrun
  refine ⟨hwindow ops, fun before notice view after hpast => ?_, ?_,
    fun listener bytes => windows_feed _ listener bytes⟩
  · have hstart : Course e₀ (Run.start e₀).history (Run.start e₀).endpoint := .start
    obtain ⟨earlier, items, later, e₁, e₂, hqueued, htrace, hhappens⟩ :=
      (hstart.performAll ops).trace.moment hpast
    cases hhappens with
    | told hproper hqueue =>
        have hshown := (htrace.shown.react notice (e₁.react notice).session.view).toInt_window
        rwa [List.filterMap_append] at hshown
  · rintro ops' p' rfl hsame
    rw [← Int32.toInt_inj, hwindow, hwindow, hsame]

/-- A new session of version 3. -/
def modern : Endpoint .identity :=
  { newcomer with session := { newcomer.session with version := .v3 } }

/-- Settings announce two windows, the second one larger than a window can be, and then something else;
later ones announce nothing. -/
theorem modern_window :
    ∃ p, (Run.start modern).performAll
        [.receive talkative ⟨some .v3, .settings true [⟨7, 0, 5⟩, ⟨7, 1, 0xffffffff⟩, ⟨4, 0, 9⟩]⟩,
          .call .ping, .receive polite ⟨some .v2, .settings false [⟨0x01000007, 0, 3⟩]⟩,
          .receive talkative ⟨some .v3, .windowUpdate 0 8⟩] = p ∧
      p.endpoint.session.window.toInt = 2147483647 :=
  ⟨_, rfl, (window_is_last_announced rfl).1.trans rfl⟩

end Endpoint

end SpdySessions
