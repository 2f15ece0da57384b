import SpdySessions.Connector

/-! The books of a connector. A channel whose promise waits stands in two of the three lists, one that
carries a connection in two others; no entry of a connector changes that, and a connector that has been
stopped has nothing to wait for. -/

namespace SpdySessions.Connector

/-- The promise of a channel waits for a session, and the channel is tracked. -/
def Waits (c : Connector) (id : ChannelId) : Prop :=
  id ∈ c.pending ∧ id ∈ c.channels

/-- Only channels below a number are in the books, nobody waits for what carries a connection already,
and nothing waits in a connector that is not running. -/
structure Balanced (c : Connector) (made : Nat) : Prop where
  channels : ∀ id ∈ c.channels, id < made
  pending : ∀ id ∈ c.pending, id < made
  opened : ∀ id ∈ c.opened, id < made
  disjoint : ∀ id ∈ c.pending, id ∉ c.opened
  stopped : c.running = false → c.channels = [] ∧ c.pending = []

variable {c : Connector} {made : Nat} {id other : ChannelId} {ids : List ChannelId}

/-! ### Lists of numbers -/

theorem mem_enter : other ∈ enter id ids ↔ other ∈ ids ∨ other = id := by
  unfold enter
  split
  · rename_i hid
    constructor
    · exact Or.inl
    · rintro (h | rfl)
      · exact h
      · exact hid
  · rw [List.mem_append, List.mem_singleton]

theorem mem_strike : other ∈ strike id ids ↔ other ∈ ids ∧ other ≠ id := by
  rw [strike, List.mem_filter, decide_eq_true_iff]

theorem strike_of_not_mem (h : id ∉ ids) : strike id ids = ids := by
  rw [strike, List.filter_eq_self]
  intro other hother
  rw [decide_eq_true_iff]
  rintro rfl
  exact h hother

theorem strike_enter (h : id ∉ ids) : strike id (enter id ids) = ids := by
  have hself : strike id [id] = [] := by
    rw [strike, List.filter_eq_nil_iff]
    intro other hother
    rw [List.mem_singleton.mp hother, decide_eq_true_iff]
    exact fun hne => hne rfl
  have hids := strike_of_not_mem h
  rw [strike] at hids hself
  rw [enter, if_neg h, strike, List.filter_append, hids, hself, List.append_nil]

theorem nodup_enter (h : ids.Nodup) (id : ChannelId) : (enter id ids).Nodup := by
  unfold enter
  split
  · exact h
  · rename_i hid
    rw [List.nodup_append]
    refine ⟨h, List.nodup_cons.mpr ⟨List.not_mem_nil, List.nodup_nil⟩, fun other hother last hlast => ?_⟩
    rintro rfl
    exact hid (List.mem_singleton.mp hlast ▸ hother)

/-! ### Entries -/

theorem balanced_new (made : Nat) : Balanced {} made where
  channels := fun _ h => absurd h List.not_mem_nil
  pending := fun _ h => absurd h List.not_mem_nil
  opened := fun _ h => absurd h List.not_mem_nil
  disjoint := fun _ h => absurd h List.not_mem_nil
  stopped := fun h => absurd h Bool.noConfusion

theorem Balanced.mono {made' : Nat} (h : c.Balanced made) (hmade : made ≤ made') :
    c.Balanced made' where
  channels := fun id hid => Nat.lt_of_lt_of_le (h.channels id hid) hmade
  pending := fun id hid => Nat.lt_of_lt_of_le (h.pending id hid) hmade
  opened := fun id hid => Nat.lt_of_lt_of_le (h.opened id hid) hmade
  disjoint := h.disjoint
  stopped := h.stopped

theorem Balanced.forget (h : c.Balanced made) (id : ChannelId) : (c.forget id).Balanced made where
  channels := fun other hother => h.channels other (mem_strike.mp hother).1
  pending := fun other hother => h.pending other (mem_strike.mp hother).1
  opened := fun other hother => h.opened other (mem_strike.mp hother).1
  disjoint := fun other hother hopened =>
    h.disjoint other (mem_strike.mp hother).1 (mem_strike.mp hopened).1
  stopped := fun hrunning => by
    obtain ⟨hchannels, hpending⟩ := h.stopped hrunning
    show strike id c.channels = [] ∧ strike id c.pending = []
    rw [hchannels, hpending]
    exact ⟨rfl, rfl⟩

theorem Balanced.markOpened (h : c.Balanced made) (hid : id < made) :
    (c.markOpened id).Balanced made where
  channels := h.channels
  pending := fun other hother => h.pending other (mem_strike.mp hother).1
  opened := fun other hother => by
    rcases mem_enter.mp hother with hother | rfl
    · exact h.opened other hother
    · exact hid
  disjoint := fun other hother hopened => by
    obtain ⟨hpending, hne⟩ := mem_strike.mp hother
    rcases mem_enter.mp hopened with hopened | rfl
    · exact h.disjoint other hpending hopened
    · exact hne rfl
  stopped := fun hrunning => by
    obtain ⟨hchannels, hpending⟩ := h.stopped hrunning
    show c.channels = [] ∧ strike id c.pending = []
    rw [hchannels, hpending]
    exact ⟨rfl, rfl⟩

theorem Balanced.abandon (h : c.Balanced made) : c.abandon.Balanced made :=
  ⟨h.channels, h.pending, h.opened, h.disjoint, h.stopped⟩

theorem balanced_stop (c : Connector) (made : Nat) : c.stop.Balanced made where
  channels := fun _ h => absurd h List.not_mem_nil
  pending := fun _ h => absurd h List.not_mem_nil
  opened := fun _ h => absurd h List.not_mem_nil
  disjoint := fun _ h => absurd h List.not_mem_nil
  stopped := fun _ => ⟨rfl, rfl⟩

/-- Others wait as before when a channel is forgotten. -/
theorem Waits.forget (h : c.Waits other) (hne : other ≠ id) : (c.forget id).Waits other :=
  ⟨mem_strike.mpr ⟨h.1, hne⟩, mem_strike.mpr ⟨h.2, hne⟩⟩

theorem Waits.markOpened (h : c.Waits other) (hne : other ≠ id) : (c.markOpened id).Waits other :=
  ⟨mem_strike.mpr ⟨h.1, hne⟩, h.2⟩

/-! ### Registration -/

/-- A connector that accepts a new channel tracks it, waits for it, and for the others as before. -/
theorem register_ok {c' : Connector} (h : c.register id = (.ok (), c')) (hb : c.Balanced id) :
    c'.Balanced (id + 1) ∧ c'.Waits id ∧ (∀ other, c.Waits other → c'.Waits other) ∧
      c'.running = c.running := by
  unfold register at h
  split at h
  · rename_i hrunning
    dsimp only at h
    split at h
    · obtain rfl := (Prod.mk.inj h).2
      refine ⟨⟨?_, ?_, ?_, ?_, ?_⟩, ⟨mem_enter.mpr (Or.inr rfl), mem_enter.mpr (Or.inr rfl)⟩, ?_, rfl⟩
      · intro other hother
        rcases mem_enter.mp hother with hother | rfl
        · exact Nat.lt_succ_of_lt (hb.channels other hother)
        · exact Nat.lt_succ_self other
      · intro other hother
        rcases mem_enter.mp hother with hother | rfl
        · exact Nat.lt_succ_of_lt (hb.pending other hother)
        · exact Nat.lt_succ_self other
      · exact fun other hother => Nat.lt_succ_of_lt (hb.opened other hother)
      · intro other hother hopened
        rcases mem_enter.mp hother with hother | rfl
        · exact hb.disjoint other hother hopened
        · exact Nat.lt_irrefl other (hb.opened other hopened)
      · intro hstopped
        rw [hrunning] at hstopped
        cases hstopped
      · exact fun other hother =>
          ⟨mem_enter.mpr (Or.inl hother.1), mem_enter.mpr (Or.inl hother.2)⟩
    · cases h
  · cases h

/-- A connector that refuses a new channel is left as it was. -/
theorem register_error {c' : Connector} {cause : Fault} (h : c.register id = (.error cause, c'))
    (hb : c.Balanced id) : c' = c := by
  unfold register at h
  split at h
  · dsimp only at h
    split at h
    · cases h
    · obtain rfl := (Prod.mk.inj h).2
      have hchannels : id ∉ c.channels := fun hid => Nat.lt_irrefl id (hb.channels id hid)
      have hpending : id ∉ c.pending := fun hid => Nat.lt_irrefl id (hb.pending id hid)
      have hopened : id ∉ c.opened := fun hid => Nat.lt_irrefl id (hb.opened id hid)
      simp only [forget, strike_enter hchannels, strike_enter hpending, strike_of_not_mem hopened]
  · exact (Prod.mk.inj h).2.symm

end SpdySessions.Connector
