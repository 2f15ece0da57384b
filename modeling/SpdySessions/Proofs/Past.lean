import Mathlib.Data.List.Induction

/-! Pasts. What has happened is a list that grows at its end, and most of what is said about it has
the form that each entry fits the entries before it. -/

namespace SpdySessions

variable {α : Type}

/-- An entry of a longer past is the last one or was there before. -/
theorem cut_concat {past before after : List α} {x y : α} (h : past ++ [x] = before ++ y :: after) :
    (before = past ∧ y = x) ∨ ∃ after', after = after' ++ [x] ∧ past = before ++ y :: after' := by
  rcases List.eq_nil_or_concat after with rfl | ⟨after', last, rfl⟩
  · obtain ⟨hpast, hlast⟩ := List.append_inj' h rfl
    exact Or.inl ⟨hpast.symm, (List.singleton_inj.mp hlast).symm⟩
  · rw [List.concat_eq_append, ← List.cons_append, ← List.append_assoc] at h
    obtain ⟨hpast, hlast⟩ := List.append_inj' h rfl
    refine Or.inr ⟨after', ?_, hpast⟩
    rw [List.concat_eq_append, hlast]

/-- An entry after another one, with all that came before it. -/
theorem cut_after {past before after : List α} {x y : α} (h : past = before ++ x :: after)
    (hy : y ∈ after) :
    ∃ between later, after = between ++ y :: later ∧ past = (before ++ x :: between) ++ y :: later := by
  obtain ⟨between, later, rfl⟩ := List.append_of_mem hy
  exact ⟨between, later, rfl, by rw [h, List.append_assoc, List.cons_append]⟩

theorem pairwise_concat {r : α → α → Prop} {past : List α} {x : α} (h : past.Pairwise r)
    (hx : ∀ y ∈ past, r y x) : (past ++ [x]).Pairwise r := by
  refine List.pairwise_append.mpr ⟨h, List.pairwise_singleton r x, fun y hy z hz => ?_⟩
  rw [List.mem_singleton.mp hz]
  exact hx y hy

/-- Every entry of a past fits what came before it. -/
def EachFits (fits : List α → α → Prop) (past : List α) : Prop :=
  ∀ before x after, past = before ++ x :: after → fits before x

section

variable {fits : List α → α → Prop} {past : List α} {x : α}

theorem eachFits_nil (fits : List α → α → Prop) : EachFits fits [] := by
  intro before x after h
  simp at h

theorem EachFits.concat (h : EachFits fits past) (hx : fits past x) : EachFits fits (past ++ [x]) := by
  intro before y after hpast
  rcases cut_concat hpast with ⟨rfl, rfl⟩ | ⟨after', -, hbefore⟩
  · exact hx
  · exact h before y after' hbefore

theorem EachFits.left {more : List α} (h : EachFits fits (past ++ more)) : EachFits fits past := by
  intro before y after hpast
  exact h before y (after ++ more) (by rw [hpast, List.append_assoc, List.cons_append])

variable {p : α → Bool}

/-- What comes only where none of its kind came before comes once at most. -/
theorem countP_le_one (h : EachFits (fun before x => p x = true → ∀ y ∈ before, ¬p y = true) past) :
    past.countP p ≤ 1 := by
  induction past using List.reverseRecOn with
  | nil => simp
  | append_singleton past x ih =>
      have hfirst := h past x [] rfl
      by_cases hp : p x = true
      · have hnone : past.countP p = 0 := List.countP_eq_zero.mpr (hfirst hp)
        simp [hnone, hp]
      · simpa [hp] using ih h.left

theorem eq_of_countP_le_one (h : past.countP p ≤ 1) {y : α} (hx : x ∈ past) (hy : y ∈ past)
    (hpx : p x = true) (hpy : p y = true) : x = y := by
  have hone : ∃ z, past.filter p = [z] := by
    rw [← List.length_eq_one_iff, ← List.countP_eq_length_filter]
    exact Nat.le_antisymm h (List.countP_pos_iff.mpr ⟨x, hx, hpx⟩)
  obtain ⟨z, hz⟩ := hone
  have hx' : x ∈ past.filter p := List.mem_filter.mpr ⟨hx, hpx⟩
  have hy' : y ∈ past.filter p := List.mem_filter.mpr ⟨hy, hpy⟩
  rw [hz, List.mem_singleton] at hx' hy'
  rw [hx', hy']

end

end SpdySessions
