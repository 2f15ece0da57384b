import SpdySessions.Proofs.Json.Passing

/-! Natural numbers as they are printed. A printed number has no leading zero and its digits add up to it
again; as no part of it is larger than the whole, a reader that counts digits once 64 bits are full never
gets to that. -/

namespace SpdySessions.Json

/-- The digits of a number as it is printed. -/
def decimal (n : UInt64) : List Char :=
  (toString n.toNat).toList

theorem decimal_eq (n : UInt64) : decimal n = Nat.toDigits 10 n.toNat := by
  rw [decimal, Nat.toString_eq_repr, Nat.toList_repr]

/-! ### The digits -/

theorem exists_first_digit {n : Nat} (hn : n ≠ 0) :
    ∃ c rest, Nat.toDigits 10 n = c :: rest ∧ c ≠ '0' := by
  induction n using Nat.strongRecOn with
  | _ n ih =>
  rw [Nat.toDigits_eq_if (by decide)]
  by_cases hsmall : n < 10
  · exact ⟨n.digitChar, [], if_pos hsmall, fun hzero => hn (Nat.digitChar_eq_zero.mp hzero)⟩
  · obtain ⟨c, rest, hdigits, hc⟩ := ih (n / 10) (by omega) (by omega)
    exact ⟨c, rest ++ [(n % 10).digitChar], by rw [if_neg hsmall, hdigits, List.cons_append], hc⟩

theorem whole_toDigits (n : Nat) : Whole (Nat.toDigits 10 n) := by
  by_cases hn : n = 0
  · rw [hn]
    exact .zero
  · obtain ⟨c, rest, hdigits, hc⟩ := exists_first_digit hn
    rw [hdigits]
    refine .digits hc ⟨List.cons_ne_nil c rest, fun d hd => ?_⟩
    rw [← hdigits] at hd
    exact Nat.isDigit_of_mem_toDigits (by decide) (by decide) hd

/-! ### Their value -/

theorem le_foldl_digits (ds : List Nat) (m : Nat) : m ≤ ds.foldl (fun n d => n * 10 + d) m := by
  induction ds generalizing m with
  | nil => exact Nat.le_refl m
  | cons d ds ih =>
      have hle := ih (m * 10 + d)
      rw [List.foldl_cons]
      omega

theorem foldl_beforePoint {ds : List Nat} {m : Nat}
    (h : ds.foldl (fun n d => n * 10 + d) m ≤ Scientific.limit) :
    ds.foldl Scientific.beforePoint ⟨m, 0⟩ = ⟨ds.foldl (fun n d => n * 10 + d) m, 0⟩ := by
  induction ds generalizing m with
  | nil => rfl
  | cons d ds ih =>
      have hfits : m * 10 + d ≤ Scientific.limit := Nat.le_trans (le_foldl_digits ds (m * 10 + d)) h
      have hstep : Scientific.beforePoint ⟨m, 0⟩ d = ⟨m * 10 + d, 0⟩ := if_pos ⟨rfl, hfits⟩
      rw [List.foldl_cons, hstep, ih h, List.foldl_cons]

theorem foldl_toDigits (n : Nat) :
    ((Nat.toDigits 10 n).map digitValue).foldl (fun n d => n * 10 + d) 0 = n := by
  have hstep : (fun n c => n * 10 + digitValue c) = fun n c => 10 * n + (c.toNat - '0'.toNat) := by
    funext n c
    rw [Nat.mul_comm, digitValue]
  rw [List.foldl_map, hstep]
  exact Nat.ofDigitChars_toDigits (by decide) (by decide)

theorem value?_decimal (n : UInt64) :
    Parts.value? ⟨decimal n, none, none⟩ false = some (.natural n) := by
  have hn := n.toNat_lt
  have hfold : ((decimal n).map digitValue).foldl Scientific.beforePoint ⟨0, 0⟩ = ⟨n.toNat, 0⟩ := by
    rw [decimal_eq, foldl_beforePoint, foldl_toDigits]
    rw [foldl_toDigits, Scientific.limit]
    omega
  rw [Parts.value?, hfold]
  dsimp only
  rw [if_pos ⟨rfl, rfl, rfl⟩, UInt64.ofNat_toNat]
  rfl

/-! ### Reading them -/

theorem parts_decimal (n : UInt64) {rest : List Char} (hrest : Delimited rest) :
    parts (decimal n ++ rest) = .ok (⟨decimal n, none, none⟩, rest) := by
  have hwhole : Whole (decimal n) := by
    rw [decimal_eq]
    exact whole_toDigits n.toNat
  have hpoint : ∀ behind, rest ≠ '.' :: behind := (Exponent.none.append_head hrest).2
  rw [parts, wholePart_append hwhole hrest.noDigit]
  dsimp only
  rw [fraction_none hpoint]
  dsimp only
  rw [exponent_none hrest]

theorem head_decimal (n : UInt64) : ∃ c rest, decimal n = c :: rest ∧ c.isDigit = true := by
  rw [decimal_eq]
  exact (whole_toDigits n.toNat).head

theorem readNumber_decimal (n : UInt64) {rest : List Char} (hrest : Delimited rest) :
    readNumber (decimal n ++ rest) = .ok (.natural n, rest) := by
  have hminus : minus (decimal n ++ rest) = (false, decimal n ++ rest) := by
    obtain ⟨c, more, hdecimal, hc⟩ := head_decimal n
    rw [hdecimal]
    exact minus_of_digit hc _
  rw [readNumber, hminus]
  dsimp only
  rw [parts_decimal n hrest]
  dsimp only
  rw [value?_decimal]

theorem readNatural_decimal {n limit : UInt64} (hn : n ≤ limit) {b rest : List Char} (hb : Blanks b)
    (hrest : Delimited rest) : readNatural limit (b ++ (decimal n ++ rest)) = .ok (n, rest) := by
  have hnumber := readNumber_decimal n hrest
  obtain ⟨c, more, hdecimal, hc⟩ := head_decimal n
  rw [hdecimal, List.cons_append] at hnumber
  rw [readNatural, hdecimal, List.cons_append, skipBlank_append hb,
    skipBlank_cons (not_mem_blanks (not_mem_delimiters (.inr hc)))]
  dsimp only
  rw [if_pos (.inr hc), hnumber]
  exact if_pos hn

/-- A count that may be missing, as it is printed. -/
def optionalDecimal : Option UInt64 → List Char
  | none => ['n', 'u', 'l', 'l']
  | some n => decimal n

theorem readOptional_decimal {n : Option UInt64} {limit : UInt64} (hn : ∀ m ∈ n, m ≤ limit)
    {b rest : List Char} (hb : Blanks b) (hrest : Delimited rest) :
    readOptional limit (b ++ (optionalDecimal n ++ rest)) = .ok (n, rest) := by
  cases n with
  | none =>
      rw [readOptional, skipBlank_append hb, optionalDecimal, List.cons_append, skipBlank_cons (by decide)]
      rfl
  | some n =>
      have hnatural := readNatural_decimal (hn n rfl) hb hrest
      obtain ⟨c, more, hdecimal, hc⟩ := head_decimal n
      have hstart : skipBlank (b ++ (decimal n ++ rest)) = c :: (more ++ rest) := by
        rw [hdecimal, List.cons_append, skipBlank_append hb,
          skipBlank_cons (not_mem_blanks (not_mem_delimiters (.inr hc)))]
      rw [readOptional, optionalDecimal, hstart, hnatural]
      split
      · rename_i heq
        exact absurd (List.cons.inj heq).1 (ne_of_number (.inr hc) 'n' (by decide))
      · rfl

end SpdySessions.Json
