import SpdySessions.Json.Basic

/-!
Numbers in JSON. A number that is read for its value is a natural number below 2^64 or something
else that no setting takes; one too large for a double is no number at all. The size is judged as a
reader of doubles does: the leading digits that fit 64 bits, rounded, times a rounded power of ten.
-/

namespace SpdySessions.Json

/-- A number as far as settings care. -/
inductive Number where
  | natural (n : UInt64)
  /-- A negative number, a fraction, an exponent, or too many digits. -/
  | other
  deriving DecidableEq

/-- The leading digits of a number and the power of ten that they stand for. -/
structure Scientific where
  significand : Nat
  exponent : Int

namespace Scientific

/-- The largest significand. -/
def limit : Nat := 0xffffffffffffffff

/-- One more digit before the point, unless it no longer fits: then it only counts. -/
def beforePoint (s : Scientific) (digit : Nat) : Scientific :=
  if s.exponent = 0 ∧ s.significand * 10 + digit ≤ limit then
    { s with significand := s.significand * 10 + digit }
  else { s with exponent := s.exponent + 1 }

/-- The digits behind the point, up to the first that no longer fits. -/
def behindPoint (s : Scientific) : List Nat → Scientific
  | [] => s
  | digit :: rest =>
      if s.significand * 10 + digit ≤ limit then
        behindPoint ⟨s.significand * 10 + digit, s.exponent - 1⟩ rest
      else s

/-- The double nearest to a whole number, ties to the even neighbour, without a largest double. -/
def nearestDouble (n : Nat) : Nat :=
  let unit := Nat.pow 2 (n.log2 - 52)
  let down := n / unit
  let twice := 2 * (n % unit)
  (if twice < unit ∨ (twice = unit ∧ down % 2 = 0) then down else down + 1) * unit

/-- No double is that large. -/
def overflows (s : Scientific) : Bool :=
  s.significand ≠ 0 ∧
    (308 < s.exponent ∨ (0 ≤ s.exponent ∧
      Nat.pow 2 1024 - Nat.pow 2 970 ≤
        nearestDouble s.significand * nearestDouble (Nat.pow 10 s.exponent.toNat)))

end Scientific

def digitValue (c : Char) : Nat := c.toNat - '0'.toNat

/-- The leading digits of a text, and what follows them. -/
def digits (text : List Char) : List Char × List Char :=
  (text.takeWhile Char.isDigit, text.dropWhile Char.isDigit)

theorem length_digits (text : List Char) :
    text.length = (digits text).1.length + (digits text).2.length := by
  rw [← List.length_append, digits, List.takeWhile_append_dropWhile]

/-- How a text fails where a digit has to stand. -/
def noDigit : List Char → JsonFault
  | [] => .eof
  | _ => .grammar

/-- The digits before the point. A leading zero stands alone. -/
def wholePart (text : List Char) : Reading (List Char) :=
  match digits text with
  | ([], rest) => .error (noDigit rest)
  | ('0' :: _ :: _, _) => .error .grammar
  | (ds, rest) => .ok (ds, rest)

/-- The digits behind a point, if there is one. -/
def fraction : List Char → Reading (Option (List Char))
  | '.' :: text =>
      match digits text with
      | ([], rest) => .error (noDigit rest)
      | (ds, rest) => .ok (some ds, rest)
  | text => .ok (none, text)

/-- The sign of an exponent: whether it is a minus, and the text behind it. -/
def exponentSign : List Char → Bool × List Char
  | '-' :: rest => (true, rest)
  | '+' :: rest => (false, rest)
  | text => (false, text)

def digitsValue (ds : List Char) : Nat :=
  ds.foldl (fun n c => n * 10 + digitValue c) 0

/-- The exponent, if there is one. -/
def exponent : List Char → Reading (Option Int)
  | e :: text =>
      if e = 'e' ∨ e = 'E' then
        match digits (exponentSign text).2 with
        | ([], rest) => .error (noDigit rest)
        | (ds, rest) =>
            let value : Int := digitsValue ds
            .ok (some (if (exponentSign text).1 then -value else value), rest)
      else .ok (none, e :: text)
  | [] => .ok (none, [])

theorem length_wholePart {text rest ds : List Char} (h : wholePart text = .ok (ds, rest)) :
    rest.length < text.length := by
  have hlen := length_digits text
  unfold wholePart at h
  split at h
  · cases h
  · cases h
  · rename_i found behind hne _ heq
    simp only [Except.ok.injEq, Prod.mk.injEq] at h
    obtain ⟨rfl, rfl⟩ := h
    rw [heq] at hlen
    have : found.length ≠ 0 := fun h0 => hne (List.eq_nil_of_length_eq_zero h0)
    simp only at hlen
    omega

theorem length_fraction {text rest : List Char} {ds : Option (List Char)}
    (h : fraction text = .ok (ds, rest)) : rest.length ≤ text.length := by
  unfold fraction at h
  split at h
  · rename_i behind
    have hlen := length_digits behind
    split at h
    · cases h
    · rename_i heq
      simp only [Except.ok.injEq, Prod.mk.injEq] at h
      obtain ⟨-, rfl⟩ := h
      rw [heq] at hlen
      simp only [List.length_cons] at *
      omega
  · cases h; exact Nat.le_refl _

theorem length_exponentSign_le (text : List Char) :
    (exponentSign text).2.length ≤ text.length := by
  unfold exponentSign
  split <;> simp

theorem length_exponent {text rest : List Char} {n : Option Int}
    (h : exponent text = .ok (n, rest)) : rest.length ≤ text.length := by
  unfold exponent at h
  split at h
  · rename_i e behind
    split at h
    · have hsign := length_exponentSign_le behind
      have hlen := length_digits (exponentSign behind).2
      split at h
      · cases h
      · rename_i heq
        simp only [Except.ok.injEq, Prod.mk.injEq] at h
        obtain ⟨-, rfl⟩ := h
        rw [heq] at hlen
        simp only [List.length_cons] at *
        omega
    · cases h; exact Nat.le_refl _
  · cases h; exact Nat.le_refl _

/-- The parts of a number without its sign. -/
structure Parts where
  whole : List Char
  fraction : Option (List Char)
  exponent : Option Int

/-- Reads a number's parts one after the other. -/
def parts (text : List Char) : Reading Parts :=
  match wholePart text with
  | .error fault => .error fault
  | .ok (whole, text) =>
      match fraction text with
      | .error fault => .error fault
      | .ok (part, text) =>
          match exponent text with
          | .error fault => .error fault
          | .ok (power, text) => .ok (⟨whole, part, power⟩, text)

theorem length_parts {text rest : List Char} {p : Parts} (h : parts text = .ok (p, rest)) :
    rest.length < text.length := by
  unfold parts at h
  split at h
  · cases h
  · rename_i hw
    have := length_wholePart hw
    split at h
    · cases h
    · rename_i hf
      have := length_fraction hf
      split at h
      · cases h
      · rename_i he
        have := length_exponent he
        simp only [Except.ok.injEq, Prod.mk.injEq] at h
        obtain ⟨-, rfl⟩ := h
        omega

/-- The value of a number's parts, unless it is too large for a double. -/
def Parts.value? (p : Parts) (negative : Bool) : Option Number :=
  let leading := (p.whole.map digitValue).foldl Scientific.beforePoint ⟨0, 0⟩
  if leading.exponent = 0 ∧ p.fraction = none ∧ p.exponent = none then
    some (if negative then .other else .natural (UInt64.ofNat leading.significand))
  else
    let scaled := leading.behindPoint ((p.fraction.getD []).map digitValue)
    if Scientific.overflows ⟨scaled.significand, scaled.exponent + p.exponent.getD 0⟩ then none
    else some .other

/-- The sign of a number: whether it is there, and the text behind it. -/
def minus : List Char → Bool × List Char
  | '-' :: rest => (true, rest)
  | text => (false, text)

theorem length_minus_le (text : List Char) : (minus text).2.length ≤ text.length := by
  unfold minus
  split <;> simp

/-- Reads a number from its sign or first digit on. -/
def readNumber (text : List Char) : Reading Number :=
  match parts (minus text).2 with
  | .error fault => .error fault
  | .ok (p, rest) =>
      match p.value? (minus text).1 with
      | none => .error .grammar
      | some n => .ok (n, rest)

/-- Passes over a number. One that breaks off at the end of the text breaks the grammar, as there is
no waiting for more. -/
def skipNumber (text : List Char) : Except JsonFault (List Char) :=
  match parts (minus text).2 with
  | .error _ => .error .grammar
  | .ok (_, rest) => .ok rest

theorem length_skipNumber {text rest : List Char} (h : skipNumber text = .ok rest) :
    rest.length < text.length := by
  have := length_minus_le text
  unfold skipNumber at h
  split at h
  · cases h
  · rename_i hp
    have := length_parts hp
    cases h
    omega

end SpdySessions.Json
