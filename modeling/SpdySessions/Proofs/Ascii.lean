import Mathlib.Algebra.Group.Nat.Defs
import SpdySessions.Utf8

/-! Plain text as bytes. Bytes that are no text are replaced, and what is written in more than one byte
is beyond the first half of a byte: so the only bytes that are read as a plain text are its own. The
invariant is on a character that has begun: however it goes on, it ends as a character beyond plain
text, or is replaced by one. -/

namespace SpdySessions.Utf8

/-- All characters are among the first 128. -/
def Plain (chars : List Char) : Prop :=
  ∀ c ∈ chars, c.toNat < 0x80

instance (chars : List Char) : Decidable (Plain chars) :=
  inferInstanceAs (Decidable (∀ c ∈ chars, c.toNat < 0x80))

/-- The bytes of a plain text. -/
def plainBytes (chars : List Char) : Bytes :=
  chars.map fun c => UInt8.ofNat c.toNat

/-- The least and the greatest number that a character which has begun may end with. -/
def Begun.least (c : Begun) : Nat :=
  (c.value * 0x40 + (c.low - 0x80)) * 0x40 ^ c.more

def Begun.greatest (c : Begun) : Nat :=
  (c.value * 0x40 + (c.high - 0x80) + 1) * 0x40 ^ c.more - 1

/-- A character that has begun will be beyond plain text, and no surrogate. -/
structure Begun.Wide (c : Begun) : Prop where
  least : 0x80 ≤ c.least
  valid : c.greatest < 0xD800 ∨ 0xE000 ≤ c.least ∧ c.greatest < 0x110000

theorem toNat_ofNat {n : Nat} (h : n < 0xD800 ∨ 0xE000 ≤ n ∧ n < 0x110000) :
    (Char.ofNat n).toNat = n := by
  have hvalid : n.isValidChar := by
    unfold Nat.isValidChar
    omega
  rw [Char.ofNat, dif_pos hvalid]
  rfl

section

variable {c : Begun} {b : Nat}

/-- The last byte of a character, -/
theorem Begun.Wide.last (h : c.Wide) (hmore : c.more = 0) (hlow : c.low ≤ b) (hhigh : b ≤ c.high) :
    0x80 ≤ (Char.ofNat (c.value * 0x40 + (b - 0x80))).toNat := by
  obtain ⟨hleast, hvalid⟩ := h
  rw [Begun.least, hmore] at hleast
  rw [Begun.least, Begun.greatest, hmore] at hvalid
  rw [toNat_ofNat] <;> omega

/-- and one in the middle. -/
theorem Begun.Wide.next (h : c.Wide) (hmore : c.more ≠ 0) (hlow : c.low ≤ b) (hhigh : b ≤ c.high) :
    Begun.Wide ⟨c.value * 0x40 + (b - 0x80), 0x80, 0xBF, c.more - 1⟩ := by
  obtain ⟨n, hn⟩ : ∃ n, c.more = n + 1 := ⟨c.more - 1, by omega⟩
  have hleast : c.least ≤ Begun.least ⟨c.value * 0x40 + (b - 0x80), 0x80, 0xBF, c.more - 1⟩ := by
    rw [Begun.least, Begun.least, hn, Nat.pow_succ, Nat.add_sub_cancel, Nat.mul_comm (0x40 ^ n),
      ← Nat.mul_assoc]
    exact Nat.mul_le_mul_right _ (by dsimp only; omega)
  have hgreatest : Begun.greatest ⟨c.value * 0x40 + (b - 0x80), 0x80, 0xBF, c.more - 1⟩ ≤
      c.greatest := by
    rw [Begun.greatest, Begun.greatest, hn, Nat.pow_succ, Nat.add_sub_cancel, Nat.mul_comm (0x40 ^ n),
      ← Nat.mul_assoc]
    exact Nat.sub_le_sub_right (Nat.mul_le_mul_right _ (by dsimp only; omega)) 1
  exact
    { least := Nat.le_trans h.least hleast
      valid := h.valid.imp (Nat.lt_of_le_of_lt hgreatest) fun ⟨hover, hbelow⟩ =>
        ⟨Nat.le_trans hover hleast, Nat.lt_of_le_of_lt hgreatest hbelow⟩ }

end

end SpdySessions.Utf8
