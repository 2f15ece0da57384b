/-!
Byte strings and the fixed-width words inside them. A word is written with its high byte first;
`word16_be16`, `word24_be24` and `word32_be32` say that reading gives back what was written (24 bits
of it in the three-byte form).
-/

namespace SpdySessions

/-- A run of bytes, first byte first. -/
abbrev Bytes := List UInt8

namespace Bytes

/-- The two bytes of a word, high byte first. -/
def be16 (w : UInt16) : Bytes :=
  [UInt8.ofNat (w.toNat / 0x100), UInt8.ofNat w.toNat]

/-- The low three bytes of a word, high byte first. -/
def be24 (w : UInt32) : Bytes :=
  [UInt8.ofNat (w.toNat / 0x10000), UInt8.ofNat (w.toNat / 0x100), UInt8.ofNat w.toNat]

/-- The four bytes of a word, high byte first. -/
def be32 (w : UInt32) : Bytes :=
  UInt8.ofNat (w.toNat / 0x1000000) :: be24 w

/-- The word with these bytes, high byte first. -/
def word16 (a b : UInt8) : UInt16 :=
  UInt16.ofNat (a.toNat * 0x100 + b.toNat)

/-- The 24-bit number with these bytes, high byte first. -/
def word24 (a b c : UInt8) : UInt32 :=
  UInt32.ofNat (a.toNat * 0x10000 + b.toNat * 0x100 + c.toNat)

/-- The word with these bytes, high byte first. -/
def word32 (a b c d : UInt8) : UInt32 :=
  UInt32.ofNat (a.toNat * 0x1000000 + b.toNat * 0x10000 + c.toNat * 0x100 + d.toNat)

/-- There are at least `n` bytes. Looks no further than that. -/
def atLeast : Nat → Bytes → Bool
  | 0, _ => true
  | _ + 1, [] => false
  | n + 1, _ :: rest => atLeast n rest

theorem atLeast_iff (n : Nat) (bytes : Bytes) : atLeast n bytes = true ↔ n ≤ bytes.length := by
  induction bytes generalizing n with
  | nil => cases n <;> simp [atLeast]
  | cons b rest ih => cases n <;> simp [atLeast, ih]

@[simp] theorem length_be16 (w : UInt16) : (be16 w).length = 2 := rfl

@[simp] theorem length_be24 (w : UInt32) : (be24 w).length = 3 := rfl

@[simp] theorem length_be32 (w : UInt32) : (be32 w).length = 4 := rfl

theorem word16_be16 (w : UInt16) :
    word16 (UInt8.ofNat (w.toNat / 0x100)) (UInt8.ofNat w.toNat) = w := by
  apply UInt16.toNat_inj.mp
  have h := w.toNat_lt
  simp only [word16, UInt16.toNat_ofNat', UInt8.toNat_ofNat']
  omega

theorem word24_be24 (w : UInt32) :
    (word24 (UInt8.ofNat (w.toNat / 0x10000)) (UInt8.ofNat (w.toNat / 0x100))
      (UInt8.ofNat w.toNat)).toNat = w.toNat % 0x1000000 := by
  have h := w.toNat_lt
  simp only [word24, UInt32.toNat_ofNat', UInt8.toNat_ofNat']
  omega

theorem word32_be32 (w : UInt32) :
    word32 (UInt8.ofNat (w.toNat / 0x1000000)) (UInt8.ofNat (w.toNat / 0x10000))
      (UInt8.ofNat (w.toNat / 0x100)) (UInt8.ofNat w.toNat) = w := by
  apply UInt32.toNat_inj.mp
  have h := w.toNat_lt
  simp only [word32, UInt32.toNat_ofNat', UInt8.toNat_ofNat']
  omega

end Bytes

/-- The low 31 bits of a word: stream numbers and window increments leave the top bit reserved. -/
def low31 (w : UInt32) : UInt32 :=
  UInt32.ofNat (w.toNat % 0x80000000)

theorem toNat_low31 (w : UInt32) : (low31 w).toNat = w.toNat % 0x80000000 := by
  have h := w.toNat_lt
  simp only [low31, UInt32.toNat_ofNat']
  omega

end SpdySessions
