import SpdySessions.Bytes

/-!
Bytes as text. Where bytes are no text, a replacement character stands for each longest run of them
that could have begun a character.
-/

namespace SpdySessions.Utf8

/-- A character that has begun: its bits so far, the bounds of the next byte, and how many bytes
come after that. -/
structure Begun where
  value : Nat
  low : Nat
  high : Nat
  more : Nat

/-- The character that a byte begins. The bounds leave out surrogates, everything beyond the last
character and what could have been written shorter. -/
def begin? (b : UInt8) : Option Begun :=
  let n := b.toNat
  if n < 0xC2 then none
  else if n < 0xE0 then some ⟨n - 0xC0, 0x80, 0xBF, 0⟩
  else if n = 0xE0 then some ⟨0, 0xA0, 0xBF, 1⟩
  else if n = 0xED then some ⟨0xD, 0x80, 0x9F, 1⟩
  else if n < 0xF0 then some ⟨n - 0xE0, 0x80, 0xBF, 1⟩
  else if n = 0xF0 then some ⟨0, 0x90, 0xBF, 2⟩
  else if n < 0xF4 then some ⟨n - 0xF0, 0x80, 0xBF, 2⟩
  else if n = 0xF4 then some ⟨4, 0x80, 0x8F, 2⟩
  else none

/-- The replacement character. -/
def replacement : Char := '\uFFFD'

/-- Reads bytes as text, from within a character if one has begun. -/
def decodeFrom : Option Begun → Bytes → List Char
  | none, [] => []
  | some _, [] => [replacement]
  | begun, b :: rest =>
      let afresh :=
        if b.toNat < 0x80 then Char.ofNat b.toNat :: decodeFrom none rest
        else
          match begin? b with
          | none => replacement :: decodeFrom none rest
          | some next => decodeFrom (some next) rest
      match begun with
      | none => afresh
      | some c =>
          if b.toNat < c.low ∨ c.high < b.toNat then replacement :: afresh
          else
            let value := c.value * 0x40 + (b.toNat - 0x80)
            if c.more = 0 then Char.ofNat value :: decodeFrom none rest
            else decodeFrom (some ⟨value, 0x80, 0xBF, c.more - 1⟩) rest

def decode (bytes : Bytes) : String :=
  String.ofList (decodeFrom none bytes)

end SpdySessions.Utf8
