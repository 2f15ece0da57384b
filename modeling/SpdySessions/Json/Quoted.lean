import SpdySessions.Json.Basic

/-!
Strings in JSON, from behind the opening quote to the closing one. A member's name is decoded, and
its escapes have to stand for characters; a string that nobody asked for is only checked for its
form, and there any four hex digits do.
-/

namespace SpdySessions.Json

def hexValue? (c : Char) : Option Nat :=
  if '0' ≤ c ∧ c ≤ '9' then some (c.toNat - '0'.toNat)
  else if 'a' ≤ c ∧ c ≤ 'f' then some (c.toNat - 'a'.toNat + 10)
  else if 'A' ≤ c ∧ c ≤ 'F' then some (c.toNat - 'A'.toNat + 10)
  else none

/-- The number that four hex digits stand for. -/
def hexValue4? (a b c d : Char) : Option Nat := do
  return (((← hexValue? a) * 16 + (← hexValue? b)) * 16 + (← hexValue? c)) * 16 + (← hexValue? d)

/-- How a text fails that ends within four hex digits: it ends early, unless it still has the four
bytes that digits would take. -/
def hexCutShort (text : List Char) : JsonFault :=
  if (String.ofList text).utf8ByteSize < 4 then .eof else .grammar

/-- The character of a short escape. -/
def shortEscape? (c : Char) : Option Char :=
  if c = '"' ∨ c = '\\' ∨ c = '/' then some c
  else if c = 'b' then some '\x08'
  else if c = 'f' then some '\x0c'
  else if c = 'n' then some '\n'
  else if c = 'r' then some '\r'
  else if c = 't' then some '\t'
  else none

/-- Control characters have to be escaped. -/
def isControl (c : Char) : Bool :=
  c.toNat < 0x20

/-- Passes over a string and its closing quote. -/
def skipString : List Char → Except JsonFault (List Char)
  | [] => .error .eof
  | '"' :: rest => .ok rest
  | '\\' :: 'u' :: a :: b :: c :: d :: rest =>
      if (hexValue4? a b c d).isSome then skipString rest else .error .grammar
  | '\\' :: 'u' :: rest => .error (hexCutShort rest)
  | '\\' :: e :: rest => if (shortEscape? e).isSome then skipString rest else .error .grammar
  | ['\\'] => .error .eof
  | c :: rest => if isControl c then .error .grammar else skipString rest

theorem length_skipString {text rest : List Char} (h : skipString text = .ok rest) :
    rest.length < text.length := by
  fun_induction skipString text <;> simp_all <;> omega

/-- The second half of a character that takes two escapes, behind the first half `high`. -/
def lowHalf (high : Nat) : List Char → Reading Char
  | [] => .error .eof
  | ['\\'] => .error .eof
  | '\\' :: 'u' :: a :: b :: c :: d :: rest =>
      match hexValue4? a b c d with
      | none => .error .grammar
      | some low =>
          if 0xDC00 ≤ low ∧ low < 0xE000 then
            .ok (Char.ofNat (0x10000 + (high - 0xD800) * 0x400 + (low - 0xDC00)), rest)
          else .error .grammar
  | '\\' :: 'u' :: rest => .error (hexCutShort rest)
  | _ => .error .grammar

/-- The character of four hex digits and, where they are the first half of one, of the escape behind
them. -/
def escaped : List Char → Reading Char
  | a :: b :: c :: d :: rest =>
      match hexValue4? a b c d with
      | none => .error .grammar
      | some n =>
          if n < 0xD800 ∨ 0xE000 ≤ n then .ok (Char.ofNat n, rest)
          else if n < 0xDC00 then lowHalf n rest
          else .error .grammar
  | rest => .error (hexCutShort rest)

theorem length_lowHalf {high : Nat} {text rest : List Char} {c : Char}
    (h : lowHalf high text = .ok (c, rest)) : rest.length < text.length := by
  unfold lowHalf at h
  split at h
  · cases h
  · cases h
  · split at h
    · cases h
    · split at h
      · simp only [Except.ok.injEq, Prod.mk.injEq] at h
        obtain ⟨-, rfl⟩ := h
        simp only [List.length_cons]
        omega
      · cases h
  · cases h
  · cases h

theorem length_escaped {text rest : List Char} {c : Char} (h : escaped text = .ok (c, rest)) :
    rest.length < text.length := by
  unfold escaped at h
  split at h
  · split at h
    · cases h
    · split at h
      · simp only [Except.ok.injEq, Prod.mk.injEq] at h
        obtain ⟨-, rfl⟩ := h
        simp only [List.length_cons]
        omega
      · split at h
        · have := length_lowHalf h
          simp only [List.length_cons]
          omega
        · cases h
  · cases h

/-- Decodes a string up to its closing quote, behind the characters `before` in reverse. -/
def readString (before : List Char) (text : List Char) : Reading String :=
  match text with
  | [] => .error .eof
  | '"' :: rest => .ok (String.ofList before.reverse, rest)
  | '\\' :: 'u' :: rest =>
      match h : escaped rest with
      | .error fault => .error fault
      | .ok (c, behind) =>
          have := length_escaped h
          readString (c :: before) behind
  | '\\' :: e :: rest =>
      match shortEscape? e with
      | some c => readString (c :: before) rest
      | none => .error .grammar
  | ['\\'] => .error .eof
  | c :: rest => if isControl c then .error .grammar else readString (c :: before) rest
  termination_by text.length

theorem length_readString {before text rest : List Char} {s : String}
    (h : readString before text = .ok (s, rest)) : rest.length < text.length := by
  fun_induction readString before text <;> simp_all <;> omega

end SpdySessions.Json
