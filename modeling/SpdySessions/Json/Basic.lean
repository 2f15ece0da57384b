import SpdySessions.Fault

/-!
Reading JSON from left to right. A reader takes characters off the front and either gives what it
read with the characters behind it, or says how the text fails at the first place where it does.
-/

namespace SpdySessions.Json

/-- What a reader makes of a text: a value and the rest of the text, or a failure. -/
abbrev Reading (α : Type) := Except JsonFault (α × List Char)

/-- Space, tab, line feed and carriage return stand between tokens without a meaning. -/
def isBlank (c : Char) : Bool :=
  c = ' ' ∨ c = '\t' ∨ c = '\n' ∨ c = '\r'

/-- The text behind leading blanks. -/
def skipBlank (text : List Char) : List Char :=
  text.dropWhile isBlank

theorem length_skipBlank_le (text : List Char) : (skipBlank text).length ≤ text.length := by
  induction text with
  | nil => simp [skipBlank]
  | cons c rest ih =>
    simp only [skipBlank, List.dropWhile_cons] at *
    split
    · simp
      omega
    · simp

/-- Reads exactly these characters. -/
def literal : (expected text : List Char) → Except JsonFault (List Char)
  | [], text => .ok text
  | _ :: _, [] => .error .eof
  | e :: expected, c :: text => if c = e then literal expected text else .error .grammar

theorem length_literal {expected text rest : List Char} (h : literal expected text = .ok rest) :
    text.length = expected.length + rest.length := by
  induction expected generalizing text with
  | nil => cases h; simp
  | cons e expected ih =>
    cases text with
    | nil => cases h
    | cons c text =>
      simp only [literal] at h
      split at h
      · have := ih h
        simp only [List.length_cons]
        omega
      · cases h

/-- Reads a comma, colon or bracket behind blanks. -/
def punctuation (mark : Char) (text : List Char) : Except JsonFault (List Char) :=
  literal [mark] (skipBlank text)

theorem length_punctuation {mark : Char} {text rest : List Char}
    (h : punctuation mark text = .ok rest) : rest.length < text.length := by
  have h1 := length_literal h
  have h2 := length_skipBlank_le text
  simp only [List.length_singleton] at h1
  omega

end SpdySessions.Json
