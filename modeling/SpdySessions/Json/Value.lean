import SpdySessions.Json.Number
import SpdySessions.Json.Quoted

/-!
Whole values in JSON: passing over one whose meaning nobody asked for, however deeply it is nested,
and telling how a text fails in which a value of another type stands.
-/

namespace SpdySessions.Json

/-- An array or object that is still open. -/
inductive Nest where
  | array
  | object
  deriving DecidableEq

namespace Nest

/-- The character that ends it. -/
def close : Nest → Char
  | array => ']'
  | object => '}'

end Nest

/-- Passes over a value without parts, from its first character on. -/
def skipScalar (text : List Char) : Except JsonFault (List Char) :=
  match text with
  | [] => .error .eof
  | c :: rest =>
      if c = '"' then skipString rest
      else if c = 'n' then literal ['u', 'l', 'l'] rest
      else if c = 't' then literal ['r', 'u', 'e'] rest
      else if c = 'f' then literal ['a', 'l', 's', 'e'] rest
      else if c = '-' ∨ c.isDigit then skipNumber text
      else .error .grammar

theorem length_skipScalar {text rest : List Char} (h : skipScalar text = .ok rest) :
    rest.length < text.length := by
  unfold skipScalar at h
  split at h
  · cases h
  · rename_i c behind
    simp only [List.length_cons]
    split at h
    · have := length_skipString h; omega
    · split at h
      · have := length_literal h; omega
      · split at h
        · have := length_literal h; omega
        · split at h
          · have := length_literal h; omega
          · split at h
            · have := length_skipNumber h; simpa using this
            · cases h

def skipName (text : List Char) : Except JsonFault (List Char) :=
  match skipBlank text with
  | [] => .error .eof
  | c :: rest =>
      if c = '"' then
        match skipString rest with
        | .error fault => .error fault
        | .ok rest => punctuation ':' rest
      else .error .grammar

theorem length_skipName {text rest : List Char} (h : skipName text = .ok rest) :
    rest.length < text.length := by
  have hblank := length_skipBlank_le text
  unfold skipName at h
  split at h
  · cases h
  · rename_i heq
    rw [heq, List.length_cons] at hblank
    split at h
    · split at h
      · cases h
      · rename_i hs
        have := length_skipString hs
        have := length_punctuation h
        omega
    · cases h

mutual

/-- Passes over a value inside of what is open, the innermost first, and on to where all of it is
closed. -/
def skipValue (opened : List Nest) (text : List Char) : Except JsonFault (List Char) :=
  match h : skipBlank text with
  | [] => .error .eof
  | c :: rest =>
      have hlen : rest.length < text.length := by
        have := length_skipBlank_le text
        rw [h, List.length_cons] at this
        omega
      if c = '[' then skipFirst .array opened rest
      else if c = '{' then skipFirst .object opened rest
      else
        match hs : skipScalar (c :: rest) with
        | .error fault => .error fault
        | .ok behind =>
            have : behind.length < text.length := by
              have := length_skipScalar hs
              rw [List.length_cons] at this
              omega
            skipRest opened behind
  termination_by (text.length, 0)

/-- What follows an opening bracket: its end, or a first item. -/
def skipFirst (nest : Nest) (opened : List Nest) (text : List Char) :
    Except JsonFault (List Char) :=
  match h : skipBlank text with
  | [] => .error .eof
  | c :: rest =>
      have hlen : rest.length < text.length := by
        have := length_skipBlank_le text
        rw [h, List.length_cons] at this
        omega
      if c = nest.close then skipRest opened rest
      else skipItem nest opened text
  termination_by (text.length, 2)

/-- An item: in an object a name stands before the value. -/
def skipItem (nest : Nest) (opened : List Nest) (text : List Char) :
    Except JsonFault (List Char) :=
  match nest with
  | .array => skipValue (.array :: opened) text
  | .object =>
      match h : skipName text with
      | .error fault => .error fault
      | .ok rest =>
          have := length_skipName h
          skipValue (.object :: opened) rest
  termination_by (text.length, 1)

/-- What follows a value: nothing more to do, a comma and a further item, or a closing bracket. -/
def skipRest (opened : List Nest) (text : List Char) : Except JsonFault (List Char) :=
  match opened with
  | [] => .ok text
  | nest :: outer =>
      match h : skipBlank text with
      | [] => .error .eof
      | c :: rest =>
          have hlen : rest.length < text.length := by
            have := length_skipBlank_le text
            rw [h, List.length_cons] at this
            omega
          if c = ',' then skipItem nest outer rest
          else if c = nest.close then skipRest outer rest
          else .error .grammar
  termination_by (text.length, 0)

end

/-- Passing over a value takes at least a character, and what follows a value never adds any. -/
private theorem length_skip :
    (∀ opened text rest, skipValue opened text = .ok rest → rest.length < text.length) ∧
      (∀ opened text rest, skipRest opened text = .ok rest → rest.length ≤ text.length) ∧
      (∀ nest opened text rest, skipItem nest opened text = .ok rest →
        rest.length < text.length) ∧
      (∀ nest opened text rest, skipFirst nest opened text = .ok rest →
        rest.length < text.length) := by
  apply skipValue.mutual_induct
    (fun opened text => ∀ rest, skipValue opened text = .ok rest →
      rest.length < text.length)
    (fun opened text => ∀ rest, skipRest opened text = .ok rest →
      rest.length ≤ text.length)
    (fun nest opened text => ∀ rest, skipItem nest opened text = .ok rest →
      rest.length < text.length)
    (fun nest opened text => ∀ rest, skipFirst nest opened text = .ok rest →
      rest.length < text.length)
  case case1 | case2 | case3 | case4 | case5 =>
    intros
    rename_i h
    rw [skipValue] at h
    split at h <;> simp_all <;> grind
  case case6 | case7 | case8 | case9 | case10 =>
    intros
    rename_i h
    rw [skipRest] at h
    simp_all <;> grind
  case case11 | case12 | case13 =>
    intros
    rename_i h
    rw [skipItem] at h
    simp_all <;> grind
  all_goals
    intros
    rename_i h
    rw [skipFirst] at h
    split at h <;> simp_all <;> grind

theorem length_skipValue {opened : List Nest} {text rest : List Char}
    (h : skipValue opened text = .ok rest) : rest.length < text.length :=
  length_skip.1 opened text rest h

/-- How a text fails in which a value stands that nobody can use here. What opens a list or an
object is wrong at once, any other value once it has been read whole. -/
def misplaced (text : List Char) : JsonFault :=
  let whole {α : Type} (read : Except JsonFault α) : JsonFault :=
    match read with
    | .error fault => fault
    | .ok _ => .data
  match text with
  | [] => .eof
  | c :: rest =>
      if c = '[' ∨ c = '{' then .data
      else if c = '"' then whole (readString [] rest)
      else if c = 'n' then whole (literal ['u', 'l', 'l'] rest)
      else if c = 't' then whole (literal ['r', 'u', 'e'] rest)
      else if c = 'f' then whole (literal ['a', 'l', 's', 'e'] rest)
      else if c = '-' ∨ c.isDigit then whole (readNumber text)
      else .grammar

def readNatural (limit : UInt64) (text : List Char) : Reading UInt64 :=
  match skipBlank text with
  | [] => .error .eof
  | c :: rest =>
      if c = '-' ∨ c.isDigit then
        match readNumber (c :: rest) with
        | .error fault => .error fault
        | .ok (.natural n, behind) => if n ≤ limit then .ok (n, behind) else .error .data
        | .ok (.other, _) => .error .data
      else .error (misplaced (c :: rest))

/-- Reads a natural number up to a limit, or null. -/
def readOptional (limit : UInt64) (text : List Char) : Reading (Option UInt64) :=
  match skipBlank text with
  | 'n' :: rest =>
      match literal ['u', 'l', 'l'] rest with
      | .error fault => .error fault
      | .ok behind => .ok (none, behind)
  | _ =>
      match readNatural limit text with
      | .error fault => .error fault
      | .ok (n, behind) => .ok (some n, behind)

theorem length_readNumber {text rest : List Char} {n : Number}
    (h : readNumber text = .ok (n, rest)) : rest.length < text.length := by
  have := length_minus_le text
  unfold readNumber at h
  split at h
  · cases h
  · rename_i hp
    have := length_parts hp
    split at h
    · cases h
    · simp only [Except.ok.injEq, Prod.mk.injEq] at h
      obtain ⟨-, rfl⟩ := h
      omega

theorem length_readNatural {limit n : UInt64} {text rest : List Char}
    (h : readNatural limit text = .ok (n, rest)) : rest.length < text.length := by
  have hblank := length_skipBlank_le text
  unfold readNatural at h
  split at h
  · cases h
  · rename_i heq
    rw [heq] at hblank
    split at h
    · split at h
      · cases h
      · rename_i hn
        have := length_readNumber hn
        split at h
        · simp only [Except.ok.injEq, Prod.mk.injEq] at h
          obtain ⟨-, rfl⟩ := h
          omega
        · cases h
      · cases h
    · cases h

theorem length_readOptional {limit : UInt64} {n : Option UInt64} {text rest : List Char}
    (h : readOptional limit text = .ok (n, rest)) : rest.length < text.length := by
  have hblank := length_skipBlank_le text
  unfold readOptional at h
  split at h
  · rename_i heq
    rw [heq, List.length_cons] at hblank
    split at h
    · cases h
    · rename_i hl
      have := length_literal hl
      simp only [Except.ok.injEq, Prod.mk.injEq] at h
      obtain ⟨-, rfl⟩ := h
      omega
  · split at h
    · cases h
    · rename_i hn
      have := length_readNatural hn
      simp only [Except.ok.injEq, Prod.mk.injEq] at h
      obtain ⟨-, rfl⟩ := h
      omega

/-- Nothing but blanks follows. -/
def readEnd (text : List Char) : Except JsonFault Unit :=
  if (skipBlank text).isEmpty then .ok () else .error .grammar

end SpdySessions.Json
