import SpdySessions.Json.Value

/-! What is written in JSON: blanks, numbers, strings, and the values made of them, each as a set of
texts that knows nothing of a reader. A key spells a text if its escapes stand for the characters of
that; a string that nobody asked for only has to have the form of one. Beside each kind of token stands
what the readers make of it when something follows that cannot be part of it. -/

namespace SpdySessions.Json

/-! ### Blanks -/

def blanks : List Char :=
  [' ', '\t', '\n', '\r']

/-- Nothing that has a meaning. -/
def Blanks (text : List Char) : Prop :=
  ∀ c ∈ text, c ∈ blanks

theorem isBlank_iff (c : Char) : isBlank c = true ↔ c ∈ blanks := by
  simp only [isBlank, blanks, decide_eq_true_eq, List.mem_cons, List.not_mem_nil, or_false]

theorem Blanks.nil : Blanks [] :=
  fun _ h => nomatch h

theorem Blanks.append {b more : List Char} (h : Blanks b) (hmore : Blanks more) : Blanks (b ++ more) :=
  fun c hc => (List.mem_append.mp hc).elim (h c) (hmore c)

theorem skipBlank_append {b : List Char} (h : Blanks b) (text : List Char) :
    skipBlank (b ++ text) = skipBlank text :=
  List.dropWhile_append_of_pos fun c hc => (isBlank_iff c).mpr (h c hc)

theorem skipBlank_cons {c : Char} (h : c ∉ blanks) (text : List Char) :
    skipBlank (c :: text) = c :: text :=
  List.dropWhile_cons_of_neg fun hblank => h ((isBlank_iff c).mp hblank)

theorem skipBlank_blanks {b : List Char} (h : Blanks b) : skipBlank b = [] := by
  rw [← List.append_nil b, skipBlank_append h]
  rfl

/-- What may stand directly behind a value that is part of another one. -/
def delimiters : List Char :=
  blanks ++ [',', ']', '\x7d']

def Delimited (text : List Char) : Prop :=
  ∃ c rest, text = c :: rest ∧ c ∈ delimiters

theorem Delimited.blanks_append {b text : List Char} (hb : Blanks b) (h : Delimited text) :
    Delimited (b ++ text) := by
  cases b with
  | nil => exact h
  | cons c b =>
      exact ⟨c, b ++ text, rfl, List.mem_append_left _ (hb c List.mem_cons_self)⟩

theorem delimited_cons {c : Char} (h : c ∈ delimiters) (rest : List Char) : Delimited (c :: rest) :=
  ⟨c, rest, rfl, h⟩

/-! ### Numbers -/

def Digits (text : List Char) : Prop :=
  text ≠ [] ∧ ∀ c ∈ text, c.isDigit = true

/-- The digits before the point: a zero alone, or digits that do not start with one. -/
inductive Whole : List Char → Prop
  | zero : Whole ['0']
  | digits {c : Char} {rest : List Char} (hfirst : c ≠ '0') (h : Digits (c :: rest)) :
      Whole (c :: rest)

inductive Fraction : List Char → Prop
  | none : Fraction []
  | point {ds : List Char} (h : Digits ds) : Fraction ('.' :: ds)

inductive Exponent : List Char → Prop
  | none : Exponent []
  | unsigned {e : Char} {ds : List Char} (he : e ∈ ['e', 'E']) (h : Digits ds) : Exponent (e :: ds)
  | signed {e sign : Char} {ds : List Char} (he : e ∈ ['e', 'E']) (hsign : sign ∈ ['+', '-'])
      (h : Digits ds) : Exponent (e :: sign :: ds)

inductive Unsigned : List Char → Prop
  | parts {w f e : List Char} (hw : Whole w) (hf : Fraction f) (he : Exponent e) :
      Unsigned (w ++ f ++ e)

inductive Numeral : List Char → Prop
  | positive {text : List Char} (h : Unsigned text) : Numeral text
  | negative {text : List Char} (h : Unsigned text) : Numeral ('-' :: text)

/-- No digit stands in front. -/
def NoDigit (text : List Char) : Prop :=
  ∀ c rest, text = c :: rest → c.isDigit = false

theorem noDigit_cons {c : Char} (h : c.isDigit = false) (rest : List Char) : NoDigit (c :: rest) := by
  intro d more heq
  rw [← (List.cons.inj heq).1]
  exact h

theorem Delimited.noDigit {text : List Char} (h : Delimited text) : NoDigit text := by
  obtain ⟨c, rest, rfl, hc⟩ := h
  exact noDigit_cons ((by simp [delimiters, blanks] : ∀ c ∈ delimiters, c.isDigit = false) c hc) rest

theorem digits_append {ds rest : List Char} (h : ∀ c ∈ ds, c.isDigit = true) (hrest : NoDigit rest) :
    digits (ds ++ rest) = (ds, rest) := by
  have hstop : rest.takeWhile Char.isDigit = [] ∧ rest.dropWhile Char.isDigit = rest := by
    cases rest with
    | nil => exact ⟨rfl, rfl⟩
    | cons c rest =>
        have hc : ¬c.isDigit = true := by rw [hrest c rest rfl]; decide
        exact ⟨List.takeWhile_cons_of_neg hc, List.dropWhile_cons_of_neg hc⟩
  rw [digits, List.takeWhile_append_of_pos h, List.dropWhile_append_of_pos h, hstop.1, hstop.2,
    List.append_nil]

theorem wholePart_append {w rest : List Char} (h : Whole w) (hrest : NoDigit rest) :
    wholePart (w ++ rest) = .ok (w, rest) := by
  cases h with
  | zero =>
      rw [wholePart, digits_append (by simp) hrest]
      rfl
  | @digits c ds hfirst h =>
      rw [wholePart, digits_append h.2 hrest]
      split
      · rename_i heq
        cases heq
      · rename_i heq
        exact absurd (List.cons.inj (Prod.mk.inj heq).1).1 hfirst
      · rename_i heq
        obtain ⟨rfl, rfl⟩ := Prod.mk.inj heq
        rfl

theorem fraction_none {rest : List Char} (h : ∀ behind, rest ≠ '.' :: behind) :
    fraction rest = .ok (none, rest) := by
  unfold fraction
  split
  · rename_i behind
    exact absurd rfl (h behind)
  · rfl

theorem fraction_append {f rest : List Char} (h : Fraction f) (hrest : NoDigit rest)
    (hpoint : ∀ behind, rest ≠ '.' :: behind) : ∃ part, fraction (f ++ rest) = .ok (part, rest) := by
  cases h with
  | none => exact ⟨Option.none, fraction_none hpoint⟩
  | @point ds h =>
      refine ⟨some ds, ?_⟩
      rw [List.cons_append, fraction, digits_append h.2 hrest]
      split
      · rename_i heq
        exact absurd (Prod.mk.inj heq).1 h.1
      · rename_i heq
        obtain ⟨rfl, rfl⟩ := Prod.mk.inj heq
        rfl

theorem exponentSign_of_digits {ds : List Char} (h : Digits ds) (rest : List Char) :
    exponentSign (ds ++ rest) = (false, ds ++ rest) := by
  obtain ⟨c, more, rfl⟩ := List.exists_cons_of_ne_nil h.1
  have hc := h.2 c List.mem_cons_self
  rw [List.cons_append]
  unfold exponentSign
  split
  · rename_i heq
    rw [(List.cons.inj heq).1] at hc
    exact absurd hc (by decide)
  · rename_i heq
    rw [(List.cons.inj heq).1] at hc
    exact absurd hc (by decide)
  · rfl

theorem exponent_none {rest : List Char} (h : Delimited rest) : exponent rest = .ok (none, rest) := by
  obtain ⟨c, more, rfl, hc⟩ := h
  have hmark := (by simp [delimiters, blanks] : ∀ c ∈ delimiters, ¬(c = 'e' ∨ c = 'E')) c hc
  rw [exponent, if_neg hmark]

theorem exponent_append {e rest : List Char} (h : Exponent e) (hrest : Delimited rest) :
    ∃ power, exponent (e ++ rest) = .ok (power, rest) := by
  have hafter : ∀ {mark : Char} {text ds : List Char}, mark ∈ ['e', 'E'] → Digits ds →
      (exponentSign text).2 = ds ++ rest →
      ∃ power, exponent (mark :: text) = .ok (power, rest) := by
    intro mark text ds hmark hds htext
    have hmark : mark = 'e' ∨ mark = 'E' := by
      simpa only [List.mem_cons, List.not_mem_nil, or_false] using hmark
    rw [exponent, if_pos hmark, htext, digits_append hds.2 hrest.noDigit]
    split
    · rename_i heq
      exact absurd (Prod.mk.inj heq).1 hds.1
    · rename_i heq
      obtain ⟨-, rfl⟩ := Prod.mk.inj heq
      exact ⟨_, rfl⟩
  cases h with
  | none => exact ⟨Option.none, exponent_none hrest⟩
  | unsigned he h => exact hafter he h (congrArg Prod.snd (exponentSign_of_digits h rest))
  | signed he hsign h =>
      refine hafter he h ?_
      simp only [List.mem_cons, List.not_mem_nil, or_false] at hsign
      obtain rfl | rfl := hsign <;> rfl

/-- Neither an exponent nor what follows a number looks like more digits or a point. -/
theorem Exponent.append_head {e rest : List Char} (he : Exponent e) (hrest : Delimited rest) :
    NoDigit (e ++ rest) ∧ ∀ behind, e ++ rest ≠ '.' :: behind := by
  have hmark : ∀ {mark : Char} (text : List Char), mark ∈ ['e', 'E'] →
      NoDigit (mark :: text) ∧ ∀ behind, mark :: text ≠ '.' :: behind := by
    intro mark text hmark
    have hc := (by simp : ∀ c ∈ ['e', 'E'], c.isDigit = false ∧ c ≠ '.') mark hmark
    refine ⟨noDigit_cons hc.1 text, fun behind heq => hc.2 (List.cons.inj heq).1⟩
  cases he with
  | none =>
      refine ⟨hrest.noDigit, fun behind hpoint => ?_⟩
      obtain ⟨c, more, rfl, hc⟩ := hrest
      obtain ⟨rfl, -⟩ := List.cons.inj hpoint
      exact absurd hc (by decide)
  | unsigned he h => exact hmark _ he
  | signed he hsign h => exact hmark _ he

theorem noDigit_fraction_append {f rest : List Char} (hf : Fraction f) (hrest : NoDigit rest) :
    NoDigit (f ++ rest) := by
  cases hf with
  | none => exact hrest
  | point h => exact noDigit_cons (by decide) _

theorem parts_append {text rest : List Char} (h : Unsigned text) (hrest : Delimited rest) :
    ∃ p, parts (text ++ rest) = .ok (p, rest) := by
  obtain ⟨hw, hf, he⟩ := h
  rename_i w f e
  obtain ⟨hdigit, hpoint⟩ := he.append_head hrest
  obtain ⟨part, hpart⟩ := fraction_append hf hdigit hpoint
  obtain ⟨power, hpower⟩ := exponent_append he hrest
  refine ⟨⟨w, part, power⟩, ?_⟩
  rw [List.append_assoc, List.append_assoc, parts, wholePart_append hw (noDigit_fraction_append hf hdigit)]
  dsimp only
  rw [hpart]
  dsimp only
  rw [hpower]

theorem Whole.head {w : List Char} (h : Whole w) : ∃ c rest, w = c :: rest ∧ c.isDigit = true := by
  cases h with
  | zero => exact ⟨'0', [], rfl, by decide⟩
  | digits hfirst h => exact ⟨_, _, rfl, h.2 _ List.mem_cons_self⟩

theorem Unsigned.head {text : List Char} (h : Unsigned text) :
    ∃ c rest, text = c :: rest ∧ c.isDigit = true := by
  obtain ⟨hw, hf, he⟩ := h
  obtain ⟨c, rest, rfl, hc⟩ := hw.head
  exact ⟨c, _, rfl, hc⟩

theorem Numeral.head {text : List Char} (h : Numeral text) :
    ∃ c rest, text = c :: rest ∧ (c = '-' ∨ c.isDigit = true) := by
  cases h with
  | positive h =>
      obtain ⟨c, rest, rfl, hc⟩ := h.head
      exact ⟨c, rest, rfl, .inr hc⟩
  | negative h => exact ⟨'-', _, rfl, .inl rfl⟩

theorem minus_of_digit {c : Char} (h : c.isDigit = true) (rest : List Char) :
    minus (c :: rest) = (false, c :: rest) := by
  unfold minus
  split
  · rename_i heq
    rw [(List.cons.inj heq).1] at h
    exact absurd h (by decide)
  · rfl

theorem skipNumber_append {text rest : List Char} (h : Numeral text) (hrest : Delimited rest) :
    skipNumber (text ++ rest) = .ok rest := by
  cases h with
  | positive h =>
      obtain ⟨p, hp⟩ := parts_append h hrest
      obtain ⟨c, more, rfl, hc⟩ := h.head
      rw [List.cons_append] at hp ⊢
      rw [skipNumber, minus_of_digit hc, hp]
  | negative h =>
      obtain ⟨p, hp⟩ := parts_append h hrest
      rw [List.cons_append, skipNumber, minus, hp]

/-! ### Strings -/

def hexDigits : List (Char × Nat) :=
  [('0', 0), ('1', 1), ('2', 2), ('3', 3), ('4', 4), ('5', 5), ('6', 6), ('7', 7), ('8', 8), ('9', 9),
    ('a', 10), ('b', 11), ('c', 12), ('d', 13), ('e', 14), ('f', 15),
    ('A', 10), ('B', 11), ('C', 12), ('D', 13), ('E', 14), ('F', 15)]

/-- Four hex digits and the number that they stand for. -/
inductive HexWord : List Char → Nat → Prop
  | digits {a b c d : Char} {i j k l : Nat} (ha : (a, i) ∈ hexDigits) (hb : (b, j) ∈ hexDigits)
      (hc : (c, k) ∈ hexDigits) (hd : (d, l) ∈ hexDigits) :
      HexWord [a, b, c, d] (((i * 16 + j) * 16 + k) * 16 + l)

/-- The escapes of one character, and the characters that they stand for. -/
def shortEscapes : List (Char × Char) :=
  [('"', '"'), ('\\', '\\'), ('/', '/'), ('b', '\x08'), ('f', '\x0c'), ('n', '\n'), ('r', '\r'),
    ('t', '\t')]

/-- A character that stands for itself in a string. -/
def Plain (c : Char) : Prop :=
  0x20 ≤ c.toNat ∧ c ≠ '"' ∧ c ≠ '\\'

/-- What may stand between two quotes. -/
inductive Chars : List Char → Prop
  | nil : Chars []
  | plain {c : Char} {text : List Char} (hc : Plain c) (h : Chars text) : Chars (c :: text)
  | short {e c : Char} {text : List Char} (he : (e, c) ∈ shortEscapes) (h : Chars text) :
      Chars ('\\' :: e :: text)
  | hex {digits text : List Char} {n : Nat} (hdigits : HexWord digits n) (h : Chars text) :
      Chars ('\\' :: 'u' :: (digits ++ text))

/-- What may stand between two quotes, and the text that it spells. A character beyond 16 bits takes two
escapes, of the numbers that are no characters. -/
inductive Spells : List Char → List Char → Prop
  | nil : Spells [] []
  | plain {c : Char} {text s : List Char} (hc : Plain c) (h : Spells text s) :
      Spells (c :: text) (c :: s)
  | short {e c : Char} {text s : List Char} (he : (e, c) ∈ shortEscapes) (h : Spells text s) :
      Spells ('\\' :: e :: text) (c :: s)
  | hex {digits text s : List Char} {n : Nat} (hdigits : HexWord digits n)
      (hn : n < 0xD800 ∨ 0xE000 ≤ n) (h : Spells text s) :
      Spells ('\\' :: 'u' :: (digits ++ text)) (Char.ofNat n :: s)
  | pair {first second text s : List Char} {high low : Nat} (hfirst : HexWord first high)
      (hhigh : 0xD800 ≤ high ∧ high < 0xDC00) (hsecond : HexWord second low)
      (hlow : 0xDC00 ≤ low ∧ low < 0xE000) (h : Spells text s) :
      Spells ('\\' :: 'u' :: (first ++ '\\' :: 'u' :: (second ++ text)))
        (Char.ofNat (0x10000 + (high - 0xD800) * 0x400 + (low - 0xDC00)) :: s)

theorem hexValue?_of_mem {c : Char} {n : Nat} (h : (c, n) ∈ hexDigits) : hexValue? c = some n :=
  (by decide : ∀ p ∈ hexDigits, hexValue? p.1 = some p.2) (c, n) h

theorem hexValue4?_of_mem {a b c d : Char} {n : Nat} (h : HexWord [a, b, c, d] n) :
    hexValue4? a b c d = some n := by
  cases h with
  | digits ha hb hc hd =>
      rw [hexValue4?, hexValue?_of_mem ha, hexValue?_of_mem hb, hexValue?_of_mem hc,
        hexValue?_of_mem hd]
      rfl

theorem HexWord.eq_four {digits : List Char} {n : Nat} (h : HexWord digits n) :
    ∃ a b c d, digits = [a, b, c, d] := by
  cases h with
  | @digits a b c d => exact ⟨a, b, c, d, rfl⟩

theorem shortEscape?_of_mem {e c : Char} (h : (e, c) ∈ shortEscapes) : shortEscape? e = some c :=
  (by decide : ∀ p ∈ shortEscapes, shortEscape? p.1 = some p.2) (e, c) h

theorem ne_u_of_mem {e c : Char} (h : (e, c) ∈ shortEscapes) : e ≠ 'u' :=
  (by decide : ∀ p ∈ shortEscapes, p.1 ≠ 'u') (e, c) h

theorem Plain.isControl_eq {c : Char} (h : Plain c) : isControl c = false :=
  decide_eq_false (Nat.not_lt.mpr h.1)

theorem skipString_plain {c : Char} (h : Plain c) (text : List Char) :
    skipString (c :: text) = skipString text := by
  obtain ⟨-, hquote, hslash⟩ := id h
  rw [skipString, if_neg (by rw [h.isControl_eq]; decide)]
  all_goals
    intros
    contradiction

theorem skipString_short {e c : Char} (h : (e, c) ∈ shortEscapes) (text : List Char) :
    skipString ('\\' :: e :: text) = skipString text := by
  have hu := ne_u_of_mem h
  rw [skipString, shortEscape?_of_mem h]
  · rfl
  all_goals
    intros
    contradiction

theorem skipString_append {text : List Char} (h : Chars text) (rest : List Char) :
    skipString (text ++ '"' :: rest) = .ok rest := by
  induction h with
  | nil => rw [List.nil_append, skipString]
  | plain hc h ih => exact (skipString_plain hc _).trans ih
  | short he h ih => exact (skipString_short he _).trans ih
  | hex hdigits h ih =>
      obtain ⟨a, b, c, d, rfl⟩ := hdigits.eq_four
      simp only [List.cons_append, List.nil_append]
      rw [skipString, hexValue4?_of_mem hdigits]
      exact ih

theorem readString_plain {c : Char} (h : Plain c) (before text : List Char) :
    readString before (c :: text) = readString (c :: before) text := by
  obtain ⟨-, hquote, hslash⟩ := id h
  rw [readString, if_neg (by rw [h.isControl_eq]; decide)]
  all_goals
    intros
    contradiction

theorem readString_short {e c : Char} (h : (e, c) ∈ shortEscapes) (before text : List Char) :
    readString before ('\\' :: e :: text) = readString (c :: before) text := by
  have hu := ne_u_of_mem h
  rw [readString, shortEscape?_of_mem h]
  all_goals
    intros
    contradiction

theorem readString_escaped {text rest : List Char} {c : Char} (h : escaped text = .ok (c, rest))
    (before : List Char) :
    readString before ('\\' :: 'u' :: text) = readString (c :: before) rest := by
  rw [readString]
  split
  · rename_i heq
    rw [h] at heq
    cases heq
  · rename_i heq
    rw [h] at heq
    cases heq
    rfl

theorem escaped_append {digits : List Char} {n : Nat} (h : HexWord digits n)
    (hn : n < 0xD800 ∨ 0xE000 ≤ n) (rest : List Char) :
    escaped (digits ++ rest) = .ok (Char.ofNat n, rest) := by
  obtain ⟨a, b, c, d, rfl⟩ := h.eq_four
  simp only [List.cons_append, List.nil_append, escaped, hexValue4?_of_mem h, if_pos hn]

theorem escaped_pair {first second : List Char} {high low : Nat} (hfirst : HexWord first high)
    (hhigh : 0xD800 ≤ high ∧ high < 0xDC00) (hsecond : HexWord second low)
    (hlow : 0xDC00 ≤ low ∧ low < 0xE000) (rest : List Char) :
    escaped (first ++ '\\' :: 'u' :: (second ++ rest)) =
      .ok (Char.ofNat (0x10000 + (high - 0xD800) * 0x400 + (low - 0xDC00)), rest) := by
  obtain ⟨a, b, c, d, rfl⟩ := hfirst.eq_four
  obtain ⟨a', b', c', d', rfl⟩ := hsecond.eq_four
  simp only [List.cons_append, List.nil_append, escaped, hexValue4?_of_mem hfirst]
  rw [if_neg (by omega), if_pos hhigh.2, lowHalf, hexValue4?_of_mem hsecond]
  dsimp only
  rw [if_pos hlow]

theorem readString_append {text s : List Char} (h : Spells text s) (before rest : List Char) :
    readString before (text ++ '"' :: rest) = .ok (String.ofList (before.reverse ++ s), rest) := by
  induction h generalizing before with
  | nil => rw [List.nil_append, readString, List.append_nil]
  | @plain c text s hc h ih =>
      rw [List.cons_append, readString_plain hc, ih, List.reverse_cons, List.append_assoc]
      rfl
  | @short e c text s he h ih =>
      rw [List.cons_append, List.cons_append, readString_short he, ih, List.reverse_cons,
        List.append_assoc]
      rfl
  | hex hdigits hn h ih =>
      rw [List.cons_append, List.cons_append, List.append_assoc,
        readString_escaped (escaped_append hdigits hn _), ih, List.reverse_cons, List.append_assoc]
      rfl
  | pair hfirst hhigh hsecond hlow h ih =>
      simp only [List.cons_append, List.append_assoc]
      rw [readString_escaped (escaped_pair hfirst hhigh hsecond hlow _), ih, List.reverse_cons,
        List.append_assoc]
      rfl

/-- A text without quotes, backslashes and control characters spells itself. -/
theorem spells_self {s : List Char} (h : ∀ c ∈ s, Plain c) : Spells s s := by
  induction s with
  | nil => exact .nil
  | cons c s ih =>
      exact .plain (h c List.mem_cons_self) (ih fun d hd => h d (List.mem_cons_of_mem c hd))

/-! ### Values -/

/-- The character that an array or an object starts with. -/
def Nest.opening : Nest → Char
  | .array => '['
  | .object => '\x7b'

/-- The parts of a text of values: a value, an item of an array or object with the blanks around it, and
one or more items with commas between them. -/
inductive Phrase where
  | value
  | item (nest : Nest)
  | items (nest : Nest)

/-- A string between its quotes. -/
def quoted (text : List Char) : List Char :=
  '"' :: (text ++ ['"'])

/-- The texts of values. -/
inductive Written : Phrase → List Char → Prop
  | null : Written .value ['n', 'u', 'l', 'l']
  | true : Written .value ['t', 'r', 'u', 'e']
  | false : Written .value ['f', 'a', 'l', 's', 'e']
  | number {text : List Char} (h : Numeral text) : Written .value text
  | string {text : List Char} (h : Chars text) : Written .value (quoted text)
  | empty (nest : Nest) {b : List Char} (hb : Blanks b) :
      Written .value (nest.opening :: (b ++ [nest.close]))
  | nest {nest : Nest} {text : List Char} (h : Written (.items nest) text) :
      Written .value (nest.opening :: (text ++ [nest.close]))
  | element {b₀ b₁ v : List Char} (h₀ : Blanks b₀) (hv : Written .value v) (h₁ : Blanks b₁) :
      Written (.item .array) (b₀ ++ v ++ b₁)
  | member {b₀ b₁ b₂ b₃ key v : List Char} (h₀ : Blanks b₀) (hkey : Chars key) (h₁ : Blanks b₁)
      (h₂ : Blanks b₂) (hv : Written .value v) (h₃ : Blanks b₃) :
      Written (.item .object) (b₀ ++ quoted key ++ b₁ ++ ':' :: (b₂ ++ v ++ b₃))
  | last {nest : Nest} {text : List Char} (h : Written (.item nest) text) :
      Written (.items nest) text
  | more {nest : Nest} {text behind : List Char} (h : Written (.item nest) text)
      (hmore : Written (.items nest) behind) : Written (.items nest) (text ++ ',' :: behind)

end SpdySessions.Json
