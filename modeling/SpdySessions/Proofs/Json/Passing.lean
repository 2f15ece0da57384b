import SpdySessions.Proofs.Json.Grammar

/-! Passing over values. The reader keeps what is open as a stack and goes on from the end of each value
to what follows it in the innermost array or object. Whatever a value is made of, it is passed over whole
and nothing behind it is touched. -/

namespace SpdySessions.Json

variable {nest : Nest} {opened outer : List Nest} {b text rest : List Char}

/-! ### The passing, without the bounds that end it -/

theorem skipValue_eq : skipValue opened text =
    match skipBlank text with
    | [] => .error .eof
    | c :: rest =>
        if c = '[' then skipFirst .array opened rest
        else if c = '\x7b' then skipFirst .object opened rest
        else
          match skipScalar (c :: rest) with
          | .error fault => .error fault
          | .ok behind => skipRest opened behind := by
  rw [skipValue]
  split
  · rename_i hstart
    rw [hstart]
  · rename_i hstart
    dsimp only
    rw [hstart]
    dsimp only
    split
    · rfl
    split
    · rfl
    split
    · rename_i hscalar
      rw [hscalar]
    · rename_i hscalar
      rw [hscalar]

theorem skipFirst_eq : skipFirst nest opened text =
    match skipBlank text with
    | [] => .error .eof
    | c :: rest => if c = nest.close then skipRest opened rest else skipItem nest opened text := by
  rw [skipFirst]
  split
  · rename_i hstart
    rw [hstart]
  · rename_i hstart
    dsimp only
    rw [hstart]

theorem skipRest_eq : skipRest (nest :: outer) text =
    match skipBlank text with
    | [] => .error .eof
    | c :: rest =>
        if c = ',' then skipItem nest outer rest
        else if c = nest.close then skipRest outer rest
        else .error .grammar := by
  rw [skipRest]
  split
  · rename_i hstart
    rw [hstart]
  · rename_i hstart
    dsimp only
    rw [hstart]

theorem skipItem_array : skipItem .array opened text = skipValue (.array :: opened) text := by
  rw [skipItem]

theorem skipItem_object (h : skipName text = .ok rest) :
    skipItem .object opened text = skipValue (.object :: opened) rest := by
  rw [skipItem]
  split
  · rename_i hname
    rw [h] at hname
    cases hname
  · rename_i hname
    rw [h] at hname
    cases hname
    rfl

/-! ### Single moves -/

theorem skipValue_scalar {c : Char} {behind : List Char} (hb : Blanks b) (hblank : c ∉ blanks)
    (harray : c ≠ '[') (hobject : c ≠ '\x7b') (h : skipScalar (c :: text) = .ok behind) :
    skipValue opened (b ++ c :: text) = skipRest opened behind := by
  rw [skipValue_eq, skipBlank_append hb, skipBlank_cons hblank]
  dsimp only
  rw [if_neg harray, if_neg hobject, h]

theorem skipValue_opening (hb : Blanks b) :
    skipValue opened (b ++ nest.opening :: text) = skipFirst nest opened text := by
  have hblank : nest.opening ∉ blanks := by cases nest <;> decide
  rw [skipValue_eq, skipBlank_append hb, skipBlank_cons hblank]
  cases nest <;> rfl

theorem skipFirst_close (hb : Blanks b) :
    skipFirst nest opened (b ++ nest.close :: text) = skipRest opened text := by
  have hblank : nest.close ∉ blanks := by cases nest <;> decide
  rw [skipFirst_eq, skipBlank_append hb, skipBlank_cons hblank]
  exact if_pos rfl

theorem skipFirst_item {c : Char} (hb : Blanks b) (hblank : c ∉ blanks) (hclose : c ≠ nest.close) :
    skipFirst nest opened (b ++ c :: text) = skipItem nest opened (b ++ c :: text) := by
  rw [skipFirst_eq, skipBlank_append hb, skipBlank_cons hblank]
  exact if_neg hclose

theorem skipRest_comma : skipRest (nest :: outer) (',' :: text) = skipItem nest outer text := by
  rw [skipRest_eq, skipBlank_cons (by decide)]
  exact if_pos rfl

theorem skipRest_close : skipRest (nest :: outer) (nest.close :: text) = skipRest outer text := by
  have hblank : nest.close ∉ blanks ∧ nest.close ≠ ',' := by cases nest <;> decide
  rw [skipRest_eq, skipBlank_cons hblank.1]
  exact (if_neg hblank.2).trans (if_pos rfl)

/-- Blanks before the end of an item do not matter. -/
theorem skipRest_blanks_append (hb : Blanks b) :
    skipRest (nest :: outer) (b ++ text) = skipRest (nest :: outer) text := by
  rw [skipRest_eq, skipRest_eq, skipBlank_append hb]

theorem literal_append (expected rest : List Char) : literal expected (expected ++ rest) = .ok rest := by
  induction expected with
  | nil => rfl
  | cons c expected ih => exact (if_pos rfl).trans ih

theorem punctuation_append {mark : Char} (hb : Blanks b) (hmark : mark ∉ blanks) (rest : List Char) :
    punctuation mark (b ++ mark :: rest) = .ok rest := by
  rw [punctuation, skipBlank_append hb, skipBlank_cons hmark]
  exact literal_append [mark] rest

theorem skipName_quoted {key b₀ b₁ : List Char} (h₀ : Blanks b₀) (hkey : Chars key) (h₁ : Blanks b₁)
    (rest : List Char) : skipName (b₀ ++ (quoted key ++ (b₁ ++ ':' :: rest))) = .ok rest := by
  have hquoted : quoted key ++ (b₁ ++ ':' :: rest) = '"' :: (key ++ '"' :: (b₁ ++ ':' :: rest)) := by
    rw [quoted, List.cons_append, List.append_assoc]
    rfl
  rw [skipName, hquoted, skipBlank_append h₀, skipBlank_cons (by decide)]
  dsimp only
  rw [if_pos rfl, skipString_append hkey]
  exact punctuation_append h₁ (by decide) rest

/-! ### Values as a whole -/

theorem not_mem_delimiters {c : Char} (h : c = '-' ∨ c.isDigit = true) : c ∉ delimiters :=
  fun hc => (by simp [delimiters, blanks] : ∀ d ∈ delimiters, ¬(d = '-' ∨ d.isDigit = true)) c hc h

/-- No other value starts like a number. -/
theorem ne_of_number {c : Char} (h : c = '-' ∨ c.isDigit = true) :
    ∀ d ∈ ['"', 'n', 't', 'f', '[', '\x7b'], c ≠ d := by
  rintro d hd rfl
  exact (by simp : ∀ d ∈ ['"', 'n', 't', 'f', '[', '\x7b'], ¬(d = '-' ∨ d.isDigit = true)) c hd h

/-- A value, and so an item, starts with a character that delimits nothing. -/
theorem Written.starts {phrase : Phrase} (h : Written phrase text) :
    ∃ b c more, text = b ++ c :: more ∧ Blanks b ∧ c ∉ delimiters := by
  induction h with
  | null => exact ⟨[], 'n', _, rfl, .nil, by decide⟩
  | true => exact ⟨[], 't', _, rfl, .nil, by decide⟩
  | false => exact ⟨[], 'f', _, rfl, .nil, by decide⟩
  | number h =>
      obtain ⟨c, rest, rfl, hc⟩ := h.head
      exact ⟨[], c, rest, rfl, .nil, not_mem_delimiters hc⟩
  | string h => exact ⟨[], '"', _, rfl, .nil, by decide⟩
  | empty nest hb => exact ⟨[], nest.opening, _, rfl, .nil, by cases nest <;> decide⟩
  | @nest nest text h ih => exact ⟨[], nest.opening, _, rfl, .nil, by cases nest <;> decide⟩
  | element h₀ hv h₁ ih =>
      obtain ⟨b, c, more, rfl, hb, hc⟩ := ih
      exact ⟨_ ++ b, c, more ++ _, by simp only [List.append_assoc, List.cons_append]; rfl,
        h₀.append hb, hc⟩
  | member h₀ hkey h₁ h₂ hv h₃ ih =>
      exact ⟨_, '"', _, by simp only [quoted, List.append_assoc, List.cons_append]; rfl, h₀, by decide⟩
  | last h ih => exact ih
  | more h hmore ih ihmore =>
      obtain ⟨b, c, more, rfl, hb, hc⟩ := ih
      exact ⟨b, c, _, by rw [List.append_assoc, List.cons_append], hb, hc⟩

theorem not_mem_blanks {c : Char} (h : c ∉ delimiters) : c ∉ blanks :=
  fun hc => h (List.mem_append_left _ hc)

theorem ne_close {c : Char} (h : c ∉ delimiters) (nest : Nest) : c ≠ nest.close := by
  rintro rfl
  exact h (by cases nest <;> decide)

/-- What passing over a text of values comes to. -/
def Passes : Phrase → List Char → Prop
  | .value, text => ∀ opened b rest, Blanks b → Delimited rest →
      skipValue opened (b ++ (text ++ rest)) = skipRest opened rest
  | .item nest, text => ∀ outer rest, Delimited rest →
      skipItem nest outer (text ++ rest) = skipRest (nest :: outer) rest
  | .items nest, text => ∀ outer rest,
      skipItem nest outer (text ++ nest.close :: rest) = skipRest outer rest

theorem passes_scalar {c : Char} {more : List Char} (hblank : c ∉ blanks) (harray : c ≠ '[')
    (hobject : c ≠ '\x7b')
    (h : ∀ rest, Delimited rest → skipScalar (c :: (more ++ rest)) = .ok rest) :
    Passes .value (c :: more) := by
  intro opened b rest hb hrest
  exact skipValue_scalar hb hblank harray hobject (h rest hrest)

theorem Written.passes {phrase : Phrase} (h : Written phrase text) : Passes phrase text := by
  -- By the grammar. An item leaves the blanks at its end to the move that looks for what follows.
  induction h with
  | null => exact passes_scalar (by decide) (by decide) (by decide) fun rest _ => rfl
  | true => exact passes_scalar (by decide) (by decide) (by decide) fun rest _ => rfl
  | false => exact passes_scalar (by decide) (by decide) (by decide) fun rest _ => rfl
  | number h =>
      intro opened b rest hb hrest
      obtain ⟨c, more, rfl, hc⟩ := h.head
      have hmark := ne_of_number hc
      refine skipValue_scalar hb (not_mem_blanks (not_mem_delimiters hc)) (hmark '[' (by decide))
        (hmark '\x7b' (by decide)) ?_
      rw [skipScalar, if_neg (hmark _ (by decide)), if_neg (hmark _ (by decide)),
        if_neg (hmark _ (by decide)), if_neg (hmark _ (by decide)), if_pos hc]
      exact skipNumber_append h hrest
  | @string text h =>
      refine passes_scalar (by decide) (by decide) (by decide) fun rest _ => ?_
      rw [List.append_assoc]
      exact skipString_append h rest
  | empty nest hb =>
      intro opened b rest hb' hrest
      rw [List.cons_append, List.append_assoc, skipValue_opening hb']
      exact skipFirst_close hb
  | @nest nest text h ih =>
      intro opened b rest hb hrest
      obtain ⟨b', c, more, rfl, hb', hc⟩ := h.starts
      have hitems := ih opened rest
      rw [List.cons_append, skipValue_opening hb, List.append_assoc, List.append_assoc, List.cons_append,
        skipFirst_item hb' (not_mem_blanks hc) (ne_close hc nest)]
      rw [List.append_assoc, List.cons_append] at hitems
      exact hitems
  | element h₀ hv h₁ ih =>
      intro outer rest hrest
      rw [skipItem_array, List.append_assoc, List.append_assoc, ih _ _ _ h₀ (hrest.blanks_append h₁),
        skipRest_blanks_append h₁]
  | member h₀ hkey h₁ h₂ hv h₃ ih =>
      intro outer rest hrest
      simp only [List.append_assoc, List.cons_append]
      rw [skipItem_object (skipName_quoted h₀ hkey h₁ _), ih _ _ _ h₂ (hrest.blanks_append h₃),
        skipRest_blanks_append h₃]
  | @last nest text h ih =>
      intro outer rest
      rw [ih outer _ (delimited_cons (by cases nest <;> decide) rest), skipRest_close]
  | @more nest text behind h hmore ih ihmore =>
      intro outer rest
      rw [List.append_assoc, List.cons_append, ih outer _ (delimited_cons (by decide) _), skipRest_comma]
      exact ihmore outer rest

end SpdySessions.Json
