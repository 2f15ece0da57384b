import SpdySessions.Config.Json
import SpdySessions.Proofs.Json.Decimal

/-! The texts of a configuration. A setting may be left out if it has its default; what is there may
stand in any order, with blanks and members that nobody knows around and between. The main statement:
each such text is read as the configuration, and the printed one is such a text. -/

namespace SpdySessions.Config

open Json

/-! ### The texts -/

/-- Two configurations have the same value for a member. -/
def Agrees (c c' : Config) : Field → Prop
  | .idleTimeoutMs => c.idleTimeoutMs = c'.idleTimeoutMs
  | .workerThreads => c.workerThreads = c'.workerThreads
  | .maxPooledBuffers => c.maxPooledBuffers = c'.maxPooledBuffers
  | .bufferSize => c.bufferSize = c'.bufferSize

/-- The value of a member, as it is printed. -/
def valueText (c : Config) : Field → List Char
  | .idleTimeoutMs => decimal c.idleTimeoutMs
  | .workerThreads => optionalDecimal c.workerThreads
  | .maxPooledBuffers => decimal c.maxPooledBuffers
  | .bufferSize => decimal c.bufferSize

/-- A member in a text: a setting with its value, or one whose name is none of the four, with any
value. -/
inductive Member (c : Config) : Option Field → List Char → Prop
  | setting {field : Field} {b₀ b₁ b₂ b₃ key : List Char} (h₀ : Blanks b₀)
      (hkey : Spells key field.name.toList) (h₁ : Blanks b₁) (h₂ : Blanks b₂) (h₃ : Blanks b₃) :
      Member c (some field) (b₀ ++ quoted key ++ b₁ ++ ':' :: (b₂ ++ c.valueText field ++ b₃))
  | unknown {b₀ b₁ b₂ b₃ key name v : List Char} (h₀ : Blanks b₀) (hkey : Spells key name)
      (hname : ∀ field : Field, name ≠ field.name.toList) (h₁ : Blanks b₁) (h₂ : Blanks b₂)
      (hv : Written .value v) (h₃ : Blanks b₃) :
      Member c none (b₀ ++ quoted key ++ b₁ ++ ':' :: (b₂ ++ v ++ b₃))

/-- Members with commas between them, and the settings among them. -/
inductive Members (c : Config) : List Field → List Char → Prop
  | last {field : Option Field} {text : List Char} (h : Member c field text) :
      Members c field.toList text
  | more {field : Option Field} {fields : List Field} {text behind : List Char}
      (h : Member c field text) (hmore : Members c fields behind) :
      Members c (field.toList ++ fields) (text ++ ',' :: behind)

/-- The texts of a configuration. -/
inductive Spelling (c : Config) : List Char → Prop
  | empty {b₀ b₁ b₂ : List Char} (h₀ : Blanks b₀) (h₁ : Blanks b₁) (h₂ : Blanks b₂)
      (hdefault : ∀ field, c.Agrees {} field) : Spelling c (b₀ ++ '\x7b' :: (b₁ ++ '\x7d' :: b₂))
  | members {fields : List Field} {b₀ b₂ text : List Char} (h₀ : Blanks b₀)
      (h : Members c fields text) (h₂ : Blanks b₂) (hnodup : fields.Nodup)
      (hdefault : ∀ field ∉ fields, c.Agrees {} field) :
      Spelling c (b₀ ++ '\x7b' :: (text ++ '\x7d' :: b₂))

variable {c : Config}

theorem eq_of_agrees {c' : Config} (h : ∀ field, c.Agrees c' field) : c = c' := by
  obtain ⟨idle, workers, pooled, size⟩ := c
  obtain rfl : idle = c'.idleTimeoutMs := h .idleTimeoutMs
  obtain rfl : workers = c'.workerThreads := h .workerThreads
  obtain rfl : pooled = c'.maxPooledBuffers := h .maxPooledBuffers
  obtain rfl : size = c'.bufferSize := h .bufferSize
  rfl

/-! ### Names -/

theorem named?_name (field : Field) : Field.named? field.name = some field := by
  cases field <;> decide

theorem named?_eq_none {name : List Char} (h : ∀ field : Field, name ≠ field.name.toList) :
    Field.named? (String.ofList name) = none := by
  rw [Field.named?, List.find?_eq_none]
  intro field _ hname
  have hname : field.name = String.ofList name := of_decide_eq_true hname
  exact h field (by rw [hname, String.toList_ofList])

/-! ### Drafts -/

namespace Draft

/-- The draft with a member as the configuration has it. -/
def take (c : Config) (d : Draft) (field : Field) : Draft where
  config :=
    match field with
    | .idleTimeoutMs => { d.config with idleTimeoutMs := c.idleTimeoutMs }
    | .workerThreads => { d.config with workerThreads := c.workerThreads }
    | .maxPooledBuffers => { d.config with maxPooledBuffers := c.maxPooledBuffers }
    | .bufferSize => { d.config with bufferSize := c.bufferSize }
  given := field :: d.given

/-- What a draft has got is as the configuration has it, and the rest has its default. -/
structure Copies (c : Config) (d : Draft) : Prop where
  given : ∀ field ∈ d.given, d.config.Agrees c field
  missing : ∀ field ∉ d.given, d.config.Agrees {} field

theorem copies_new : Copies c {} where
  given field h := nomatch h
  missing field _ := by cases field <;> rfl

theorem Copies.take {d : Draft} (h : Copies c d) (field : Field) : Copies c (take c d field) := by
  have htaken : (Draft.take c d field).config.Agrees c field := by cases field <;> rfl
  have hother : ∀ other ≠ field, ∀ c', d.config.Agrees c' other →
      (Draft.take c d field).config.Agrees c' other := by
    intro other hne c' hagrees
    cases field <;> cases other <;> first | exact hagrees | exact absurd rfl hne
  refine ⟨fun other hgiven => ?_, fun other hmissing => ?_⟩
  · by_cases heq : other = field
    · rw [heq]
      exact htaken
    · exact hother other heq c (h.given other ((List.mem_cons.mp hgiven).resolve_left heq))
  · obtain ⟨hne, hnot⟩ := not_or.mp fun hmem => hmissing (List.mem_cons.mpr hmem)
    exact hother other hne {} (h.missing other hnot)

theorem Copies.eq {d : Draft} (h : Copies c d) (hdefault : ∀ field ∉ d.given, c.Agrees {} field) :
    d.config = c := by
  refine eq_of_agrees fun field => ?_
  by_cases hgiven : field ∈ d.given
  · exact h.given field hgiven
  · have hmine := h.missing field hgiven
    have hits := hdefault field hgiven
    cases field <;> exact Eq.trans hmine (Eq.symm hits)

/-! ### Members -/

theorem read_valueText (c : Config) (d : Draft) (field : Field) {b rest : List Char} (hb : Blanks b)
    (hrest : Delimited rest) :
    d.read field (b ++ (c.valueText field ++ rest)) = .ok (take c d field, rest) := by
  have hlimit : ∀ n : UInt64, n ≤ UInt64.ofNat 0xffffffffffffffff := by
    intro n
    have hn := n.toNat_lt
    rw [UInt64.le_iff_toNat_le]
    exact Nat.le_of_lt_succ hn
  have hworkers : ∀ m ∈ c.workerThreads, m ≤ UInt64.ofNat 0xffffffffffffffff := fun m _ => hlimit m
  cases field with
  | idleTimeoutMs =>
      rw [valueText, read, readNatural_decimal (hlimit _) hb hrest]
      rfl
  | workerThreads =>
      rw [valueText, read, readOptional_decimal hworkers hb hrest]
      rfl
  | maxPooledBuffers =>
      rw [valueText, read, readNatural_decimal (hlimit _) hb hrest]
      rfl
  | bufferSize =>
      rw [valueText, read, readNatural_decimal (hlimit _) hb hrest]
      rfl

theorem members_eq (d : Draft) (first : Bool) (text : List Char) :
    members d first text =
      match skipBlank text with
      | [] => .error .eof
      | c :: rest =>
          if c = '\x7d' then .ok (d, rest)
          else if first then member d (c :: rest)
          else if c = ',' then member d (skipBlank rest)
          else .error .grammar := by
  rw [members]
  split
  · rename_i hstart
    rw [hstart]
  · rename_i hstart
    dsimp only
    rw [hstart]

theorem members_blanks_append {b : List Char} (hb : Blanks b) (d : Draft) (first : Bool)
    (text : List Char) : members d first (b ++ text) = members d first text := by
  rw [members_eq, members_eq, skipBlank_append hb]

theorem members_close (d : Draft) (first : Bool) (rest : List Char) :
    members d first ('\x7d' :: rest) = .ok (d, rest) := by
  rw [members_eq, skipBlank_cons (by decide)]
  exact if_pos rfl

theorem members_comma (d : Draft) (text : List Char) :
    members d false (',' :: text) = member d (skipBlank text) := by
  rw [members_eq, skipBlank_cons (by decide)]
  rfl

theorem members_quote (d : Draft) {text rest : List Char} (h : skipBlank text = '"' :: rest) :
    members d true text = member d (skipBlank text) := by
  rw [members_eq, h]
  rfl

theorem member_eq (d : Draft) (text : List Char) :
    member d ('"' :: text) =
      match readString [] text with
      | .error fault => .error fault
      | .ok (key, behind) =>
          match Field.named? key with
          | some field =>
              if field ∈ d.given then .error .data
              else
                match punctuation ':' behind with
                | .error fault => .error fault
                | .ok value =>
                    match d.read field value with
                    | .error fault => .error fault
                    | .ok (d, rest) => members d false rest
          | none =>
              match punctuation ':' behind with
              | .error fault => .error fault
              | .ok value =>
                  match skipValue [] value with
                  | .error fault => .error fault
                  | .ok rest => members d false rest := by
  rw [member, if_pos rfl]
  split
  · rename_i hkey
    rw [hkey]
  rename_i key behind hkey
  dsimp only
  rw [hkey]
  dsimp only
  cases Field.named? key with
  | some field =>
      dsimp only
      split
      · rfl
      split
      · rename_i hcolon
        rw [hcolon]
      rename_i hcolon
      rw [hcolon]
      dsimp only
      split
      · rename_i hvalue
        rw [hvalue]
      · rename_i hvalue
        rw [hvalue]
  | none =>
      dsimp only
      split
      · rename_i hcolon
        rw [hcolon]
      rename_i hcolon
      rw [hcolon]
      dsimp only
      split
      · rename_i hvalue
        rw [hvalue]
      · rename_i hvalue
        rw [hvalue]

theorem member_setting {d d' : Draft} {key : String} {field : Field} {text behind value rest : List Char}
    (hkey : readString [] text = .ok (key, behind)) (hfield : Field.named? key = some field)
    (hnew : field ∉ d.given) (hcolon : punctuation ':' behind = .ok value)
    (hvalue : d.read field value = .ok (d', rest)) :
    member d ('"' :: text) = members d' false rest := by
  simp only [member_eq, hkey, hfield, if_neg hnew, hcolon, hvalue]

theorem member_unknown {d : Draft} {key : String} {text behind value rest : List Char}
    (hkey : readString [] text = .ok (key, behind)) (hfield : Field.named? key = none)
    (hcolon : punctuation ':' behind = .ok value) (hvalue : skipValue [] value = .ok rest) :
    member d ('"' :: text) = members d false rest := by
  simp only [member_eq, hkey, hfield, hcolon, hvalue]

theorem skipBlank_quoted {b : List Char} (hb : Blanks b) (key rest : List Char) :
    skipBlank (b ++ (quoted key ++ rest)) = '"' :: (key ++ '"' :: rest) := by
  rw [skipBlank_append hb, quoted, List.cons_append, List.append_assoc, skipBlank_cons (by decide)]
  rfl

theorem exists_skipBlank_eq {field : Option Field} {text : List Char} (h : Member c field text)
    (rest : List Char) : ∃ behind, skipBlank (text ++ rest) = '"' :: behind := by
  cases h with
  | setting h₀ hkey h₁ h₂ h₃ =>
      simp only [List.append_assoc]
      exact ⟨_, skipBlank_quoted h₀ _ _⟩
  | unknown h₀ hkey hname h₁ h₂ hv h₃ =>
      simp only [List.append_assoc]
      exact ⟨_, skipBlank_quoted h₀ _ _⟩

/-- A member is read up to its end, and the draft gets what it sets. -/
theorem exists_member_eq {field : Option Field} {text : List Char} (h : Member c field text) {d : Draft}
    (hcopies : Copies c d) (hnew : ∀ f ∈ field, f ∉ d.given) {rest : List Char} (hrest : Delimited rest) :
    ∃ d', Copies c d' ∧ d'.given = field.toList ++ d.given ∧
      member d (skipBlank (text ++ rest)) = members d' false rest := by
  cases h with
  | @setting field b₀ b₁ b₂ b₃ key h₀ hkey h₁ h₂ h₃ =>
      refine ⟨take c d field, hcopies.take field, rfl, ?_⟩
      have hread : readString [] (key ++ '"' :: (b₁ ++ ':' :: (b₂ ++ (c.valueText field ++ (b₃ ++ rest))))) =
          .ok (field.name, b₁ ++ ':' :: (b₂ ++ (c.valueText field ++ (b₃ ++ rest)))) := by
        rw [readString_append hkey, List.reverse_nil, List.nil_append, String.ofList_toList]
      simp only [List.append_assoc, List.cons_append]
      rw [skipBlank_quoted h₀, member_setting hread (named?_name field) (hnew field rfl)
        (punctuation_append h₁ (by decide) _)
        (read_valueText c d field h₂ (hrest.blanks_append h₃)), members_blanks_append h₃]
  | @unknown b₀ b₁ b₂ b₃ key name v h₀ hkey hname h₁ h₂ hv h₃ =>
      refine ⟨d, hcopies, rfl, ?_⟩
      have hread : readString [] (key ++ '"' :: (b₁ ++ ':' :: (b₂ ++ (v ++ (b₃ ++ rest))))) =
          .ok (String.ofList name, b₁ ++ ':' :: (b₂ ++ (v ++ (b₃ ++ rest)))) :=
        readString_append hkey [] _
      have hvalue : skipValue [] (b₂ ++ (v ++ (b₃ ++ rest))) = .ok (b₃ ++ rest) := by
        rw [hv.passes [] b₂ _ h₂ (hrest.blanks_append h₃), skipRest]
      simp only [List.append_assoc, List.cons_append]
      rw [skipBlank_quoted h₀, member_unknown hread (named?_eq_none hname)
        (punctuation_append h₁ (by decide) _) hvalue, members_blanks_append h₃]

theorem members_first {fields : List Field} {text : List Char} (h : Members c fields text) (d : Draft)
    (rest : List Char) :
    members d true (text ++ rest) = member d (skipBlank (text ++ rest)) := by
  cases h with
  | last h =>
      obtain ⟨behind, hstart⟩ := exists_skipBlank_eq h rest
      exact members_quote d hstart
  | more h hmore =>
      rw [List.append_assoc, List.cons_append]
      obtain ⟨behind, hstart⟩ := exists_skipBlank_eq h (',' :: (_ ++ rest))
      exact members_quote d hstart

/-- The members of an object are read up to its end, and the draft has got all that they set. -/
theorem exists_members_eq {fields : List Field} {text : List Char} (h : Members c fields text)
    {d : Draft} (hcopies : Copies c d) (hnodup : fields.Nodup) (hnew : ∀ f ∈ fields, f ∉ d.given)
    (rest : List Char) :
    ∃ d', Copies c d' ∧ (∀ f ∈ fields, f ∈ d'.given) ∧ (∀ f ∈ d.given, f ∈ d'.given) ∧
      member d (skipBlank (text ++ '\x7d' :: rest)) = .ok (d', rest) := by
  -- Each member leaves another draft, so the rest has to be read with any.
  induction h generalizing d with
  | @last field text h =>
      have hclose : Delimited ('\x7d' :: rest) := delimited_cons (by decide) rest
      obtain ⟨d', hcopies', hgiven, hmember⟩ :=
        exists_member_eq h hcopies (fun f hf => hnew f (Option.mem_toList.mpr hf)) hclose
      refine ⟨d', hcopies', fun f hf => ?_, fun f hf => ?_, ?_⟩
      · rw [hgiven]
        exact List.mem_append_left _ hf
      · rw [hgiven]
        exact List.mem_append_right _ hf
      · rw [hmember, members_close]
  | @more field fields text behind h hmore ih =>
      obtain ⟨hfield, hfields, hapart⟩ := List.nodup_append.mp hnodup
      have hcomma : Delimited (',' :: (behind ++ '\x7d' :: rest)) := delimited_cons (by decide) _
      obtain ⟨d₁, hcopies₁, hgiven₁, hmember⟩ :=
        exists_member_eq h hcopies
          (fun f hf => hnew f (List.mem_append_left _ (Option.mem_toList.mpr hf))) hcomma
      have hnew₁ : ∀ f ∈ fields, f ∉ d₁.given := by
        intro f hf hgiven
        rw [hgiven₁] at hgiven
        obtain hmine | hbefore := List.mem_append.mp hgiven
        · exact hapart f hmine f hf rfl
        · exact hnew f (List.mem_append_right _ hf) hbefore
      obtain ⟨d', hcopies', hall, hkept, hmembers⟩ := ih hcopies₁ hfields hnew₁
      have hfirst : ∀ f ∈ field.toList ++ d.given, f ∈ d'.given := by
        rw [← hgiven₁]
        exact hkept
      refine ⟨d', hcopies', fun f hf => ?_, fun f hf => hfirst f (List.mem_append_right _ hf), ?_⟩
      · obtain hmine | hbehind := List.mem_append.mp hf
        · exact hfirst f (List.mem_append_left _ hmine)
        · exact hall f hbehind
      · rw [List.append_assoc, List.cons_append, hmember, members_comma, hmembers]

end Draft

/-! ### Whole texts -/

theorem ofJson_object {b : List Char} (hb : Blanks b) {text : String} {rest : List Char}
    (h : text.toList = b ++ '\x7b' :: rest) :
    ofJson text = Draft.finish (Draft.members {} true rest) := by
  rw [ofJson, h, skipBlank_append hb, skipBlank_cons (by decide)]
  exact if_pos rfl

theorem finish_blanks {b : List Char} (hb : Blanks b) (d : Draft) :
    Draft.finish (.ok (d, b)) = .ok d.config := by
  rw [Draft.finish, readEnd, skipBlank_blanks hb]
  rfl

theorem Spelling.ofJson_eq {text : String} (h : c.Spelling text.toList) : ofJson text = .ok c := by
  generalize hchars : text.toList = chars at h
  cases h with
  | empty h₀ h₁ h₂ hdefault =>
      have hcopies : Draft.Copies c {} := Draft.copies_new
      rw [ofJson_object h₀ hchars, Draft.members_blanks_append h₁, Draft.members_close, finish_blanks h₂,
        hcopies.eq fun field _ => hdefault field]
  | @members fields b₀ b₂ members h₀ h h₂ hnodup hdefault =>
      obtain ⟨d', hcopies, hall, -, hmembers⟩ := Draft.exists_members_eq h Draft.copies_new hnodup
        (fun f _ hgiven => nomatch hgiven) b₂
      rw [ofJson_object h₀ hchars, Draft.members_first h, hmembers, finish_blanks h₂,
        hcopies.eq fun field hmissing => hdefault field fun hmem => hmissing (hall field hmem)]

/-! ### The printed text -/

theorem plain_name (field : Field) : ∀ ch ∈ field.name.toList, Plain ch := by
  cases field <;> simp [Field.name, Plain]

/-- A setting as it is printed, without blanks. -/
def settingText (c : Config) (field : Field) : List Char :=
  quoted field.name.toList ++ ':' :: c.valueText field

theorem member_settingText (c : Config) (field : Field) :
    Member c (some field) (c.settingText field) := by
  have hsetting : Member c (some field)
      ([] ++ quoted field.name.toList ++ [] ++ ':' :: ([] ++ c.valueText field ++ [])) :=
    .setting .nil (spells_self (plain_name field)) .nil .nil .nil
  rw [List.nil_append, List.append_nil, List.nil_append, List.append_nil] at hsetting
  exact hsetting

theorem toList_countText (n : Option UInt64) :
    (countText "null" "" "" n).toList = optionalDecimal n := by
  cases n with
  | none => rfl
  | some n =>
      rw [countText, String.toList_append, String.toList_append]
      exact List.append_nil _

theorem toList_append_eq {s t : String} {chars more : List Char} (hs : s.toList = chars)
    (ht : t.toList = more) : (s ++ t).toList = chars ++ more := by
  rw [String.toList_append, hs, ht]

theorem toList_json (c : Config) :
    c.json.toList = '\x7b' :: (c.settingText .idleTimeoutMs ++ ',' :: (c.settingText .workerThreads ++
      ',' :: (c.settingText .maxPooledBuffers ++ ',' :: c.settingText .bufferSize))) ++ ['\x7d'] := by
  have hidle : "\x7b\"idle_timeout_ms\":".toList =
      '\x7b' :: (quoted (Field.name .idleTimeoutMs).toList ++ [':']) := rfl
  have hworkers : ",\"worker_threads\":".toList =
      ',' :: (quoted (Field.name .workerThreads).toList ++ [':']) := rfl
  have hpooled : ",\"max_pooled_buffers\":".toList =
      ',' :: (quoted (Field.name .maxPooledBuffers).toList ++ [':']) := rfl
  have hsize : ",\"buffer_size\":".toList =
      ',' :: (quoted (Field.name .bufferSize).toList ++ [':']) := rfl
  have hend : "\x7d".toList = ['\x7d'] := rfl
  have hfirst := toList_append_eq hidle (rfl : _ = decimal c.idleTimeoutMs)
  have hsecond := toList_append_eq (toList_append_eq hfirst hworkers) (toList_countText c.workerThreads)
  have hthird := toList_append_eq (toList_append_eq hsecond hpooled) (rfl : _ = decimal c.maxPooledBuffers)
  have hfourth := toList_append_eq (toList_append_eq hthird hsize) (rfl : _ = decimal c.bufferSize)
  refine (toList_append_eq hfourth hend).trans ?_
  simp only [settingText, valueText, List.append_assoc, List.cons_append, List.nil_append]

theorem spelling_json (c : Config) : c.Spelling c.json.toList := by
  have hmembers : Members c [.idleTimeoutMs, .workerThreads, .maxPooledBuffers, .bufferSize]
      (c.settingText .idleTimeoutMs ++ ',' :: (c.settingText .workerThreads ++
        ',' :: (c.settingText .maxPooledBuffers ++ ',' :: c.settingText .bufferSize))) :=
    .more (member_settingText c _) (.more (member_settingText c _) (.more (member_settingText c _)
      (.last (member_settingText c _))))
  rw [toList_json]
  refine .members .nil hmembers .nil (by decide) fun field hmissing => ?_
  exact absurd (by cases field <;> decide) hmissing

/-- **Every text of a configuration is read as it.** Whichever of the settings that have their defaults
are left out, in whatever order the others stand and however their names are spelled, with any blanks and
any members whose names are none of the four, of whatever values, the text is read as the configuration.
The printed text is one of them, so reading undoes printing. -/
theorem spellings_are_read (c : Config) :
    (∀ text : String, c.Spelling text.toList → ofJson text = .ok c) ∧
      c.Spelling c.json.toList ∧ ofJson c.json = .ok c :=
  ⟨fun _ h => h.ofJson_eq, spelling_json c, (spelling_json c).ofJson_eq⟩

/-- A name with an escape, a setting in front of what nobody knows, and three settings left out. -/
theorem escaped_setting_is_read :
    ({ bufferSize := 9 } : Config).Spelling
        "\x7b \"\\u0062uffer_size\":9 ,\"x\" : [ \x7b\"y\":null\x7d, -1.5e+3 ]\x7d".toList ∧
      ofJson "\x7b \"\\u0062uffer_size\":9 ,\"x\" : [ \x7b\"y\":null\x7d, -1.5e+3 ]\x7d" =
        .ok { bufferSize := 9 } := by
  have hspace : Blanks [' '] := by simp [Blanks, blanks]
  have hescape : HexWord ['0', '0', '6', '2'] 0x62 :=
    HexWord.digits (i := 0) (j := 0) (k := 6) (l := 2) (by decide) (by decide) (by decide) (by decide)
  have hbehind : ∀ ch ∈ ['u', 'f', 'f', 'e', 'r', '_', 's', 'i', 'z', 'e'], Plain ch := by
    simp [Plain]
  have hname := Spells.hex hescape (.inl (by decide)) (spells_self hbehind)
  have hsetting : Member { bufferSize := 9 } (some .bufferSize) _ :=
    .setting hspace hname .nil .nil hspace
  have hx : ∀ ch ∈ ['x'], Plain ch := by simp [Plain]
  have hy : Chars ['y'] := .plain (by simp [Plain]) .nil
  have hobject := Written.nest (.last (.member .nil hy .nil .nil .null .nil))
  have hdigit : Digits ['1'] ∧ Digits ['5'] ∧ Digits ['3'] := by simp [Digits]
  have hnumber := Numeral.negative (.parts (.digits (by decide) hdigit.1) (.point hdigit.2.1)
    (.signed (List.mem_cons_self : 'e' ∈ ['e', 'E']) (List.mem_cons_self : '+' ∈ ['+', '-']) hdigit.2.2))
  have harray := Written.nest (.more (.element hspace hobject .nil)
    (.last (.element hspace (.number hnumber) hspace)))
  have hunknown : Member { bufferSize := 9 } none _ :=
    .unknown .nil (spells_self hx) (fun field => by cases field <;> decide) hspace hspace harray .nil
  have hspelling : ({ bufferSize := 9 } : Config).Spelling _ :=
    .members .nil (.more hsetting (.last hunknown)) .nil (by decide) fun field hmissing => by
      cases field <;> first | rfl | exact absurd (by decide) hmissing
  exact ⟨hspelling, (spellings_are_read { bufferSize := 9 }).1 _ hspelling⟩

end SpdySessions.Config
