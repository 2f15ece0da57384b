import SpdySessions.Config
import SpdySessions.Json.Value

/-!
Configurations as JSON. One is written as an object with every member in order, and read from an
object in which members may be missing, stand in any order and be joined by members that nobody
knows, or from an array of the values alone.
-/

namespace SpdySessions

namespace Config

/-- The configuration as JSON: its members in order, without blanks. -/
def json (c : Config) : String :=
  "\x7b\"idle_timeout_ms\":" ++ toString c.idleTimeoutMs.toNat ++
    ",\"worker_threads\":" ++ countText "null" "" "" c.workerThreads ++
    ",\"max_pooled_buffers\":" ++ toString c.maxPooledBuffers.toNat ++
    ",\"buffer_size\":" ++ toString c.bufferSize.toNat ++ "\x7d"

/-- A member of a configuration. -/
inductive Field where
  | idleTimeoutMs
  | workerThreads
  | maxPooledBuffers
  | bufferSize
  deriving DecidableEq

namespace Field

def name : Field → String
  | idleTimeoutMs => "idle_timeout_ms"
  | workerThreads => "worker_threads"
  | maxPooledBuffers => "max_pooled_buffers"
  | bufferSize => "buffer_size"

/-- All members, in the order in which an array gives them. -/
def all : List Field :=
  [idleTimeoutMs, workerThreads, maxPooledBuffers, bufferSize]

def named? (key : String) : Option Field :=
  all.find? (·.name = key)

end Field

/-- A configuration in the making, and the members it has got. -/
structure Draft where
  config : Config := {}
  given : List Field := []

namespace Draft

def read (d : Draft) (field : Field) (text : List Char) : Json.Reading Draft :=
  let limit : UInt64 := UInt64.ofNat (0xffffffffffffffff)
  let store {α : Type} (set : α → Config) : Json.Reading α → Json.Reading Draft
    | .error fault => .error fault
    | .ok (value, rest) => .ok (⟨set value, field :: d.given⟩, rest)
  match field with
  | .idleTimeoutMs =>
      store (fun n => { d.config with idleTimeoutMs := n }) (Json.readNatural limit text)
  | .workerThreads =>
      store (fun n => { d.config with workerThreads := n }) (Json.readOptional limit text)
  | .maxPooledBuffers =>
      store (fun n => { d.config with maxPooledBuffers := n }) (Json.readNatural limit text)
  | .bufferSize => store (fun n => { d.config with bufferSize := n }) (Json.readNatural limit text)

theorem length_read {d d' : Draft} {field : Field} {text rest : List Char}
    (h : d.read field text = .ok (d', rest)) : rest.length < text.length := by
  unfold read at h
  cases field <;> simp only at h <;> split at h <;>
    simp only [reduceCtorEq, Except.ok.injEq, Prod.mk.injEq] at h <;> obtain ⟨-, rfl⟩ := h <;>
    rename_i hn <;>
    first
      | exact Json.length_readNatural hn
      | exact Json.length_readOptional hn

/-- Reads the values of an array, each behind a comma except the first, up to the closing bracket.
Missing values keep their defaults. -/
def elements (d : Draft) (first : Bool) : List Field → List Char → Json.Reading Draft
  | [], text =>
      match Json.punctuation ']' text with
      | .error fault => .error fault
      | .ok rest => .ok (d, rest)
  | field :: fields, text =>
      match Json.skipBlank text with
      | [] => .error .eof
      | c :: rest =>
          if c = ']' then .ok (d, rest)
          else if ¬first ∧ c ≠ ',' then .error .grammar
          else
            let text := if first then c :: rest else rest
            if ¬first ∧ Json.skipBlank text = [] then .error .eof
            else if ¬first ∧ (Json.skipBlank text).head? = some ']' then .error .grammar
            else
              match d.read field text with
              | .error fault => .error fault
              | .ok (d, text) => elements d false fields text

mutual

/-- Reads the members of an object up to the closing brace: each but the first stands behind a
comma. -/
def members (d : Draft) (first : Bool) (text : List Char) : Json.Reading Draft :=
  match h : Json.skipBlank text with
  | [] => .error .eof
  | c :: rest =>
      have hlen : rest.length < text.length := by
        have := Json.length_skipBlank_le text
        rw [h, List.length_cons] at this
        omega
      if c = '\x7d' then .ok (d, rest)
      else if first then member d (c :: rest)
      else if c = ',' then
        have := Json.length_skipBlank_le rest
        member d (Json.skipBlank rest)
      else .error .grammar
  termination_by (text.length, 1)
  decreasing_by
    · have := Json.length_skipBlank_le text
      rw [h] at this
      rcases Nat.lt_or_eq_of_le this with hlt | heq
      · exact Prod.Lex.left _ _ hlt
      · rw [heq]; exact Prod.Lex.right _ (by decide)
    · exact Prod.Lex.left _ _ (by omega)

/-- Reads a member and those behind it. A known one must not be there yet. -/
def member (d : Draft) (text : List Char) : Json.Reading Draft :=
  match text with
  | [] => .error .eof
  | c :: text =>
      if c = '"' then
        match hkey : Json.readString [] text with
        | .error fault => .error fault
        | .ok (key, text) =>
            have := Json.length_readString hkey
            match Field.named? key with
            | some field =>
                if field ∈ d.given then .error .data
                else
                  match hcolon : Json.punctuation ':' text with
                  | .error fault => .error fault
                  | .ok text =>
                      have := Json.length_punctuation hcolon
                      match hvalue : d.read field text with
                      | .error fault => .error fault
                      | .ok (d, text) =>
                          have := length_read hvalue
                          members d false text
            | none =>
                match hcolon : Json.punctuation ':' text with
                | .error fault => .error fault
                | .ok text =>
                    have := Json.length_punctuation hcolon
                    match hvalue : Json.skipValue [] text with
                    | .error fault => .error fault
                    | .ok text =>
                        have := Json.length_skipValue hvalue
                        members d false text
      else .error .grammar
  termination_by (text.length, 0)

end

/-- The configuration of a draft with its rest, where only blanks may follow. -/
def finish : Json.Reading Draft → Except JsonFault Config
  | .error fault => .error fault
  | .ok (d, rest) =>
      match Json.readEnd rest with
      | .error fault => .error fault
      | .ok () => .ok d.config

end Draft

def ofJson (text : String) : Except JsonFault Config :=
  match Json.skipBlank text.toList with
  | [] => .error .eof
  | c :: rest =>
      if c = '\x7b' then Draft.finish (Draft.members {} true rest)
      else if c = '[' then Draft.finish (Draft.elements {} true Field.all rest)
      else .error (Json.misplaced (c :: rest))

end Config

end SpdySessions
