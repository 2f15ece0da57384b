import Mathlib.Logic.Function.Iterate
import SpdySessions.Fault

/-! Faults inside failed connects. A fault is some number of failed connects around one that is none,
and each of the things that can be asked of a fault has one rule for a failed connect: its class is that
of its cause, its words are those of its cause with a beginning before them, and its cause stands behind
it with all that stands behind the cause. So the rule for one failed connect becomes one for any number
of them, and what a fault is can be read off the innermost alone. -/

namespace SpdySessions

/-- What another library's error shows: its words, and the words of the errors behind it. -/
structure Foreign where
  text : String
  behind : List String

namespace Fault

open Function

/-- The errors of other libraries that faults hand on. -/
structure Others where
  tls : Foreign
  io : IoKind → Foreign
  json : JsonFault → Foreign

/-- Nothing stands behind the errors of other libraries. -/
structure Others.Last (others : Others) : Prop where
  tls : others.tls.behind = []
  io : ∀ kind, (others.io kind).behind = []
  json : ∀ category, (others.json category).behind = []

/-- The whole wording of a fault, with the words of another library's error where it hands one on. -/
def text (others : Others) : Fault → String
  | tls => "TLS error: " ++ others.tls.text
  | io kind wording => "IO error: " ++ wording.getD (others.io kind).text
  | json category => "JSON error: " ++ (others.json category).text
  | connectFailed cause => "Connect failed: " ++ cause.text others
  | fault => fault.message?.getD ""

/-- The words of what stands behind a fault, nearest first. -/
def chain (others : Others) : Fault → List String
  | tls => others.tls.text :: others.tls.behind
  | io kind wording => wording.getD (others.io kind).text :: (others.io kind).behind
  | json category => (others.json category).text :: (others.json category).behind
  | connectFailed cause => cause.text others :: cause.chain others
  | _ => []

variable {others : Others}

@[simp] theorem text_connectFailed (cause : Fault) :
    (connectFailed cause).text others = "Connect failed: " ++ cause.text others := rfl

/-- A fault that has a wording of its own is worded so, whatever other libraries say. -/
theorem text_of_message? {fault : Fault} {words : String} (h : fault.message? = some words) :
    fault.text others = words := by
  induction fault generalizing words with
  | tls => cases h
  | json category => cases h
  | io kind wording =>
      obtain ⟨own, rfl, rfl⟩ := Option.map_eq_some_iff.mp h
      rfl
  | connectFailed cause ih =>
      obtain ⟨inner, hinner, rfl⟩ := Option.map_eq_some_iff.mp h
      exact congrArg ("Connect failed: " ++ ·) (ih hinner)
  | _ => exact Option.some.inj h

/-- As many errors stand behind a fault as is said, if those of other libraries are the last. -/
theorem length_chain (h : others.Last) (fault : Fault) :
    (fault.chain others).length = fault.depth := by
  induction fault with
  | tls => rw [chain, h.tls]; rfl
  | io kind wording => rw [chain, h.io]; rfl
  | json category => rw [chain, h.json]; rfl
  | connectFailed cause ih => rw [chain, List.length_cons, ih, depth]
  | _ => rfl

/-! ### Any number of failed connects -/

@[simp] theorem isStateError_connectFailed (cause : Fault) :
    (connectFailed cause).isStateError = cause.isStateError := rfl

@[simp] theorem isTimeout_connectFailed (cause : Fault) :
    (connectFailed cause).isTimeout = cause.isTimeout := rfl

@[simp] theorem isConnectionError_connectFailed (cause : Fault) :
    (connectFailed cause).isConnectionError = cause.isConnectionError := rfl

/-- What a failed connect has from its cause, any number of failed connects have. -/
theorem eq_of_looksThrough {α : Type} {read : Fault → α}
    (h : ∀ cause, read (connectFailed cause) = read cause) (n : Nat) (cause : Fault) :
    read (connectFailed^[n] cause) = read cause := by
  have hread : Semiconj read connectFailed id := h
  rw [hread.iterate_right n cause, iterate_id, id]

/-- Two faults are of the same class, by all three questions. -/
structure Alike (fault other : Fault) : Prop where
  state : fault.isStateError = other.isStateError
  timeout : fault.isTimeout = other.isTimeout
  connection : fault.isConnectionError = other.isConnectionError

theorem alike_iterate (n : Nat) (cause : Fault) : Alike (connectFailed^[n] cause) cause where
  state := eq_of_looksThrough isStateError_connectFailed n cause
  timeout := eq_of_looksThrough isTimeout_connectFailed n cause
  connection := eq_of_looksThrough isConnectionError_connectFailed n cause

theorem alike_connectFailed (cause : Fault) : Alike (connectFailed cause) cause :=
  alike_iterate 1 cause

/-- The beginning that some failed connects put before the words of their cause. -/
def opening (n : Nat) : String :=
  String.join (List.replicate n "Connect failed: ")

theorem opening_succ_append (n : Nat) (words : String) :
    opening (n + 1) ++ words = "Connect failed: " ++ (opening n ++ words) := by
  rw [opening, List.replicate_succ, String.join_cons, String.append_assoc, opening]

theorem text_iterate (n : Nat) (cause : Fault) :
    (connectFailed^[n] cause).text others = opening n ++ cause.text others := by
  induction n with
  | zero => exact (String.empty_append).symm
  | succ n ih =>
      calc (connectFailed^[n + 1] cause).text others
        _ = (connectFailed (connectFailed^[n] cause)).text others := by rw [iterate_succ_apply']
        _ = "Connect failed: " ++ (opening n ++ cause.text others) := by rw [text_connectFailed, ih]
        _ = opening (n + 1) ++ cause.text others := (opening_succ_append n _).symm

theorem message?_iterate (n : Nat) (cause : Fault) :
    (connectFailed^[n] cause).message? = cause.message?.map (opening n ++ ·) := by
  induction n with
  | zero =>
      have hnothing : (opening 0 ++ ·) = id := by
        funext words
        exact String.empty_append
      rw [hnothing, Option.map_id, id]
      rfl
  | succ n ih =>
      have hone : (opening (n + 1) ++ ·) = ("Connect failed: " ++ ·) ∘ (opening n ++ ·) := by
        funext words
        exact opening_succ_append n words
      rw [iterate_succ_apply', message?, ih, Option.map_map, hone]

/-- The failed connects inside stand behind the outermost, and then comes what stands behind their
cause. -/
theorem chain_iterate (n : Nat) (cause : Fault) :
    (connectFailed^[n] cause).chain others =
      (List.range n).reverse.map (fun i => (connectFailed^[i] cause).text others) ++
        cause.chain others := by
  induction n with
  | zero => rfl
  | succ n ih =>
      rw [iterate_succ_apply', chain, ih, List.range_succ, List.reverse_concat, List.map_cons,
        List.cons_append]

theorem depth_iterate (n : Nat) (cause : Fault) :
    (connectFailed^[n] cause).depth = n + cause.depth := by
  induction n with
  | zero => exact (Nat.zero_add _).symm
  | succ n ih => rw [iterate_succ_apply', depth, ih, Nat.add_right_comm]

/-- All that can be asked of a fault goes through the failed connects around it. -/
structure SeenThrough (others : Others) (n : Nat) (cause : Fault) : Prop where
  alike : Alike (connectFailed^[n] cause) cause
  text : (connectFailed^[n] cause).text others = opening n ++ cause.text others
  message? : (connectFailed^[n] cause).message? = cause.message?.map (opening n ++ ·)
  chain : (connectFailed^[n] cause).chain others =
    (List.range n).reverse.map (fun i => (connectFailed^[i] cause).text others) ++
      cause.chain others
  longer : ((connectFailed^[n] cause).chain others).length = n + (cause.chain others).length
  depth : (connectFailed^[n] cause).depth = n + cause.depth

theorem seenThrough (others : Others) (n : Nat) (cause : Fault) : SeenThrough others n cause where
  alike := alike_iterate n cause
  text := text_iterate n cause
  message? := message?_iterate n cause
  chain := chain_iterate n cause
  longer := by
    rw [chain_iterate, List.length_append, List.length_map, List.length_reverse, List.length_range]
  depth := depth_iterate n cause

/-! ### The innermost fault -/

/-- The fault is a failed connect. -/
def isWrapped : Fault → Bool
  | connectFailed _ => true
  | _ => false

theorem exists_innermost (fault : Fault) :
    ∃ n cause, fault = connectFailed^[n] cause ∧ cause.isWrapped = false := by
  induction fault with
  | connectFailed cause ih =>
      obtain ⟨n, inner, rfl, hinner⟩ := ih
      exact ⟨n + 1, inner, (iterate_succ_apply' connectFailed n inner).symm, hinner⟩
  | _ => exact ⟨0, _, rfl, rfl⟩

/-- A class that looks through failed connects is that of the innermost fault. -/
theorem iff_innermost {p : Fault → Bool} (h : ∀ cause, p (connectFailed cause) = p cause)
    (fault : Fault) :
    p fault = true ↔
      ∃ n cause, fault = connectFailed^[n] cause ∧ cause.isWrapped = false ∧ p cause = true := by
  constructor
  · intro hfault
    obtain ⟨n, cause, rfl, hcause⟩ := fault.exists_innermost
    rw [eq_of_looksThrough h] at hfault
    exact ⟨n, cause, rfl, hcause, hfault⟩
  · rintro ⟨n, cause, rfl, -, hcause⟩
    rw [eq_of_looksThrough h]
    exact hcause

theorem isStateError_iff (fault : Fault) :
    fault.isStateError = true ↔ ∃ n, fault = connectFailed^[n] notRunning := by
  rw [iff_innermost isStateError_connectFailed]
  refine exists_congr fun n => ⟨?_, fun h => ⟨_, h, rfl, rfl⟩⟩
  rintro ⟨cause, rfl, hinner, hcause⟩
  cases cause with
  | notRunning => rfl
  | connectFailed cause => cases hinner
  | _ => cases hcause

theorem isTimeout_iff (fault : Fault) :
    fault.isTimeout = true ↔
      ∃ n milliseconds, fault = connectFailed^[n] (connectionTimeout milliseconds) := by
  rw [iff_innermost isTimeout_connectFailed]
  refine exists_congr fun n => ⟨?_, fun ⟨_, h⟩ => ⟨_, h, rfl, rfl⟩⟩
  rintro ⟨cause, rfl, hinner, hcause⟩
  cases cause with
  | connectionTimeout milliseconds => exact ⟨milliseconds, rfl⟩
  | connectFailed cause => cases hinner
  | _ => cases hcause

/-- The faults of a connection itself: it could not be made, took too long, was closed, or the system
let it down. -/
inductive OfConnection : Fault → Prop
  | connection (reason : String) : OfConnection (connection reason)
  | connectionTimeout (milliseconds : UInt64) : OfConnection (connectionTimeout milliseconds)
  | connectionClosed : OfConnection connectionClosed
  | io (kind : IoKind) (wording : Option String) : OfConnection (io kind wording)

theorem isConnectionError_iff (fault : Fault) :
    fault.isConnectionError = true ↔
      ∃ n cause, fault = connectFailed^[n] cause ∧ OfConnection cause := by
  rw [iff_innermost isConnectionError_connectFailed]
  refine exists_congr fun n => exists_congr fun cause => and_congr_right fun _ => ⟨?_, ?_⟩
  · rintro ⟨hinner, hcause⟩
    cases cause with
    | connection reason => exact .connection reason
    | connectionTimeout milliseconds => exact .connectionTimeout milliseconds
    | connectionClosed => exact .connectionClosed
    | io kind wording => exact .io kind wording
    | connectFailed cause => cases hinner
    | _ => cases hcause
  · intro h
    cases h <;> exact ⟨rfl, rfl⟩

/-- The faults that hand on an error of another library in its own words. -/
inductive OfOthers : Fault → Prop
  | tls : OfOthers tls
  | io (kind : IoKind) : OfOthers (io kind none)
  | json (category : JsonFault) : OfOthers (json category)

theorem message?_eq_none_iff (fault : Fault) :
    fault.message? = none ↔ ∃ n cause, fault = connectFailed^[n] cause ∧ OfOthers cause := by
  have hlooks : ∀ cause, (connectFailed cause).message?.isNone = cause.message?.isNone :=
    fun _ => Option.isNone_map
  have hinnermost := iff_innermost (p := fun fault => fault.message?.isNone) hlooks fault
  refine Option.isNone_iff_eq_none.symm.trans (hinnermost.trans ?_)
  refine exists_congr fun n => exists_congr fun cause => and_congr_right fun _ => ⟨?_, ?_⟩
  · rintro ⟨hinner, hcause⟩
    cases cause with
    | tls => exact .tls
    | json category => exact .json category
    | io kind wording =>
        cases wording with
        | none => exact .io kind
        | some own => cases hcause
    | connectFailed cause => cases hinner
    | _ => cases hcause
  · intro h
    cases h <;> exact ⟨rfl, rfl⟩

/-- What is said of a fault without knowing other libraries' errors is so, and it is left open only
where the innermost fault hands one on in its own words. -/
structure Agrees (others : Others) (fault : Fault) : Prop where
  words : ∀ words, fault.message? = some words → fault.text others = words
  wordless : fault.message? = none ↔ ∃ n cause, fault = connectFailed^[n] cause ∧ OfOthers cause
  behind : others.Last → (fault.chain others).length = fault.depth

theorem agrees (others : Others) (fault : Fault) : Agrees others fault where
  words := fun _ h => text_of_message? h
  wordless := fault.message?_eq_none_iff
  behind := fun h => length_chain h fault

/-- The classes of a fault: what is in each, that a timeout is a fault of the connection, and that a
fault of the connection is none of the state. -/
structure Classified (fault : Fault) : Prop where
  state : fault.isStateError = true ↔ ∃ n, fault = connectFailed^[n] notRunning
  timeout : fault.isTimeout = true ↔
    ∃ n milliseconds, fault = connectFailed^[n] (connectionTimeout milliseconds)
  connection : fault.isConnectionError = true ↔
    ∃ n cause, fault = connectFailed^[n] cause ∧ OfConnection cause
  lost : fault.isTimeout = true → fault.isConnectionError = true
  apart : ¬ (fault.isStateError = true ∧ fault.isConnectionError = true)

theorem classified (fault : Fault) : Classified fault where
  state := fault.isStateError_iff
  timeout := fault.isTimeout_iff
  connection := fault.isConnectionError_iff
  lost := by
    rw [isTimeout_iff, isConnectionError_iff]
    rintro ⟨n, milliseconds, h⟩
    exact ⟨n, _, h, .connectionTimeout milliseconds⟩
  apart := by
    rintro ⟨hstate, hconnection⟩
    obtain ⟨n, rfl⟩ := fault.isStateError_iff.mp hstate
    rw [(alike_iterate n notRunning).connection] at hconnection
    cases hconnection

end Fault

end SpdySessions
