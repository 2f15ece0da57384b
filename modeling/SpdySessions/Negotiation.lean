import SpdySessions.Channel
import SpdySessions.Version

/-!
Pending negotiations: for each channel at most one handler, which knows the one protocol that it
takes.
-/

namespace SpdySessions

/-- A handler takes one protocol, where it is offered. -/
structure Negotiator where
  protocol : String
  deriving DecidableEq

namespace Negotiator

def ofVersion (version : Version) : Negotiator :=
  ⟨version.protocol⟩

/-- The handler's protocol, if it is among those on offer. -/
def select (n : Negotiator) (offered : List String) : Option String :=
  if n.protocol ∈ offered then some n.protocol else none

def quotedChar (c : Char) : String :=
  if c = '"' then "\\\""
  else if c = '\\' then "\\\\"
  else if c = '\n' then "\\n"
  else if c = '\r' then "\\r"
  else if c = '\t' then "\\t"
  else if c = '\x00' then "\\0"
  else if c.toNat < 0x20 ∨ (0x7F ≤ c.toNat ∧ c.toNat < 0xA0) then
    "\\u\x7b" ++ String.ofList (Nat.toDigits 16 c.toNat) ++ "\x7d"
  else c.toString

def quotedNames (names : List String) : String :=
  let quoted (name : String) := "\"" ++ String.join (name.toList.map quotedChar) ++ "\""
  "[" ++ ", ".intercalate (names.map quoted) ++ "]"

def noCommon (offered : List String) : Fault :=
  .negotiation ("No common protocol, server offered " ++ quotedNames offered)

end Negotiator

/-- The handlers of the channels that are negotiating. -/
structure Negotiations where
  handlers : List (ChannelId × Negotiator) := []

namespace Negotiations

def get? (ns : Negotiations) (channel : ChannelId) : Option Negotiator :=
  (ns.handlers.find? (·.1 = channel)).map (·.2)

def erase (ns : Negotiations) (channel : ChannelId) : Negotiations :=
  ⟨ns.handlers.filter (·.1 ≠ channel)⟩

/-- Sets the handler of a channel in place of the one before. -/
def put (ns : Negotiations) (channel : ChannelId) (handler : Negotiator) : Negotiations :=
  ⟨(ns.erase channel).handlers ++ [(channel, handler)]⟩

def take (ns : Negotiations) (channel : ChannelId) : Option Negotiator × Negotiations :=
  (ns.get? channel, ns.erase channel)

def size (ns : Negotiations) : Nat :=
  ns.handlers.length

def describe (ns : Negotiations) : String :=
  s!"NegotiationRegistry \x7b len: {ns.size} \x7d"

end Negotiations

end SpdySessions
