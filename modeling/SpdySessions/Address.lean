/-!
Network addresses and their texts. An address is read in any of its usual spellings and shown in
one: the fourth form dotted, the sixth in lower case with its first longest run of zero groups left
out.
-/

namespace SpdySessions

/-- Cuts a text at every `mark`. There is always at least one part. -/
def partsAt (mark : Char) : List Char → List (List Char)
  | [] => [[]]
  | c :: rest =>
      if c = mark then [] :: partsAt mark rest
      else
        match partsAt mark rest with
        | [] => [[c]]
        | part :: parts => (c :: part) :: parts

/-- The number that digits of a base below 17 stand for. -/
def digitsInBase? (base : Nat) (text : List Char) : Option Nat :=
  text.foldlM (fun n c => do
    let value ←
      if '0' ≤ c ∧ c ≤ '9' then some (c.toNat - '0'.toNat)
      else if 'a' ≤ c ∧ c ≤ 'f' then some (c.toNat - 'a'.toNat + 10)
      else if 'A' ≤ c ∧ c ≤ 'F' then some (c.toNat - 'A'.toNat + 10)
      else none
    if value < base then some (n * base + value) else none) 0

/-- An internet address. -/
inductive IpAddress where
  | v4 (a b c d : UInt8)
  | v6 (g0 g1 g2 g3 g4 g5 g6 g7 : UInt16)
  deriving DecidableEq

namespace IpAddress

/-- A byte written in decimal: up to three digits, and no zero in front of others. -/
def byte? (text : List Char) : Option UInt8 :=
  if text.isEmpty ∨ 3 < text.length ∨ (text.head? = some '0' ∧ 1 < text.length) then none
  else do
    let n ← digitsInBase? 10 text
    if n < 0x100 then some (UInt8.ofNat n) else none

/-- The four bytes of a dotted address. -/
def dotted? (text : List Char) : Option (UInt8 × UInt8 × UInt8 × UInt8) :=
  match partsAt '.' text with
  | [a, b, c, d] => do return (← byte? a, ← byte? b, ← byte? c, ← byte? d)
  | _ => none

/-- A group of up to four hex digits. -/
def group? (text : List Char) : Option UInt16 :=
  if text.isEmpty ∨ 4 < text.length then none
  else (digitsInBase? 16 text).map UInt16.ofNat

/-- Groups between colons. A dotted address may stand for the last two. -/
def groups? : List (List Char) → Option (List UInt16)
  | [] => some []
  | [last] =>
      match dotted? last with
      | some (a, b, c, d) =>
          some [UInt16.ofNat (a.toNat * 256 + b.toNat), UInt16.ofNat (c.toNat * 256 + d.toNat)]
      | none => (group? last).map ([·])
  | part :: parts => do return (← group? part) :: (← groups? parts)

/-- The groups of a text, none of which is an empty text. -/
def groupsOf? (text : List Char) : Option (List UInt16) :=
  if text.isEmpty then some [] else groups? (partsAt ':' text)

/-- Cuts a text at its first double colon. -/
def gap? : List Char → Option (List Char × List Char)
  | ':' :: ':' :: rest => some ([], rest)
  | c :: rest => (gap? rest).map fun (head, tail) => (c :: head, tail)
  | [] => none

def ofGroups? : List UInt16 → Option IpAddress
  | [g0, g1, g2, g3, g4, g5, g6, g7] => some (v6 g0 g1 g2 g3 g4 g5 g6 g7)
  | _ => none

/-- Reads an address of eight groups. A double colon stands for one zero group or more, and no
dotted address stands in front of it. -/
def sixth? (text : List Char) : Option IpAddress :=
  match gap? text with
  | none => groupsOf? text >>= ofGroups?
  | some (head, tail) => do
      let before ← if head.contains '.' then none else groupsOf? head
      let behind ← groupsOf? tail
      let given := before.length + behind.length
      if given < 8 then ofGroups? (before ++ List.replicate (8 - given) 0 ++ behind) else none

def ofText? (text : List Char) : Option IpAddress :=
  match dotted? text with
  | some (a, b, c, d) => some (v4 a b c d)
  | none => sixth? text

/-- Four bytes in decimal with dots between them. -/
def dottedText (a b c d : UInt8) : String :=
  s!"{a.toNat}.{b.toNat}.{c.toNat}.{d.toNat}"

/-- A group in hex digits without zeros in front. -/
def groupText (g : UInt16) : String :=
  String.ofList (Nat.toDigits 16 g.toNat)

def groupsText (groups : List UInt16) : String :=
  ":".intercalate (groups.map groupText)

/-- How many zeros a list of groups starts with. -/
def zerosAhead (groups : List UInt16) : Nat :=
  (groups.takeWhile (· = 0)).length

/-- The place and length of the first longest run of zero groups. -/
def longestZeros (groups : List UInt16) : Nat × Nat :=
  (List.range groups.length).foldl (fun best i =>
    let n := zerosAhead (groups.drop i)
    if best.2 < n then (i, n) else best) (0, 0)

/-- Eight groups with the first longest run of two or more zeros left out. -/
def sixthText (groups : List UInt16) : String :=
  let (start, length) := longestZeros groups
  if 1 < length then
    groupsText (groups.take start) ++ "::" ++ groupsText (groups.drop (start + length))
  else groupsText groups

/-- The address in its one form. One of eight groups that carries a dotted one ends in it. -/
def text : IpAddress → String
  | v4 a b c d => dottedText a b c d
  | v6 g0 g1 g2 g3 g4 g5 g6 g7 =>
      if [g0, g1, g2, g3, g4, g5] = [0, 0, 0, 0, 0, 0xFFFF] then
        "::ffff:" ++ dottedText (UInt8.ofNat (g6.toNat / 256)) (UInt8.ofNat g6.toNat)
          (UInt8.ofNat (g7.toNat / 256)) (UInt8.ofNat g7.toNat)
      else sixthText [g0, g1, g2, g3, g4, g5, g6, g7]

def bytes : IpAddress → List UInt8
  | v4 a b c d => [a, b, c, d]
  | v6 g0 g1 g2 g3 g4 g5 g6 g7 =>
      [g0, g1, g2, g3, g4, g5, g6, g7].flatMap fun g =>
        [UInt8.ofNat (g.toNat / 256), UInt8.ofNat g.toNat]

end IpAddress

/-- An address with a port, and the zone of a local address if it is not the usual one. -/
structure Address where
  ip : IpAddress
  port : UInt16
  zone : UInt32 := 0
  deriving DecidableEq

namespace Address

/-- A decimal number below a bound. -/
def decimal? (bound : Nat) (text : List Char) : Option Nat := do
  if text.isEmpty then none
  let n ← digitsInBase? 10 text
  if n < bound then some n else none

/-- Reads an address and a port. One of eight groups stands in brackets, its zone behind a percent
sign. -/
def ofText? (text : String) : Option Address :=
  match text.toList with
  | '[' :: rest =>
      match partsAt ']' rest with
      | [inside, ':' :: port] => do
          let port ← decimal? (0x10000) port
          match partsAt '%' inside with
          | [ip] => return { ip := ← IpAddress.sixth? ip, port := UInt16.ofNat port }
          | [ip, zone] =>
              return {
                ip := ← IpAddress.sixth? ip
                port := UInt16.ofNat port
                zone := UInt32.ofNat (← decimal? (0x100000000) zone) }
          | _ => none
      | _ => none
  | rest =>
      match partsAt ':' rest with
      | [ip, port] => do
          let (a, b, c, d) ← IpAddress.dotted? ip
          return { ip := .v4 a b c d, port := UInt16.ofNat (← decimal? (0x10000) port) }
      | _ => none

/-- The address in its one form. -/
def text (a : Address) : String :=
  match a.ip with
  | .v4 _ _ _ _ => s!"{a.ip.text}:{a.port.toNat}"
  | .v6 _ _ _ _ _ _ _ _ =>
      if a.zone = 0 then s!"[{a.ip.text}]:{a.port.toNat}"
      else s!"[{a.ip.text}%{a.zone.toNat}]:{a.port.toNat}"

end Address

end SpdySessions
