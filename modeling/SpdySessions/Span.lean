/-!
Lengths of time with nanosecond resolution. A span goes into whole milliseconds by cutting off the
rest, and stops at the largest 64-bit number.
-/

namespace SpdySessions

/-- A length of time. -/
structure Span where
  seconds : UInt64
  nanos : UInt32
  nanos_lt : nanos.toNat < 1_000_000_000 := by decide
  deriving DecidableEq

namespace Span

/-- No time at all. -/
def zero : Span := ⟨0, 0, by decide⟩

def toNanos (d : Span) : Nat :=
  d.seconds.toNat * 1_000_000_000 + d.nanos.toNat

def isZero (d : Span) : Bool :=
  d.toNanos == 0

/-- Whole milliseconds, or the largest 64-bit number where there are more. -/
def millis (d : Span) : UInt64 :=
  UInt64.ofNat (min (d.toNanos / 1_000_000) (0xffffffffffffffff))

def ofMillis (ms : UInt64) : Span where
  seconds := UInt64.ofNat (ms.toNat / 1000)
  nanos := UInt32.ofNat (ms.toNat % 1000 * 1_000_000)
  nanos_lt := by
    rw [UInt32.toNat_ofNat', Nat.mod_eq_of_lt] <;> omega

/-- The span with this many seconds and nanoseconds; whole seconds among the nanoseconds are cut
off. -/
def ofParts (seconds : UInt64) (nanos : UInt32) : Span where
  seconds := seconds
  nanos := UInt32.ofNat (nanos.toNat % 1_000_000_000)
  nanos_lt := by
    rw [UInt32.toNat_ofNat', Nat.mod_eq_of_lt] <;> omega

/-- `whole` with the digits of `part` of a unit of `10 ^ places` behind the point, zeros at the end
left out. -/
def decimal (whole part places : Nat) : String :=
  let digits := (toString (Nat.pow 10 places + part)).toList.drop 1
  let kept := (digits.reverse.dropWhile (· = '0')).reverse
  if kept.isEmpty then toString whole else s!"{whole}." ++ String.ofList kept

/-- The span in the largest unit of which it holds at least one. -/
def text (d : Span) : String :=
  let nanos := d.nanos.toNat
  if 0 < d.seconds.toNat then decimal d.seconds.toNat nanos 9 ++ "s"
  else if 1_000_000 ≤ nanos then decimal (nanos / 1_000_000) (nanos % 1_000_000) 6 ++ "ms"
  else if 1000 ≤ nanos then decimal (nanos / 1000) (nanos % 1000) 3 ++ "µs"
  else toString nanos ++ "ns"

theorem toNanos_ofMillis (ms : UInt64) : (ofMillis ms).toNanos = ms.toNat * 1_000_000 := by
  have h := ms.toNat_lt
  have hs : ms.toNat / 1000 % 0x10000000000000000 = ms.toNat / 1000 := Nat.mod_eq_of_lt (by omega)
  have hn : ms.toNat % 1000 * 1_000_000 % 0x100000000 = ms.toNat % 1000 * 1_000_000 :=
    Nat.mod_eq_of_lt (by omega)
  simp only [toNanos, ofMillis, UInt64.toNat_ofNat', UInt32.toNat_ofNat', hs, hn]
  omega

end Span

end SpdySessions
