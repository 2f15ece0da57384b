import SpdySessions.Fault

/-! The two protocol versions, their numbers and their negotiation names. -/

namespace SpdySessions

/-- A protocol version. Version 3 has flow control per stream, version 2 has none. -/
inductive Version where
  | v2
  | v3
  deriving DecidableEq

namespace Version

/-- The number that every control frame carries. -/
def number : Version → UInt16
  | v2 => 2
  | v3 => 3

def ofNumber (n : UInt16) : Except Fault Version :=
  if n = 2 then .ok v2
  else if n = 3 then .ok v3
  else .error (.unsupportedVersion n)

/-- The name under which the version is negotiated. -/
def protocol : Version → String
  | v2 => "spdy/2"
  | v3 => "spdy/3"

def label : Version → String
  | v2 => "V2"
  | v3 => "V3"

@[simp] theorem ofNumber_number (v : Version) : ofNumber v.number = .ok v := by
  cases v <;> rfl

theorem number_of_ofNumber {n : UInt16} {v : Version} (h : ofNumber n = .ok v) : v.number = n := by
  unfold ofNumber at h
  split at h
  · cases h; simp_all [number]
  · split at h
    · cases h; simp_all [number]
    · cases h

end Version

end SpdySessions
