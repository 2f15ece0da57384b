import SpdySessions.Json.Value
import SpdySessions.Version

/-! Versions as JSON: their numbers. -/

namespace SpdySessions

namespace Version

def ofJson (text : String) : Except JsonFault Version :=
  match Json.readNatural (UInt64.ofNat (0xffff)) text.toList with
  | .error fault => .error fault
  | .ok (n, rest) =>
      match ofNumber n.toUInt16 with
      | .error _ => .error .data
      | .ok version =>
          match Json.readEnd rest with
          | .error fault => .error fault
          | .ok () => .ok version

def json (v : Version) : String :=
  toString v.number.toNat

end Version

end SpdySessions
