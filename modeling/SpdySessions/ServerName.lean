import SpdySessions.Address
import SpdySessions.Fault
import SpdySessions.Version

/-!
Whom a secured connection talks to. A server is named by a host name or by an address; a text that
is neither is refused. The client offers exactly the protocol of its version.
-/

namespace SpdySessions

/-- The name that a server's certificate has to carry. -/
inductive ServerName where
  | host (name : String)
  | address (ip : IpAddress)
  deriving DecidableEq

namespace ServerName

def isLabelChar (c : Char) : Bool :=
  c.isAlpha ∨ c.isDigit ∨ c = '_' ∨ c = '-'

/-- A label has 1 to 63 characters and neither starts nor ends with a hyphen. -/
def isLabel (label : List Char) : Bool :=
  1 ≤ label.length ∧ label.length ≤ 63 ∧ label.all isLabelChar ∧
    label.head? ≠ some '-' ∧ label.getLast? ≠ some '-'

/-- The labels of a name; one dot at its end adds none. -/
def labels (name : List Char) : List (List Char) :=
  let parts := partsAt '.' name
  if parts.getLast? = some [] ∧ 1 < parts.length then parts.dropLast else parts

/-- A host name has at most 253 characters and only proper labels, the last of which holds more than
digits. -/
def isHostName (name : List Char) : Bool :=
  name.length ≤ 253 ∧ (labels name).all isLabel ∧
    (labels name).getLast?.any fun last => ¬last.all Char.isDigit

/-- Reads a server's name. A host name is kept as written. -/
def ofText (text : String) : Except Fault ServerName :=
  if isHostName text.toList then .ok (host text)
  else
    match IpAddress.ofText? text.toList with
    | some ip => .ok (address ip)
    | none => .error (.config .serverName)

def describe : ServerName → String
  | host name => s!"DnsName(\"{name}\")"
  | address ip =>
      let bytes := ", ".intercalate (ip.bytes.map fun b => toString b.toNat)
      match ip with
      | .v4 _ _ _ _ => s!"IpAddress(V4(Ipv4Addr([{bytes}])))"
      | .v6 _ _ _ _ _ _ _ _ => s!"IpAddress(V6(Ipv6Addr([{bytes}])))"

end ServerName

/-- Whether connections are secured, and the server's name if it is not the peer's address. -/
inductive Security where
  | plain
  | tls (serverName : Option ServerName)
  deriving DecidableEq

namespace Security

def isTls : Security → Bool
  | plain => false
  | tls _ => true

/-- The protocols that a client of a version offers in the handshake; without one there is no
offer. -/
def offer (security : Security) (version : Version) : Option (List String) :=
  match security with
  | plain => none
  | tls _ => some [version.protocol]

/-- The name that the certificate of a peer has to carry: the given one, else the peer's address. -/
def expectedName (serverName : Option ServerName) (peer : Address) : ServerName :=
  serverName.getD (.address peer.ip)

def describe : Security → String
  | plain => "Plain"
  | tls none => "Tls(TlsContext \x7b server_name: None, .. \x7d)"
  | tls (some name) => s!"Tls(TlsContext \x7b server_name: Some({name.describe}), .. \x7d)"

end Security

end SpdySessions
