import Sortie.Engine.Options

/-!
# Target URIs

The constructor of `UriImpl` (engine/source/common/uri_impl.cc). Taking the host and
the path out of the text is Envoy's, and is a parameter.
-/

namespace Sortie.Engine

/-- The text before and after `Utility::findPortSeparator`. -/
def cutPort (host : String) : Option (String × String) :=
  match host.toList with
  | '[' :: _ =>
    -- the first colon from the closing bracket on, or none without a bracket
    match Text.cut host "]" with
    | none => none
    | some (before, after) => (Text.cut after ":").map fun (a, b) => (before ++ "]" ++ a, b)
  | _ => Text.cutLast host ':'

/-- `UriImpl`. -/
structure UriImpl where
  hostAndPort : String
  hostWithoutPort : String
  path : String
  port : Nat
  scheme : String
  deriving DecidableEq, Repr

namespace UriImpl

/-- `isValid`. -/
def isValid (u : UriImpl) : Bool :=
  ["http", "https", "zipkin", "grpc", "tcp", "tcps", "udp"].contains u.scheme
    && (decide (0 < u.port) && decide (u.port ≤ 65535))
    && u.hostWithoutPort != "" && u.hostWithoutPort.toList.head? != some '-'

/-- The port of a URI that names none; 0 when there is no usual one. -/
def defaultPort (scheme : String) : Nat :=
  if scheme = "https" then 443
  else if scheme = "grpc" then 8443
  else if scheme = "tcp" ∨ scheme = "tcps" ∨ scheme = "udp" then 0
  else 80

/-- The constructor, with the host and the path found in `uri`; the text is that of the
`UriException`. -/
def parse (host path uri defaultScheme : String) : Except String UriImpl :=
  if host = "" then .error "Invalid URI (no host)"
  else
    let scheme := match Text.cut uri "://" with
      | some (before, _) => Text.asciiLower before
      | none => defaultScheme
    let valid (u : UriImpl) : Except String UriImpl :=
      if u.isValid then .ok u else .error "Invalid URI"
    match cutPort host with
    | none =>
      let port := defaultPort scheme
      let hostAndPort := host ++ ":" ++ toString port
      valid { hostAndPort, hostWithoutPort := host, path, port, scheme }
    | some (before, after) =>
      match simpleAtoi after with
      | none => .error "Invalid URI, couldn't parse port"
      | some port =>
        valid { hostAndPort := host, hostWithoutPort := before, path, port := port.toNat, scheme }

end UriImpl

end Sortie.Engine
