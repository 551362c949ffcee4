import Sortie.Engine.OptionsImpl

/-!
# The bootstrap of a Process

`createBootstrapConfiguration` (engine/source/client/process_bootstrap.cc) with the
functions it is made of, and `SniUtility::computeSniHost`. Each worker has a cluster
for its targets, and one for its request source when there is one. What DNS answers is
a parameter.

The encapsulating Process of a tunnel has a bootstrap of its own, which is not modelled:
no message with `tunnel_options` becomes an `OptionsImpl`.
-/

namespace Sortie.Engine

open Proto Api OptionsImpl

/-! ## The messages of Envoy -/

/-- `CircuitBreakers`, by its one threshold. -/
structure CircuitBreakers where
  maxRetries : UInt32
  maxConnections : UInt32
  maxPendingRequests : UInt32
  maxRequests : UInt32
  deriving DecidableEq, Repr

/-- `explicit_http_config`. -/
inductive HttpConfig where
  | http1
  | http2 (maxConcurrentStreams : Option UInt32) (useOghttp2Codec : Option Bool)
  /-- the options of the message, as they are -/
  | http3 (options : Opaque)
  | http3Streams (maxConcurrentStreams : UInt32)
  deriving DecidableEq, Repr

/-- `HttpProtocolOptions`. -/
structure HttpProtocolOptions where
  maxRequestsPerConnection : Option UInt32 := none
  explicitHttpConfig : HttpConfig
  deriving DecidableEq, Repr

/-- `Cluster`; its type is always `STATIC`, and its load assignment has its name. -/
structure Cluster where
  name : String
  /-- in seconds -/
  connectTimeout : UInt32
  endpoints : List SocketAddress
  httpProtocolOptions : Option HttpProtocolOptions := none
  circuitBreakers : Option CircuitBreakers := none
  transportSocket : Option TransportSocket := none
  deriving DecidableEq, Repr

/-- `Bootstrap`. -/
structure Bootstrap where
  clusters : List Cluster
  statsSinks : List StatsSink
  statsFlushInterval : Duration
  upstreamBindConfig : Option Opaque
  deriving Repr

/-! ## Targets -/

/-- What the network says. -/
structure Dns where
  /-- `createDnsResolver`, or the text of its status -/
  resolver : Except String Unit
  /-- `resolve`: the address, or the text of the `UriException` -/
  resolve : UriImpl → AddressFamily → Except String String

/-- A `UriImpl` after `resolve`. -/
structure ResolvedUri extends UriImpl where
  address : String
  deriving DecidableEq, Repr

/-- The URIs of an execution. -/
structure Targets where
  uris : List ResolvedUri
  encap : Option ResolvedUri
  requestSource : Option ResolvedUri
  deriving DecidableEq, Repr

/-- The constructor of `UriImpl`. -/
def uriImpl (env : Outside) (text : String) : Except String UriImpl :=
  let (host, path) := env.hostPath text
  UriImpl.parse host path text "http"

def resolveUri (dns : Dns) (family : AddressFamily) (u : UriImpl) : Except String ResolvedUri := do
  return { u with address := ← dns.resolve u family }

namespace OptionsImpl.Members

variable (m : Members)

/-- The texts of the targets. -/
def targetTexts : List String :=
  match m.uri with
  | some u => [u]
  | none => m.multiTargetEndpoints.map fun e =>
    (if m.multiTargetUseHttps then "https" else "http") ++ "://" ++ e.address.getD "" ++ ":"
      ++ toString (e.port.getD 0).toNat ++ m.multiTargetPath

/-- A URI that is there only when its text is. -/
def optionalUri (env : Outside) (dns : Dns) (present : Bool) (text : String) :
    Except String (Option ResolvedUri) :=
  if present then do
    let u ← uriImpl env text
    return some (← resolveUri dns m.addressFamily u)
  else .ok none

/-- `extractAndResolveUrisFromOptions`. -/
def extractAndResolveUrisFromOptions (env : Outside) (dns : Dns) : Except String Targets :=
  Except.mapError
    ("URI exception (for example, malformed URI syntax, bad MultiTarget path, "
      ++ "unresolvable host DNS): " ++ ·) do
    let parsed ← m.targetTexts.mapM (uriImpl env)
    let uris ← parsed.mapM (resolveUri dns m.addressFamily)
    let encap ← m.optionalUri env dns (m.tunnelUri != "")
      ("https://localhost:" ++ toString m.encapPort.toNat)
    let requestSource ← m.optionalUri env dns (m.requestSource != "") m.requestSource
    return { uris, encap, requestSource }

/-! ## The transport socket -/

/-- `SniUtility::computeSniHost`: the host of a lone target, unless one header names another. -/
def computeSniHost (uris : List ResolvedUri) : String :=
  let authority := m.httpProtocol == .http2 || m.httpProtocol == .http3
  let uriSni := match uris with
    | [u] => u.hostWithoutPort
    | _ => ""
  let (requestSni, ambiguous) := m.requestHeaders.foldl (fun (sni, ambiguous) header =>
    let lowered := Text.asciiLower header
    if Text.hasPrefix lowered "host:" || (Text.hasPrefix lowered ":authority:" && authority) then
      let host := (Text.cutPrefix lowered "host:").getD lowered
      let host := (Text.cutPrefix host ":authority:").getD host
      (stripAsciiWhitespace host, ambiguous || sni != "")
    else (sni, ambiguous)) ("", false)
  if ambiguous then "" else if requestSni = "" then uriSni else requestSni

/-- The scheme of the first target; there always is one. -/
def firstScheme (uris : List ResolvedUri) : String := (uris.head?.map (·.scheme)).getD ""

/-- `needTransportSocket`. -/
def needTransportSocket (uris : List ResolvedUri) : Bool :=
  firstScheme uris == "https" || firstScheme uris == "tcps" || m.transportSocket.isSome

/-- `createTransportSocket`. -/
def createTransportSocket (uris : List ResolvedUri) : TransportSocket :=
  match m.transportSocket with
  | some socket => socket
  | none =>
    let sniHost := m.computeSniHost uris
    let context := if sniHost = "" then m.tlsContext else { m.tlsContext with sni := sniHost }
    let withAlpn (protocol : String) : TlsContext :=
      { context with alpnProtocols := context.alpnProtocols ++ [protocol] }
    if firstScheme uris = "tcps" then
      { name := "envoy.transport_sockets.tls", typedConfig := some (.tls context) }
    else if m.httpProtocol = .http2 then
      { name := "envoy.transport_sockets.tls", typedConfig := some (.tls (withAlpn "h2")) }
    else if m.httpProtocol = .http3 then
      { name := "envoy.transport_sockets.quic"
        typedConfig := some (.quic (some (withAlpn "h3")) []) }
    else
      { name := "envoy.transport_sockets.tls", typedConfig := some (.tls (withAlpn "http/1.1")) }

/-! ## Clusters -/

/-- `addUriToEndpoints`. -/
def addUriToEndpoints (u : ResolvedUri) : SocketAddress :=
  { address := u.address, portValue := UInt32.ofNat u.port }

/-- `createRequestSourceClusterForWorker`. -/
def createRequestSourceClusterForWorker (source : ResolvedUri) (worker : Nat) : Cluster where
  name := toString worker ++ ".requestsource"
  connectTimeout := m.timeout
  endpoints := [addUriToEndpoints source]
  httpProtocolOptions := some { explicitHttpConfig := .http2 none none }

/-- `createCircuitBreakers`: nothing is retried, and 0 pending requests are not supported. -/
def createCircuitBreakers : CircuitBreakers where
  maxRetries := 0
  maxConnections := m.connections
  maxPendingRequests := if m.maxPendingRequests = 0 then 1 else m.maxPendingRequests
  maxRequests := m.maxActiveRequests

/-- The HTTP configuration of a worker's cluster. -/
def httpConfig : HttpConfig :=
  match m.httpProtocol with
  | .http2 => .http2 (some m.maxConcurrentStreams) (some false)
  | .http3 => match m.http3ProtocolOptions with
    | some options => .http3 options
    | none => .http3Streams m.maxConcurrentStreams
  | .http11 => .http1

/-- `createNighthawkClusterForWorker`: raw connections have no HTTP options and no breakers. -/
def createNighthawkClusterForWorker (uris : List ResolvedUri) (worker : Nat) : Cluster :=
  let raw : Cluster :=
    { name := toString worker, connectTimeout := m.timeout
      endpoints := uris.map addUriToEndpoints }
  if m.tcp || m.udp then raw
  else
    { raw with
      httpProtocolOptions := some
        { maxRequestsPerConnection := some m.maxRequestsPerConnection
          explicitHttpConfig := m.httpConfig }
      circuitBreakers := some m.createCircuitBreakers }

/-- The clusters of one worker. A tunnel takes the traffic, and the targets keep their say in
the transport socket. -/
def workerClusters (targets : Targets) (worker : Nat) : List Cluster :=
  let cluster := m.createNighthawkClusterForWorker
    (if m.tunnelUri = "" then targets.uris else targets.encap.toList) worker
  { cluster with
      transportSocket :=
        if m.needTransportSocket targets.uris then some (m.createTransportSocket targets.uris)
        else none }
    :: (targets.requestSource.map fun source =>
      m.createRequestSourceClusterForWorker source worker).toList

/-- `createBootstrapConfiguration`. -/
def createBootstrapConfiguration (env : Outside) (dns : Dns) (numberOfWorkers : Nat) :
    Except String Bootstrap := do
  dns.resolver
  let targets ← m.extractAndResolveUrisFromOptions env dns
  if 0 < numberOfWorkers ∧ m.tunnelUri ≠ "" ∧ targets.encap.isNone then
    throw "No encapsulation URI for tunneling"
  return {
    clusters := (List.range numberOfWorkers).flatMap (m.workerClusters targets)
    statsSinks := m.statsSinks
    statsFlushInterval :=
      if 0 < m.statsFlushIntervalDuration.seconds ∨ 0 < m.statsFlushIntervalDuration.nanos then
        m.statsFlushIntervalDuration
      else durationOfSeconds m.statsFlushInterval
    upstreamBindConfig := m.upstreamBindConfig }

end OptionsImpl.Members

end Sortie.Engine
