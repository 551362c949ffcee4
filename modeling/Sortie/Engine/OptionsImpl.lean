import Sortie.Engine.Uri
import Sortie.Lib.Checks

/-!
# The options of an execution

The constructor of `OptionsImpl` that takes the message
(engine/source/client/options_impl.cc): every member with its default, the order in
which the message is read, the checks of `validate`, and the message the members are
written back to, which `validate` looks at last.

It can end in three ways that are not an `OptionsImpl`. A `MalformedArgvException`
is what its caller in the service catches. Another exception is not caught. And
`tunnel_tls_context_` is an optional that nothing fills before it is written through.
-/

namespace Sortie.Engine

open Proto Api Checks

/-- How the constructor ends when it makes no `OptionsImpl`. -/
inductive BuildError where
  /-- a `MalformedArgvException` -/
  | malformed (text : String)
  /-- an exception of another type -/
  | threw (text : String)
  /-- an optional without a value is dereferenced, which is undefined -/
  | emptyOptional
  deriving DecidableEq, Repr

/-- What `MessageUtil::validate` throws: a `ProtoValidationException`, or something else. -/
inductive ValidationError where
  | proto (text : String)
  | other (text : String)
  deriving DecidableEq, Repr

/-- What the constructor asks of the system and of Envoy. -/
structure Outside where
  /-- `Utility::GetAvailablePort`, or the text of its `NighthawkException` -/
  availablePort : Bool → AddressFamily → Except String UInt32
  /-- `extractHostPathFromUri` -/
  hostPath : String → String × String
  /-- `MessageUtil::validate`, with the strict visitor -/
  validate : CommandLineOptions → Except ValidationError Unit

/-- A `std::map` of predicates, in the order of its keys. -/
abbrev PredicateMap := List (String × UInt64)

/-- Assignment to a key. -/
def PredicateMap.assign (key : String) (value : UInt64) : PredicateMap → PredicateMap
  | [] => [(key, value)]
  | (k, v) :: rest =>
    if key = k then (key, value) :: rest
    else if key < k then (key, value) :: (k, v) :: rest
    else (k, v) :: PredicateMap.assign key value rest

def PredicateMap.assignAll (m : PredicateMap) (entries : List (String × UInt64)) : PredicateMap :=
  entries.foldl (fun m e => PredicateMap.assign e.1 e.2 m) m

/-- `DurationToNanoseconds`. -/
def durationToNanoseconds (d : Duration) : Span := Span.wrap (d.seconds * 1000000000 + d.nanos)

/-- A whole number of seconds as a message. -/
def durationOfSeconds (n : UInt32) : Duration where
  seconds := n.toNat
  nanos := 0
  secondsInt64 := by have := n.toNat_lt; omega
  nanosInt32 := by decide

/-- `NanosecondsToTimestamp`; the nanoseconds of a timestamp are never negative. -/
def nanosecondsToTimestamp (n : Int) : Timestamp where
  seconds := n / 1000000000
  nanos := n % 1000000000

/-- `absl::StripAsciiWhitespace`. -/
def stripAsciiWhitespace (s : String) : String :=
  String.ofList ((s.toList.dropWhile isAsciiSpace).reverse.dropWhile isAsciiSpace).reverse

/-- `isTcpUri`. -/
def isTcpUri (uri : String) : Bool :=
  Text.hasPrefix (Text.asciiLower uri) "tcp://" || Text.hasPrefix (Text.asciiLower uri) "tcps://"

/-- `isUdpUri`. -/
def isUdpUri (uri : String) : Bool := Text.hasPrefix (Text.asciiLower uri) "udp://"

/-- `Envoy::Http::Protocol`, as far as the options can name it. -/
inductive HttpProtocol where
  | http11 | http2 | http3
  deriving DecidableEq, Repr

/-- The members of `OptionsImpl`, with what `setNonTrivialDefaults` and the declarations give them.
-/
structure OptionsImpl.Members where
  requestsPerSecond : UInt32 := 5
  connections : UInt32 := 100
  duration : UInt32 := 5
  timeout : UInt32 := 30
  uri : Option String := none
  h2 : Bool := false
  protocol : ProtocolOptions := .http1
  http3ProtocolOptions : Option Opaque := none
  concurrency : String := "1"
  tunnelProtocol : ProtocolOptions := .http1
  tunnelUri : String := ""
  encapPort : UInt32 := 0
  tunnelTlsContext : Option TlsContext := none
  verbosity : Verbosity := .warn
  outputFormat : OutputFormat := .json
  prefetchConnections : Bool := false
  burstSize : UInt32 := 0
  addressFamily : AddressFamily := .auto
  requestMethod : RequestMethod := .get
  requestHeaders : List String := []
  requestBodySize : UInt32 := 0
  requestBody : List UInt8 := []
  grpcMode : GrpcMode := .none
  websocket : Bool := false
  websocketBinary : Bool := false
  tcp : Bool := false
  tcpConnections : UInt32 := 1
  tcpMaxInflight : UInt32 := 256
  tcpExpectEcho : Bool := true
  tcpMaxMessages : UInt32 := 0
  udp : Bool := false
  udpMaxInflight : UInt32 := 256
  udpTimeout : Span := .ofSeconds 1
  streams : UInt32 := 20
  maxInflightPerStream : UInt32 := 256
  streamDrainDuration : Span := .clamp 500000000
  tlsContext : TlsContext := {}
  upstreamBindConfig : Option Opaque := none
  transportSocket : Option TransportSocket := none
  requestSourcePluginConfig : Option TypedExtensionConfig := none
  rateLimiterPluginConfig : Option TypedExtensionConfig := none
  maxPendingRequests : UInt32 := 0
  maxActiveRequests : UInt32 := 100
  /-- `largest_acceptable_uint32_option_value` -/
  maxRequestsPerConnection : UInt32 := 4294937295
  /-- `largest_acceptable_concurrent_streams_value` -/
  maxConcurrentStreams : UInt32 := 2147483647
  sequencerIdleStrategy : SequencerIdleStrategy := .spin
  requestSource : String := ""
  trace : String := ""
  h1ConnectionReuseStrategy : H1ConnectionReuseStrategy := .mru
  terminationPredicates : PredicateMap := []
  failurePredicates : PredicateMap := [("benchmark.http_4xx", 0), ("benchmark.http_5xx", 0),
    ("benchmark.pool_connection_failure", 0), ("benchmark.stream_resets", 0),
    ("requestsource.upstream_rq_5xx", 0)]
  noDefaultFailurePredicates : Bool := false
  openLoop : Bool := false
  jitterUniform : Span := 0
  nighthawkService : String := ""
  h2UseMultipleConnections : Bool := false
  multiTargetEndpoints : List Endpoint := []
  multiTargetPath : String := ""
  multiTargetUseHttps : Bool := false
  labels : List String := []
  simpleWarmup : Bool := false
  noDuration : Bool := false
  statsSinks : List StatsSink := []
  statsFlushInterval : UInt32 := 5
  statsFlushIntervalDuration : Duration := durationOfSeconds 0
  latencyResponseHeaderName : String := ""
  /-- in nanoseconds since the epoch: the unit of `system_clock::duration` with libstdc++ -/
  scheduledStart : Option Span := none
  executionId : Option String := none
  userDefinedOutputPluginConfigs : List TypedExtensionConfig := []

namespace OptionsImpl.Members

variable (m : Members)

/-- `grpcEnabled`. -/
def grpcEnabled : Bool := m.grpcMode != .none

/-- `grpcStreamEnabled`. -/
def grpcStreamEnabled : Bool := m.grpcMode == .bidiStream

/-- `streamModeEnabled`. -/
def streamModeEnabled : Bool := m.grpcStreamEnabled || m.websocket

/-- `protocol()`. -/
def httpProtocol : HttpProtocol :=
  if m.h2 || m.protocol == .http2 then .http2
  else if m.protocol == .http3 then .http3
  else .http11

/-- The members that shape the load, as they are modelled on their own. -/
def shape : OptionsImpl where
  requestsPerSecond := m.requestsPerSecond
  durationSeconds := m.duration
  timeoutSeconds := m.timeout
  noDuration := m.noDuration
  grpcMode := m.grpcMode
  websocket := m.websocket
  concurrency := m.concurrency
  rateLimiterPluginConfig := m.rateLimiterPluginConfig

/-! ## Reading the message -/

/-- The rate, the duration and the timeout; the last two keep their seconds alone. -/
def readLoad (o : CommandLineOptions) : Members :=
  { m with
    requestsPerSecond := o.requestsPerSecond.getD m.requestsPerSecond
    duration := match o.durationOptions with
      | some (.duration d) => toUInt32 d.seconds
      | _ => m.duration
    timeout := match o.timeout with
      | some d => toUInt32 d.seconds
      | none => m.timeout }

/-- The target. -/
def readTarget (o : CommandLineOptions) : Members :=
  match o.uri with
  | some (.uri u) => { m with uri := some u, tcp := isTcpUri u, udp := isUdpUri u }
  | choice =>
    let target := match choice with
      | some (.multiTarget t) => t
      | _ => {}
    { m with
      multiTargetPath := target.path.getD m.multiTargetPath
      multiTargetUseHttps := target.useHttps.getD m.multiTargetUseHttps
      multiTargetEndpoints := m.multiTargetEndpoints ++ target.endpoints }

/-- `h2`, `protocol` and `grpc_mode`. -/
def readProtocol (o : CommandLineOptions) : Members :=
  { m with
    h2 := match o.protocol with
      | some (.h2 b) => b
      | _ => m.h2
    protocol := match o.protocol with
      | some (.protocol p) => p
      | _ => m.protocol
    grpcMode := o.grpcMode.getD m.grpcMode }

/-- `grpc_stream`. -/
def readGrpcStream (o : CommandLineOptions) : Members :=
  match o.grpcStream with
  | none => m
  | some g =>
    { m with
      streams := g.streams.getD m.streams
      maxInflightPerStream := g.maxInflightPerStream.getD m.maxInflightPerStream
      streamDrainDuration :=
        (g.drainDuration.map durationToNanoseconds).getD m.streamDrainDuration }

/-- `tcp`. -/
def readTcp (o : CommandLineOptions) : Members :=
  match o.tcp with
  | none => m
  | some t =>
    { m with
      tcpConnections := t.connections.getD m.tcpConnections
      tcpMaxInflight := t.maxInflightPerConnection.getD m.tcpMaxInflight
      tcpExpectEcho := t.expectEcho.getD m.tcpExpectEcho
      tcpMaxMessages := t.maxMessagesPerConnection.getD m.tcpMaxMessages
      streamDrainDuration :=
        (t.drainDuration.map durationToNanoseconds).getD m.streamDrainDuration }

/-- `udp`. -/
def readUdp (o : CommandLineOptions) : Members :=
  match o.udp with
  | none => m
  | some u =>
    { m with
      udpMaxInflight := u.maxInflight.getD m.udpMaxInflight
      udpTimeout := (u.timeout.map durationToNanoseconds).getD m.udpTimeout }

/-- `websocket`. -/
def readWebsocket (o : CommandLineOptions) : Members :=
  match o.websocket with
  | none => m
  | some s =>
    { m with
      websocket := true
      websocketBinary := s.binary.getD false
      streams := s.streams.getD m.streams
      maxInflightPerStream := s.maxInflightPerStream.getD m.maxInflightPerStream
      streamDrainDuration :=
        (s.drainDuration.map durationToNanoseconds).getD m.streamDrainDuration }

/-- A gRPC call that names no protocol uses HTTP/2. -/
def defaultProtocol (o : CommandLineOptions) : Members :=
  if m.grpcEnabled && o.protocol.isNone then { m with protocol := .http2 } else m

/-- From `http3_protocol_options` to `address_family`. -/
def readProcess (o : CommandLineOptions) : Members :=
  { m with
    http3ProtocolOptions := o.http3ProtocolOptions
    concurrency := o.concurrency.getD m.concurrency
    verbosity := o.verbosity.getD m.verbosity
    outputFormat := o.outputFormat.getD m.outputFormat
    prefetchConnections := o.prefetchConnections.getD m.prefetchConnections
    burstSize := o.burstSize.getD m.burstSize
    addressFamily := o.addressFamily.getD m.addressFamily }

/-- Writing through `tunnel_tls_context_`. -/
def mergeTunnelTls (context : Option TlsContext) : Except BuildError Members :=
  match m.tunnelTlsContext with
  | none => .error .emptyOptional
  | some own => .ok { m with tunnelTlsContext := some (context.getD own) }

/-- `tunnel_options`. -/
def readTunnel (env : Outside) (o : CommandLineOptions) : Except BuildError Members :=
  match o.tunnelOptions with
  | none => .ok m
  | some t => do
    let m := { m with
      tunnelProtocol := t.tunnelProtocol.getD m.tunnelProtocol
      tunnelUri := t.tunnelUri }
    let port ← (env.availablePort (m.protocol == .http3) m.addressFamily).mapError .threw
    mergeTunnelTls { m with encapPort := port } t.tunnelTlsContext

/-- The request, or where requests come from. -/
def readRequest (o : CommandLineOptions) : Members :=
  let m := match o.requestOptions with
    | some (.requestOptions r) =>
      { m with
        requestHeaders := m.requestHeaders ++ r.requestHeaders.map fun h => h.key ++ ":" ++ h.value
        requestMethod :=
          if r.requestMethod ≠ .methodUnspecified then r.requestMethod
          else if m.grpcEnabled then .post
          else m.requestMethod
        requestBodySize := r.requestBodySize.getD m.requestBodySize
        requestBody := r.requestBody }
    | some (.requestSource uri) => { m with requestSource := uri }
    | some (.requestSourcePluginConfig config) =>
      { m with requestSourcePluginConfig := some config }
    | none => m
  match o.requestOptions with
  | some (.requestOptions _) => m
  | _ => if m.grpcEnabled then { m with requestMethod := .post } else m

/-- `streams_per_worker` of `raisePendingRequestsForStreams`. -/
def streamsPerWorker : UInt32 :=
  let concurrency : Int :=
    if m.concurrency = "auto" then 1
    else match stoi m.concurrency with
      | .ok n => max 1 n
      | .error _ => 1
  max 1 (m.streams / toUInt32 concurrency)

/-- `raisePendingRequestsForStreams`. -/
def raisePendingRequestsForStreams : Members :=
  if m.streamModeEnabled && decide (m.maxPendingRequests < m.streamsPerWorker) then
    { m with maxPendingRequests := m.streamsPerWorker }
  else m

/-- `rate_limiter_plugin_config`, which replaces bursts and jitter. -/
def readLimiter (o : CommandLineOptions) : Except BuildError Members :=
  match o.rateLimiterPluginConfig with
  | none => .ok m
  | some config => do
    require (o.burstSize.getD 0 == 0)
      (.malformed "burst_size and rate_limiter_plugin_config are mutually exclusive")
    require (o.jitterUniform.all fun d => d.seconds == 0 && d.nanos == 0)
      (.malformed "jitter_uniform and rate_limiter_plugin_config are mutually exclusive")
    return { m with rateLimiterPluginConfig := some config }

/-- From `max_pending_requests` to `transport_socket`. -/
def readLimits (o : CommandLineOptions) : Members :=
  { m with
    maxPendingRequests := o.maxPendingRequests.getD m.maxPendingRequests
    maxActiveRequests := o.maxActiveRequests.getD m.maxActiveRequests
    maxRequestsPerConnection := o.maxRequestsPerConnection.getD m.maxRequestsPerConnection
    maxConcurrentStreams := o.maxConcurrentStreams.getD m.maxConcurrentStreams
    connections := o.connections.getD m.connections
    sequencerIdleStrategy := o.sequencerIdleStrategy.getD m.sequencerIdleStrategy
    trace := o.trace.getD m.trace
    h1ConnectionReuseStrategy :=
      o.experimentalH1ConnectionReuseStrategy.getD m.h1ConnectionReuseStrategy
    openLoop := o.openLoop.getD m.openLoop
    tlsContext := o.tlsContext.getD m.tlsContext
    upstreamBindConfig := o.upstreamBindConfig
    transportSocket := o.transportSocket }

/-- The predicates; any that are given replace the default ones. -/
def readPredicates (o : CommandLineOptions) : Members :=
  let noDefaults := o.noDefaultFailurePredicates.getD m.noDefaultFailurePredicates
  let kept := if noDefaults || !o.failurePredicates.isEmpty then [] else m.failurePredicates
  { m with
    noDefaultFailurePredicates := noDefaults
    failurePredicates := PredicateMap.assignAll kept o.failurePredicates
    terminationPredicates := m.terminationPredicates.assignAll o.terminationPredicates }

/-- The start asked for, at the resolution of microseconds. -/
def startTime (t : Timestamp) : Span :=
  Span.wrap ((Span.wrap (t.nanos + t.seconds * 1000000000)).ns.tdiv 1000 * 1000)

/-- From `jitter_uniform` to the end. -/
def readRest (o : CommandLineOptions) : Members :=
  { m with
    jitterUniform := (o.jitterUniform.map durationToNanoseconds).getD m.jitterUniform
    statsSinks := m.statsSinks ++ o.statsSinks
    statsFlushInterval := match o.statsFlushInterval with
      | some (.seconds n) => n
      | _ => m.statsFlushInterval
    statsFlushIntervalDuration := match o.statsFlushInterval with
      | some (.duration d) => d
      | _ => m.statsFlushIntervalDuration
    nighthawkService := o.nighthawkService.getD m.nighthawkService
    h2UseMultipleConnections :=
      o.experimentalH2UseMultipleConnections.getD m.h2UseMultipleConnections
    simpleWarmup := o.simpleWarmup.getD m.simpleWarmup
    noDuration := match o.durationOptions with
      | some (.noDuration b) => b
      | _ => m.noDuration
    labels := m.labels ++ o.labels
    latencyResponseHeaderName := o.latencyResponseHeaderName.getD m.latencyResponseHeaderName
    scheduledStart := (o.scheduledStart.map startTime).or m.scheduledStart
    executionId := o.executionId.or m.executionId
    userDefinedOutputPluginConfigs :=
      m.userDefinedOutputPluginConfigs ++ o.userDefinedPluginConfigs }

/-! ## Writing the message -/

/-- A header line as key and value; the first character may be a colon of the key. -/
def splitHeader (header : String) : Except BuildError HeaderValue :=
  match header.toList with
  | [] => .error (.malformed "A ':' is required in a header.")
  | c :: cs =>
    match Text.cutList [':'] cs with
    | none => .error (.malformed "A ':' is required in a header.")
    | some (before, after) => .ok
      { key := stripAsciiWhitespace (String.ofList (c :: before))
        value := stripAsciiWhitespace (String.ofList after) }

/-- The request, as it is written back. -/
def requestChoice : Except BuildError RequestChoice :=
  if m.requestSource ≠ "" then .ok (.requestSource m.requestSource)
  else match m.requestSourcePluginConfig with
    | some config => .ok (.requestSourcePluginConfig config)
    | none => do
      return .requestOptions
        { requestMethod := m.requestMethod
          requestHeaders := ← m.requestHeaders.mapM splitHeader
          requestBodySize := some m.requestBodySize
          requestBody := m.requestBody }

/-- The target, as it is written back. -/
def uriChoice : UriChoice :=
  match m.uri with
  | some u => .uri u
  | none => .multiTarget
    { path := some m.multiTargetPath
      useHttps := some m.multiTargetUseHttps
      endpoints := m.multiTargetEndpoints.map fun e =>
        { address := some (e.address.getD ""), port := some (e.port.getD 0) } }

/-- `toCommandLineOptionsInternal`. -/
def toCommandLineOptions : Except BuildError CommandLineOptions := do
  let request ← m.requestChoice
  let drain := Duration.new m.streamDrainDuration
  return {
    connections := some m.connections
    durationOptions := some
      (if m.noDuration then .noDuration true else .duration (durationOfSeconds m.duration))
    requestsPerSecond := some m.requestsPerSecond
    timeout := some (durationOfSeconds m.timeout)
    protocol := some (if m.h2 then .h2 true else .protocol m.protocol)
    http3ProtocolOptions := m.http3ProtocolOptions
    uri := some m.uriChoice
    concurrency := some m.concurrency
    verbosity := some m.verbosity
    outputFormat := some m.outputFormat
    prefetchConnections := some m.prefetchConnections
    burstSize := some m.burstSize
    addressFamily := some m.addressFamily
    requestOptions := some request
    grpcMode := if m.grpcEnabled then some m.grpcMode else none
    grpcStream := if m.grpcStreamEnabled then some
      { streams := some m.streams
        maxInflightPerStream := some m.maxInflightPerStream
        drainDuration := some drain } else none
    udp := if m.udp then some
      { maxInflight := some m.udpMaxInflight
        timeout := some (Duration.new m.udpTimeout) } else none
    tcp := if m.tcp then some
      { connections := some m.tcpConnections
        maxInflightPerConnection := some m.tcpMaxInflight
        expectEcho := some m.tcpExpectEcho
        maxMessagesPerConnection := some m.tcpMaxMessages
        drainDuration := some drain } else none
    websocket := if m.websocket then some
      { streams := some m.streams
        maxInflightPerStream := some m.maxInflightPerStream
        drainDuration := some drain
        binary := some m.websocketBinary } else none
    rateLimiterPluginConfig := m.rateLimiterPluginConfig
    tlsContext := if m.tlsContext = {} then none else some m.tlsContext
    upstreamBindConfig := m.upstreamBindConfig
    transportSocket := m.transportSocket
    maxPendingRequests := some m.maxPendingRequests
    maxActiveRequests := some m.maxActiveRequests
    maxRequestsPerConnection := some m.maxRequestsPerConnection
    maxConcurrentStreams := some m.maxConcurrentStreams
    sequencerIdleStrategy := some m.sequencerIdleStrategy
    trace := some m.trace
    experimentalH1ConnectionReuseStrategy := some m.h1ConnectionReuseStrategy
    terminationPredicates := m.terminationPredicates
    failurePredicates := m.failurePredicates
    noDefaultFailurePredicates := some m.noDefaultFailurePredicates
    openLoop := some m.openLoop
    jitterUniform := if 0 < m.jitterUniform then some (Duration.new m.jitterUniform) else none
    nighthawkService := some m.nighthawkService
    labels := m.labels
    simpleWarmup := some m.simpleWarmup
    statsSinks := m.statsSinks
    statsFlushInterval := some
      (if 0 < m.statsFlushIntervalDuration.seconds ∨ 0 < m.statsFlushIntervalDuration.nanos then
        .duration m.statsFlushIntervalDuration
      else .seconds m.statsFlushInterval)
    latencyResponseHeaderName := some m.latencyResponseHeaderName
    scheduledStart := m.scheduledStart.map fun t => nanosecondsToTimestamp t.ns
    executionId := m.executionId
    userDefinedPluginConfigs := m.userDefinedOutputPluginConfigs }

/-! ## `validate` -/

/-- A check: the text is that of the `MalformedArgvException` when it does not hold. -/
def check (ok : Bool) (text : String) : Except BuildError Unit := require ok (.malformed text)

/-- The checks on a gRPC execution. -/
def validateGrpc : Except BuildError Unit := do
  check (m.h2 || m.protocol == .http2) "--grpc-mode requires --protocol http2"
  check (m.requestMethod == .post) "--grpc-mode requires --request-method POST"
  check (m.requestSource == "") "--grpc-mode is not supported together with --request-source"

/-- The checks on a WebSocket execution. -/
def validateWebsocket : Except BuildError Unit := do
  check (!m.grpcEnabled) "--websocket and --grpc-mode are mutually exclusive"
  check (m.protocol == .http1) ("--websocket requires HTTP/1.1 (the upgrade is an HTTP/1.1 "
    ++ "request); leave --protocol unset")
  check (m.requestMethod == .get) ("--websocket requires --request-method GET (the upgrade "
    ++ "request); leave it unset")

/-- The checks on either kind of long-lived stream. -/
def validateStreams : Except BuildError Unit := do
  let mode := if m.websocket then "--websocket" else "--grpc-mode bidi-stream"
  let concurrency : Int :=
    if m.concurrency = "auto" then 0 else (stoi m.concurrency).toOption.getD 0
  check (0 < concurrency) (mode
    ++ " requires a numeric --concurrency (streams and rps are divided over the workers)")
  let workers := toUInt32 concurrency
  let perWorker := m.streams / workers
  check (!m.websocket || decide (perWorker ≤ m.connections))
    ("--websocket: every stream is a connection, so --connections (" ++ toString m.connections.toNat
      ++ ") must be at least the streams per worker (" ++ toString perWorker.toNat ++ ")")
  check (m.streams != 0 && m.streams % workers == 0)
    "--streams must be a positive multiple of --concurrency"
  check (m.requestsPerSecond % workers == 0)
    ("--rps (aggregate message rate in " ++ mode ++ ") must be a multiple of --concurrency")
  check (m.maxInflightPerStream != 0) "--max-inflight-per-stream must be greater than 0"
  check (perWorker ≤ m.maxActiveRequests)
    ("--max-active-requests (" ++ toString m.maxActiveRequests.toNat
      ++ ") must be at least the number of streams per worker (" ++ toString perWorker.toNat ++ ")")
  check m.requestSourcePluginConfig.isNone
    (mode ++ " is not supported together with --request-source-plugin-config")
  check m.userDefinedOutputPluginConfigs.isEmpty
    (mode ++ " is not supported together with --user-defined-plugin-config")
  check (!m.simpleWarmup) (mode ++ " is not supported together with --simple-warmup")

/-- `UriImpl`, as `validate` uses it; the exception it throws is caught. -/
def parseUri (env : Outside) (uri defaultScheme : String) : Option UriImpl :=
  let (host, path) := env.hostPath uri
  (UriImpl.parse host path uri defaultScheme).toOption

/-- The replay source has to be a URI of a gRPC service. -/
def validateRequestSource (env : Outside) : Except BuildError Unit :=
  onlyIf (m.requestSource != "") <|
    check ((parseUri env m.requestSource "grpc").any (·.scheme == "grpc"))
      "Invalid replay source URI"

/-- What raw load, over TCP or UDP, cannot be combined with. -/
def plainSource : Bool :=
  m.requestSource == "" && m.requestSourcePluginConfig.isNone
    && m.userDefinedOutputPluginConfigs.isEmpty && !m.simpleWarmup

/-- The checks on UDP load. -/
def validateUdp : Except BuildError Unit := do
  check (!m.grpcEnabled && !m.websocket)
    "a udp:// URI (UDP load) cannot be combined with --grpc-mode or --websocket"
  check (m.requestHeaders.isEmpty && m.requestMethod == .get)
    ("a udp:// URI (UDP load) takes no --request-header or "
      ++ "--request-method: the request body is the datagram")
  check (!m.requestBody.isEmpty || m.requestBodySize != 0)
    ("a udp:// URI needs a --request-body-file or "
      ++ "--request-body-size: the datagram is what gets echoed")
  check (m.transportSocket.isNone && decide (m.tlsContext = {}))
    ("a udp:// URI (UDP load) takes no --transport-socket or "
      ++ "--tls-context: datagrams go unencrypted")
  check (m.udpMaxInflight != 0 && decide (0 < m.udpTimeout))
    "--udp-max-inflight and --udp-timeout must be positive"
  check m.plainSource
    ("a udp:// URI (UDP load) is not supported together with "
      ++ "--request-source, --request-source-plugin-config, "
      ++ "--user-defined-plugin-config or --simple-warmup")

/-- The checks on raw TCP load. -/
def validateTcp : Except BuildError Unit := do
  check (!m.grpcEnabled && !m.websocket)
    "a tcp:// URI (raw TCP load) cannot be combined with --grpc-mode or --websocket"
  check (m.requestHeaders.isEmpty && m.requestMethod == .get)
    ("a tcp:// URI (raw TCP load) takes no --request-header or --request-method: the "
      ++ "request body is the message, there is no HTTP")
  check (!m.tcpExpectEcho || !m.requestBody.isEmpty || m.requestBodySize != 0)
    ("a tcp:// URI needs a --request-body-file or --request-body-size: the message is "
      ++ "what gets echoed and matched (or --tcp-no-echo, to only count writes)")
  check (m.tcpConnections != 0 && m.tcpMaxInflight != 0)
    "--tcp-connections and --tcp-max-inflight-per-connection must be greater than 0"
  check m.plainSource
    ("a tcp:// URI (raw TCP load) is not supported together "
      ++ "with --request-source, --request-source-plugin-config, "
      ++ "--user-defined-plugin-config or --simple-warmup")

/-- The checks on the target. -/
def validateTarget (env : Outside) : Except BuildError Unit :=
  match m.uri with
  | some uri => do
    -- the format string has no place for the URI
    check (parseUri env uri "http").isSome "Invalid target URI: ''"
    onlyIf m.udp m.validateUdp
    onlyIf m.tcp m.validateTcp
    check (m.multiTargetEndpoints.isEmpty && m.multiTargetPath == "" && !m.multiTargetUseHttps)
      "URI and --multi-target-* options cannot both be specified."
  | none => do
    check (!m.multiTargetEndpoints.isEmpty) "A URI or --multi-target-* options must be specified."
    check (m.multiTargetPath != "") "--multi-target-path must be specified."

/-- The last check: the message the members make, by its own rules. -/
def validateMessage (env : Outside) : Except BuildError Unit := do
  let message ← m.toCommandLineOptions
  (env.validate message).mapError fun
    | .proto text => .malformed text
    | .other text => .threw text

/-- `validate`. -/
def validate (env : Outside) : Except BuildError Unit := do
  check (m.requestBody.isEmpty || m.requestBodySize == 0)
    "--request-body-file and --request-body-size are mutually exclusive"
  onlyIf m.grpcEnabled m.validateGrpc
  onlyIf m.websocket m.validateWebsocket
  onlyIf m.streamModeEnabled m.validateStreams
  check (!m.h2UseMultipleConnections)
    ("The experimental_h2_use_multiple_connections option is deprecated, set "
      ++ "max_concurrent_streams to one instead.")
  (checkConcurrency m.shape).mapError .malformed
  m.validateRequestSource env
  m.validateTarget env
  m.validateMessage env

/-- The members as far as `address_family`. -/
def beforeTunnel (o : CommandLineOptions) : Members :=
  let m : Members := {}
  let m := ((m.readLoad o).readTarget o).readProtocol o
  let m := (((m.readGrpcStream o).readTcp o).readUdp o).readWebsocket o
  (m.defaultProtocol o).readProcess o

end OptionsImpl.Members

/-- The constructor of `OptionsImpl` that takes the message. -/
def OptionsImpl.construct (env : Outside) (o : CommandLineOptions) :
    Except BuildError OptionsImpl.Members := do
  let m ← (Members.beforeTunnel o).readTunnel env o
  let m ← (m.readRequest o).raisePendingRequestsForStreams.readLimiter o
  let m := ((m.readLimits o).readPredicates o).readRest o
  m.validate env
  return m

end Sortie.Engine
