import Sortie.Lib.Duration
import Sortie.Lib.Text

/-!
# The request a backend receives: `CommandLineOptions`

The message of engine/api/client/options.proto, and of the Envoy messages it holds
the parts that sortie or the engine reads. A field that may be absent is an
`Option`, a oneof is an inductive type. An enumeration of the wire format is open: a
number its schema does not name arrives as it is, and is `unrecognized` here. A
message that nothing looks into is kept by its bytes.
-/

namespace Sortie.Api

open Proto

/-- A message that nothing looks into, by its bytes. -/
abbrev Opaque := List UInt8

inductive ProtocolOptions where
  | http1 | http2 | http3
  | unrecognized (n : Int)
  deriving DecidableEq, Repr

inductive GrpcMode where
  | none | unary | bidiStream
  | unrecognized (n : Int)
  deriving DecidableEq, Repr

inductive SequencerIdleStrategy where
  | default | spin | poll | sleep | wait
  | unrecognized (n : Int)
  deriving DecidableEq, Repr

inductive AddressFamily where
  | auto | v4 | v6
  | unrecognized (n : Int)
  deriving DecidableEq, Repr

inductive Verbosity where
  | default | info | trace | debug | warn | error | critical
  | unrecognized (n : Int)
  deriving DecidableEq, Repr

inductive OutputFormat where
  | default | json | human | yaml | dotted | fortio | experimentalFortioPedantic | csv | prometheus
  | unrecognized (n : Int)
  deriving DecidableEq, Repr

inductive H1ConnectionReuseStrategy where
  | default | mru | lru
  | unrecognized (n : Int)
  deriving DecidableEq, Repr

/-- `oneof_duration_options`. -/
inductive DurationOptions where
  | duration (d : Duration)
  | noDuration (b : Bool)
  deriving DecidableEq, Repr

/-- `oneof_protocol`. -/
inductive ProtocolChoice where
  | h2 (b : Bool)
  | protocol (p : ProtocolOptions)
  deriving DecidableEq, Repr

/-- `MultiTarget.Endpoint`. -/
structure Endpoint where
  address : Option String := none
  port : Option UInt32 := none
  deriving DecidableEq, Repr

/-- `MultiTarget`. -/
structure MultiTarget where
  useHttps : Option Bool := none
  endpoints : List Endpoint := []
  path : Option String := none
  deriving DecidableEq, Repr

/-- `oneof_uri`. -/
inductive UriChoice where
  | uri (u : String)
  | multiTarget (m : MultiTarget)
  deriving DecidableEq, Repr

/-- `oneof_stats_flush_interval`. -/
inductive StatsFlushInterval where
  | seconds (n : UInt32)
  | duration (d : Duration)
  deriving DecidableEq, Repr

/-- `GrpcStreamOptions`. -/
structure GrpcStreamOptions where
  streams : Option UInt32 := none
  maxInflightPerStream : Option UInt32 := none
  drainDuration : Option Duration := none
  deriving DecidableEq, Repr

/-- `WebSocketOptions`. -/
structure WebSocketOptions where
  streams : Option UInt32 := none
  maxInflightPerStream : Option UInt32 := none
  drainDuration : Option Duration := none
  binary : Option Bool := none
  deriving DecidableEq, Repr

/-- `TcpOptions`. -/
structure TcpOptions where
  connections : Option UInt32 := none
  maxInflightPerConnection : Option UInt32 := none
  expectEcho : Option Bool := none
  drainDuration : Option Duration := none
  maxMessagesPerConnection : Option UInt32 := none
  deriving DecidableEq, Repr

/-- `UdpOptions`. -/
structure UdpOptions where
  maxInflight : Option UInt32 := none
  timeout : Option Duration := none
  deriving DecidableEq, Repr

/-- `envoy.config.core.v3.RequestMethod`. -/
inductive RequestMethod where
  | methodUnspecified | get | head | post | put | delete | connect | options | trace | patch
  | unrecognized (n : Int)
  deriving DecidableEq, Repr

/-- A request header. -/
structure HeaderValue where
  key : String
  value : String
  deriving DecidableEq, Repr

/-- `RequestOptions`. -/
structure RequestOptions where
  requestMethod : RequestMethod := .methodUnspecified
  requestHeaders : List HeaderValue := []
  requestBodySize : Option UInt32 := none
  jsonBody : String := ""
  requestBody : List UInt8 := []
  deriving DecidableEq, Repr

/-- `envoy.config.core.v3.DataSource`, by its specifier. -/
inductive DataSource where
  | filename (f : String)
  | inlineBytes (b : List UInt8)
  | inlineString (s : String)
  | environmentVariable (v : String)
  /-- a message without a specifier -/
  | unset
  deriving DecidableEq, Repr

/-- `TlsCertificate`. -/
structure TlsCertificate where
  certificateChain : Option DataSource := none
  privateKey : Option DataSource := none
  /-- everything else in it -/
  rest : Opaque := []
  deriving DecidableEq, Repr

/-- `UpstreamTlsContext`; an absent common context is an empty one. -/
structure TlsContext where
  trustedCa : Option DataSource := none
  tlsCertificates : List TlsCertificate := []
  alpnProtocols : List String := []
  sni : String := ""
  /-- everything else in it -/
  rest : Opaque := []
  deriving DecidableEq, Repr

/--
The packed configuration of a transport socket, by the message it holds. `other` is
every message nothing here looks into, and one whose bytes do not decode as the type
its URL names.
-/
inductive SocketConfig where
  /-- `UpstreamTlsContext` -/
  | tls (context : TlsContext)
  /-- `QuicUpstreamTransport`, with everything else in it -/
  | quic (context : Option TlsContext) (rest : Opaque)
  | other (typeUrl : String) (bytes : Opaque)
  deriving DecidableEq, Repr

/-- `envoy.config.core.v3.TransportSocket`. -/
structure TransportSocket where
  name : String := ""
  typedConfig : Option SocketConfig := none
  deriving DecidableEq, Repr

/-- `TunnelOptions`. -/
structure TunnelOptions where
  tunnelUri : String := ""
  tunnelProtocol : Option ProtocolOptions := none
  tunnelTlsContext : Option TlsContext := none
  deriving DecidableEq, Repr

/-- `envoy.config.core.v3.SocketAddress`. -/
structure SocketAddress where
  address : String
  portValue : UInt32 := 0
  namedPort : String := ""
  deriving DecidableEq, Repr

/-- `envoy.config.metrics.v3.StatsdSink`; `metricPrefix` is its field `prefix`. -/
structure StatsdSink where
  tcpClusterName : String := ""
  address : Option SocketAddress := none
  metricPrefix : String := ""
  scaleHistogramUnitsToMilliseconds : Bool := false
  deriving DecidableEq, Repr

/--
A packed configuration (`google.protobuf.Any`), by the message it holds. `other` is
every message nothing here looks into, and one whose bytes do not decode as the
type its URL names. A `DogStatsdSink` is kept without its `max_bytes_per_datagram`.
-/
inductive TypedConfig where
  | statsd (sink : StatsdSink)
  | dogStatsd (address : Option SocketAddress) (metricPrefix : String)
  | envoyStatsSinkAdapter (name : String) (config : Option TypedConfig)
  | linearRampingRateLimiter (rampTime : Option Duration)
  | other (typeUrl : String) (bytes : List UInt8)
  deriving Repr

/-- The name of the packed message, the last segment of its type URL. -/
def TypedConfig.typeName : TypedConfig → String
  | .statsd _ => "envoy.config.metrics.v3.StatsdSink"
  | .dogStatsd .. => "envoy.config.metrics.v3.DogStatsdSink"
  | .envoyStatsSinkAdapter .. => "nighthawk.EnvoyStatsSinkAdapterConfig"
  | .linearRampingRateLimiter _ => "nighthawk.rate_limiter.LinearRampingRateLimiterConfig"
  | .other typeUrl _ => match Text.cutLast typeUrl '/' with
    | some (_, name) => name
    | none => typeUrl

/-- `envoy.config.metrics.v3.StatsSink`. -/
structure StatsSink where
  name : String := ""
  typedConfig : Option TypedConfig := none
  deriving Repr

/-- `envoy.config.core.v3.TypedExtensionConfig`. -/
structure TypedExtensionConfig where
  name : String := ""
  typedConfig : Option TypedConfig := none
  deriving Repr

/-- `oneof_request_options`. -/
inductive RequestChoice where
  | requestOptions (o : RequestOptions)
  | requestSource (uri : String)
  | requestSourcePluginConfig (config : TypedExtensionConfig)
  deriving Repr

/-- `google.protobuf.Timestamp`: a moment, counted from the epoch. -/
structure Timestamp where
  seconds : Int
  nanos : Int
  deriving DecidableEq, Repr

/-- `nighthawk.client.CommandLineOptions`. -/
structure CommandLineOptions where
  requestsPerSecond : Option UInt32 := none
  connections : Option UInt32 := none
  durationOptions : Option DurationOptions := none
  timeout : Option Duration := none
  protocol : Option ProtocolChoice := none
  grpcMode : Option GrpcMode := none
  grpcStream : Option GrpcStreamOptions := none
  websocket : Option WebSocketOptions := none
  tcp : Option TcpOptions := none
  udp : Option UdpOptions := none
  concurrency : Option String := none
  requestOptions : Option RequestChoice := none
  tlsContext : Option TlsContext := none
  maxPendingRequests : Option UInt32 := none
  sequencerIdleStrategy : Option SequencerIdleStrategy := none
  uri : Option UriChoice := none
  failurePredicates : List (String × UInt64) := []
  noDefaultFailurePredicates : Option Bool := none
  openLoop : Option Bool := none
  maxConcurrentStreams : Option UInt32 := none
  statsSinks : List StatsSink := []
  statsFlushInterval : Option StatsFlushInterval := none
  executionId : Option String := none
  rateLimiterPluginConfig : Option TypedExtensionConfig := none
  scheduledStart : Option Timestamp := none
  http3ProtocolOptions : Option Opaque := none
  verbosity : Option Verbosity := none
  outputFormat : Option OutputFormat := none
  prefetchConnections : Option Bool := none
  burstSize : Option UInt32 := none
  addressFamily : Option AddressFamily := none
  tunnelOptions : Option TunnelOptions := none
  upstreamBindConfig : Option Opaque := none
  transportSocket : Option TransportSocket := none
  maxActiveRequests : Option UInt32 := none
  maxRequestsPerConnection : Option UInt32 := none
  trace : Option String := none
  experimentalH1ConnectionReuseStrategy : Option H1ConnectionReuseStrategy := none
  terminationPredicates : List (String × UInt64) := []
  jitterUniform : Option Duration := none
  nighthawkService : Option String := none
  experimentalH2UseMultipleConnections : Option Bool := none
  labels : List String := []
  simpleWarmup : Option Bool := none
  latencyResponseHeaderName : Option String := none
  userDefinedPluginConfigs : List TypedExtensionConfig := []
  deriving Repr

end Sortie.Api
