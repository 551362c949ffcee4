import Sortie.Compile.Stats

/-!
# Compiling a scenario into options

`options` of internal/compile/compile.go. It starts from the scenario's template and
overwrites what sortie owns. Its steps are functions of their own here, in the order
the source takes them; each says which part of the request it decides, so that what
the template is left to decide can be read off.
-/

namespace Sortie.Compile

open Proto Api Plan

variable {F : Type}

def linearRampingRateLimiterPlugin : String := "nighthawk.linear-ramping-rate-limiter-plugin"

/-- `workersPerBackend`. -/
def workersPerBackend (s : Scenario) : Except String Nat :=
  if s.concurrency = "" then .ok 1
  else if s.concurrency = "auto" then
    .error ("concurrency \"auto\" cannot be combined with a rate, because "
      ++ "Nighthawk's --rps is per worker and the worker count is only decided "
      ++ "on the backend; set concurrency to a number")
  else match (Text.parseUint s.concurrency 32).filter (1 ≤ ·) with
    | some n => .ok n
    | none => .error ("concurrency " ++ Text.quote s.concurrency
        ++ " is not a positive integer that fits in 32 bits")

/-- `protocol`. -/
def protocol (name : String) : Except String ProtocolOptions :=
  if name = "" ∨ name = "http1" then .ok .http1
  else if name = "http2" then .ok .http2
  else if name = "http3" then .ok .http3
  else .error ("unknown protocol " ++ Text.quote name)

/-- `requestMethod`, for a name that is not empty. -/
def requestMethod (name : String) : Except String RequestMethod :=
  let table : List (String × RequestMethod) :=
    [("GET", .get), ("HEAD", .head), ("POST", .post), ("PUT", .put), ("DELETE", .delete),
      ("CONNECT", .connect), ("OPTIONS", .options), ("TRACE", .trace), ("PATCH", .patch)]
  match table.lookup (Text.toUpper name) with
  | some m => .ok m
  | none => .error ("unknown method " ++ Text.quote name)

/-! ## The steps of `options` -/

/-- What a run is judged by and how a worker waits, unless the template says. -/
def setDefaults (o : CommandLineOptions) : CommandLineOptions :=
  { o with
    noDefaultFailurePredicates :=
      if o.failurePredicates.isEmpty && o.noDefaultFailurePredicates.isNone then some true
      else o.noDefaultFailurePredicates
    sequencerIdleStrategy := o.sequencerIdleStrategy.or (some .wait) }

/-- The load shape and the identity of the execution are always sortie's. -/
def setShape (s : Scenario) (rate : UInt32) (dur : Span) (execID : String)
    (o : CommandLineOptions) : CommandLineOptions :=
  { o with
    requestsPerSecond := some rate
    durationOptions := some (.duration (Duration.new dur))
    executionId := some execID
    openLoop := some ((s.executor.map Executor.openLoop).getD false)
    uri := if s.target = "" then o.uri else some (.uri s.target) }

/-- A protocol the scenario names. -/
def setProtocol (s : Scenario) (o : CommandLineOptions) : Except String CommandLineOptions :=
  if s.protocol = "" then .ok o
  else (protocol s.protocol).map fun p => { o with protocol := some (.protocol p) }

/-- The scenario's grpc block: the whole of the stream configuration. -/
def setGrpc (s : Scenario) (o : CommandLineOptions) : CommandLineOptions :=
  match s.grpc with
  | none => o
  | some g =>
    { o with
      protocol := some (.protocol .http2)
      grpcMode := some (if g.mode = "bidi-stream" then .bidiStream else .unary)
      grpcStream :=
        if g.streams.isSome || g.maxInflightPerStream.isSome || g.drainDuration.isSome then
          some { streams := g.streams, maxInflightPerStream := g.maxInflightPerStream
                 drainDuration := g.drainDuration.map ParsedDuration.toDuration }
        else none }

/-- A udp target selects the mode; the block only tunes it. -/
def setUdp (s : Scenario) (o : CommandLineOptions) : CommandLineOptions :=
  if isUdpTarget s.target then
    { o with
      grpcMode := none, grpcStream := none, websocket := none, tcp := none
      udp := match s.udp with
        | none => o.udp
        | some u => some { maxInflight := u.maxInflight
                           timeout := u.timeout.map ParsedDuration.toDuration } }
  else o

/-- A tcp target selects the mode; the block only tunes it. -/
def setTcp (s : Scenario) (o : CommandLineOptions) : CommandLineOptions :=
  if isTcpTarget s.target then
    { o with
      grpcMode := none, grpcStream := none, websocket := none
      tcp := match s.tcp with
        | none => o.tcp
        | some t => some { connections := t.connections
                           maxInflightPerConnection := t.maxInflightPerConnection
                           expectEcho := t.expectEcho
                           drainDuration := t.drainDuration.map ParsedDuration.toDuration
                           maxMessagesPerConnection := t.maxMessagesPerConnection } }
  else o

/-- The connections a websocket scenario is given when nothing else says how many. -/
def websocketConnections (s : Scenario) (w : WebSocket) (o : CommandLineOptions) :
    Option UInt32 :=
  if s.connections.isSome || o.connections.isSome then o.connections
  else
    let streams : UInt32 := w.streams.getD 20
    match workersPerBackend s with
    | .error _ => o.connections
    | .ok workers =>
      let per := streams / UInt32.ofNat workers
      if 0 < per then some per else o.connections

/-- The scenario's websocket block. -/
def setWebsocket (s : Scenario) (o : CommandLineOptions) : CommandLineOptions :=
  match s.websocket with
  | none => o
  | some w =>
    { o with
      protocol := some (.protocol .http1)
      grpcMode := none, grpcStream := none
      websocket := some { streams := w.streams, maxInflightPerStream := w.maxInflightPerStream
                          drainDuration := w.drainDuration.map ParsedDuration.toDuration
                          binary := if w.binary then some true else none }
      connections := websocketConnections s w o }

/-- `tlsContext`: the files go inline, so that a backend needs no access to them. -/
def tlsContext (go : Go F) (t : Tls) : Except String TlsContext := do
  let trustedCa ←
    if t.caFile = "" then pure none
    else do pure (some (.inlineBytes (← (go.readFile t.caFile).mapError ("tls.ca_file: " ++ ·))))
  if t.certFile = "" then return { trustedCa }
  let cert ← (go.readFile t.certFile).mapError ("tls.cert_file: " ++ ·)
  let key ← (go.readFile t.keyFile).mapError ("tls.key_file: " ++ ·)
  return { trustedCa, tlsCertificates :=
    [{ certificateChain := some (.inlineBytes cert), privateKey := some (.inlineBytes key) }] }

def setTls (go : Go F) (s : Scenario) (o : CommandLineOptions) :
    Except String CommandLineOptions :=
  match s.tls with
  | none => .ok o
  | some t => do
    let context ← (tlsContext go t).mapError (("scenario " ++ Text.quote s.name ++ ": ") ++ ·)
    return { o with tlsContext := some context }

/-- The headers of a scenario, split at their first colon. -/
def requestHeaders (s : Scenario) : List String → Except String (List HeaderValue)
  | [] => .ok []
  | h :: hs => match Text.cut h ":" with
    | none => .error ("scenario " ++ Text.quote s.name ++ ": header " ++ Text.quote h
        ++ ": want \"Name: value\"")
    | some (key, value) => do
      return { key := Text.trimSpace key, value := Text.trimSpace value }
        :: (← requestHeaders s hs)

/-- The method of the request: what the scenario says, or what its mode requires. -/
def methodName (s : Scenario) : String :=
  if s.method ≠ "" then s.method
  else if s.websocket.isSome then "GET"
  else if s.grpc.isSome then "POST"
  else ""

/-- `requestOptions`, on top of the template's. -/
def requestOptions (go : Go F) (s : Scenario) (base : RequestOptions) :
    Except String RequestOptions := do
  let here := "scenario " ++ Text.quote s.name ++ ": "
  let method ←
    if methodName s = "" then pure base.requestMethod
    else (requestMethod (methodName s)).mapError (here ++ ·)
  let headers ← requestHeaders s s.headers
  let body ←
    if s.bodyFile ≠ "" then (go.readFile s.bodyFile).mapError ((here ++ "body_file: ") ++ ·)
    else pure (if s.body ≠ "" then s.body.toUTF8.data.toList else base.requestBody)
  let ownBody := s.body != "" || s.bodyFile != ""
  return { base with
    requestMethod := method
    requestHeaders := if s.headers.isEmpty then base.requestHeaders else headers
    requestBodySize := if ownBody then none else base.requestBodySize
    jsonBody := if ownBody then "" else base.jsonBody
    requestBody := body }

/-- The scenario says something about the request itself. -/
def shapesRequest (s : Scenario) : Bool :=
  s.method != "" || !s.headers.isEmpty || s.body != "" || s.bodyFile != "" || s.grpc.isSome
    || s.websocket.isSome || isTcpTarget s.target || isUdpTarget s.target

def setRequest (go : Go F) (s : Scenario) (o : CommandLineOptions) :
    Except String CommandLineOptions :=
  if shapesRequest s then do
    let base : RequestOptions := match o.requestOptions with
      | some (.requestOptions ro) => ro
      | _ => {}
    return { o with requestOptions := some (.requestOptions (← requestOptions go s base)) }
  else .ok o

/-- The limits the scenario sets; the others stay the template's. -/
def setLimits (s : Scenario) (o : CommandLineOptions) : CommandLineOptions :=
  { o with
    connections := s.connections.or o.connections
    concurrency := if s.concurrency = "" then o.concurrency else some s.concurrency
    maxPendingRequests := s.maxPendingRequests.or o.maxPendingRequests
    maxConcurrentStreams := s.maxConcurrentStreams.or o.maxConcurrentStreams
    timeout := (s.timeout.map ParsedDuration.toDuration).or o.timeout }

/-- The scenario's stats block, added to the sinks of the template. -/
def setStats (s : Scenario) (execID : String) (o : CommandLineOptions) :
    Except String CommandLineOptions :=
  match s.stats with
  | none => .ok o
  | some st =>
    (applyStats st execID o).mapError (("scenario " ++ Text.quote s.name ++ ": ") ++ ·)

/-- The rate limiter is always sortie's: a ramp, or the engine's own. -/
def setRateLimiter (ramp : Span) (o : CommandLineOptions) : CommandLineOptions :=
  { o with
    rateLimiterPluginConfig :=
      if 0 < ramp then
        some { name := linearRampingRateLimiterPlugin
               typedConfig := some (.linearRampingRateLimiter (some (Duration.new ramp))) }
      else none }

/-- `options`. -/
def options (go : Go F) (s : Scenario) (rate : UInt32) (dur ramp : Span) (execID : String) :
    Except String CommandLineOptions := do
  let o := setShape s rate dur execID (setDefaults (s.nighthawkTemplate.getD {}))
  let o ← setProtocol s o
  let o := setWebsocket s (setTcp s (setUdp s (setGrpc s o)))
  let o ← setTls go s o
  let o ← setRequest go s o
  let o ← setStats s execID (setLimits s o)
  return setRateLimiter ramp o

/-! ## What is printed -/

/-- The private key of a certificate as it is shown: either inline form is replaced with a note of
its size. -/
def redactedKey (key : DataSource) : DataSource :=
  let inlineBytes := match key with
    | .inlineBytes b => b
    | _ => []
  let inlineString := match key with
    | .inlineString s => s
    | _ => ""
  let size := inlineBytes.length + inlineString.utf8ByteSize
  if 0 < size then .inlineString ("<redacted: " ++ toString size ++ " bytes>") else key

/-- `Redacted`: a copy of the options fit to print, never to send. -/
def redacted (o : CommandLineOptions) : CommandLineOptions :=
  { o with
    tlsContext := o.tlsContext.map fun context =>
      { context with
        tlsCertificates := context.tlsCertificates.map fun cert =>
          { cert with privateKey := cert.privateKey.map redactedKey } } }

end Sortie.Compile
