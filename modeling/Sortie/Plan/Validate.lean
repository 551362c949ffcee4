import Sortie.Lib.Checks
import Sortie.Plan.Schema
import Sortie.Threshold

/-!
# The checks beyond the schema

internal/plan/validate.go: what the schema cannot say, because it spans messages or
because its grammar lives elsewhere. The checks read *effective* values: they run
before the defaults are folded in, so each of them looks a field up on the scenario
first and on the defaults second.
-/

namespace Sortie.Plan

open Proto Api Checks

variable {F : Type}

/-- Executor types, as written in a plan. -/
def constantRate : String := "constant-rate"
def rampingRate : String := "ramping-rate"
def staircase : String := "staircase"

/-- `Stats.backend` when the engine's own name goes into its metric names. -/
def statsBackendName : String := "name"
def statsBackendToken : String := "%BACKEND%"

def defaultStatsPrefix : String := "sortie"

/-- The first non-empty of two strings: a scenario's, then the defaults'. -/
def effective (a b : String) : String := if a = "" then b else a

/-! ## Labels and metric prefixes -/

/-- What a segment reduces to: `pending` remembers a run of other characters. -/
def sanitize (pending : Bool) (acc : List Char) : List Char → List Char
  | [] => acc
  | c :: cs =>
    let r := Text.toLowerRune c
    if ('a' ≤ r ∧ r ≤ 'z') ∨ ('0' ≤ r ∧ r ≤ '9') ∨ r = '_' then
      sanitize false (if pending && !acc.isEmpty then acc ++ ['_', r] else acc ++ [r]) cs
    else sanitize true acc cs

/-- `StatsLabel`. -/
def statsLabel (label : String) : List String :=
  (Text.split label '/').filterMap fun segment =>
    let out := sanitize false [] segment.toList
    if out.isEmpty then none else some (String.ofList out)

/-- `StatsPrefix`. -/
def statsPrefix (first label : String) : String :=
  Text.join "." (effective first defaultStatsPrefix :: statsLabel label)

example : statsPrefix "" "smoke/stage-2" = "sortie.smoke.stage_2" := by decide
example : statsPrefix "soak" "Checkout/eu" = "soak.checkout.eu" := by decide

/-! ## Weighted targets -/

def weightOf (t : Target) : UInt32 := if t.weight = 0 then 1 else t.weight

/-- `share`: `rate * w / total`, rounded to nearest, at least 1 when the rate is set. -/
def share (rate : UInt32) (w total : UInt64) : UInt32 :=
  if rate = 0 then 0
  else
    let product := rate.toUInt64 * w
    let v := product / total
    let rem := product % total
    let v := if total - rem ≤ rem then v + 1 else v
    (if v = 0 then 1 else v).toUInt32

/-- The weights of all the targets, added up in 64 bits. -/
def totalWeight (targets : List Target) : UInt64 :=
  targets.foldl (fun total t => total + (weightOf t).toUInt64) 0

/-- The executor of one target: its rates are scaled to the target's share. -/
def Executor.scaled (e : Executor) (w total : UInt64) : Executor :=
  if 0 < total then
    { e with
      rate := share e.rate w total
      stages := e.stages.map fun st => { st with rate := share st.rate w total } }
  else e

/-- `ForTarget`. -/
def forTarget (s : Scenario) (t : Target) : Scenario :=
  { s with
    target := t.url
    targets := []
    method := effective t.method s.method
    headers := if t.headers.isEmpty then s.headers else t.headers
    -- a target that gives either form of a body keeps neither of the scenario's
    body := if t.body = "" ∧ t.bodyFile = "" then s.body else t.body
    bodyFile := if t.body = "" ∧ t.bodyFile = "" then s.bodyFile else t.bodyFile
    executor := s.executor.map fun e =>
      Executor.scaled e (weightOf t).toUInt64 (totalWeight s.targets) }

/-- The name a target's scenario runs under. -/
def variant (s : Scenario) (t : Target) : Scenario :=
  { forTarget s t with name := s.name ++ "/" ++ t.name }

/-- `Variants`. -/
def variants (s : Scenario) : List Scenario :=
  if s.targets.isEmpty then [s] else s.targets.map (variant s)

/-! ## Targets and modes -/

def isUdpTarget (target : String) : Bool := Text.hasPrefix target "udp://"

def isTcpTarget (target : String) : Bool :=
  Text.hasPrefix target "tcp://" || Text.hasPrefix target "tcps://"

/-- The port of `splitTargetHostPort`, which never fails: empty when there is none. -/
def targetPort (target : String) : String :=
  let rest := Text.upToAny ((Text.cut target "://").elim "" Prod.snd) "/?#"
  match Text.cutLast rest ':' with
  | none => ""
  | some (_, port) => if port.toList.contains ']' then "" else port

/-- `validateTargets`. -/
def validateTargets (s : Scenario) : Except String Unit :=
  each (fun (t, i) => do
    let path := "targets[" ++ toString i ++ "]"
    require (t.name != "") (path ++ ": name is required")
    require (!Text.containsAny t.name "/ ")
      (path ++ ": name " ++ Text.quote t.name ++ " must not contain '/' or spaces")
    require (!((s.targets.take i).map Target.name).contains t.name)
      (path ++ ": name " ++ Text.quote t.name ++ " is used twice")
    require (t.body == "" || t.bodyFile == "")
      (path ++ " (" ++ t.name ++ "): body and body_file are mutually exclusive"))
    s.targets.zipIdx

/-- `validateTls`. -/
def validateTls (d s : Scenario) : Except String Unit :=
  if (s.tls.or d.tls).isNone then .ok ()
  else
    let target := effective s.target d.target
    require (Text.hasPrefix target "https://" || Text.hasPrefix target "tcps://")
      ("tls needs an https or tcps target (got " ++ Text.quote target ++ ")")

/-- The streams an engine opens when a plan leaves the number unset. -/
def defaultBidiStreams : Nat := 20

/--
The check grpc bidi-stream and websocket share: the concurrency is a number, and the
streams can be divided over that many workers.
-/
def validateStreams (what field concurrency : String) (streams : Option UInt32) :
    Except String Unit := do
  require (concurrency != "auto") (what ++ " needs a numeric concurrency, not \"auto\": "
    ++ "streams and rate are divided over the workers")
  let n := (streams.map UInt32.toNat).getD defaultBidiStreams
  match Text.parseUint concurrency 32 with
  | none => .ok ()
  | some workers =>
    require (workers == 0 || n % workers == 0)
      (field ++ " (" ++ toString n ++ (if streams.isNone then ", the engine's default" else "")
        ++ ") must be a multiple of concurrency (" ++ toString workers ++ ")")

/-- `validateWebSocket`. -/
def validateWebSocket (d s : Scenario) : Except String Unit :=
  match s.websocket.or d.websocket with
  | none => .ok ()
  | some w => do
    require (s.grpc.isNone && d.grpc.isNone) "websocket and grpc are mutually exclusive"
    let protocol := effective s.protocol d.protocol
    require (protocol == "" || protocol == "http1") ("websocket requires protocol http1 (got "
      ++ Text.quote protocol ++ "): the upgrade is an HTTP/1.1 request; leave it unset")
    let method := effective s.method d.method
    require (method == "" || Text.equalFold method "GET")
      ("websocket requires method GET (got " ++ Text.quote method ++ "); leave it unset")
    validateStreams "websocket" "websocket.streams" (effective s.concurrency d.concurrency)
      w.streams

/-- `validateGrpc`. -/
def validateGrpc (d s : Scenario) : Except String Unit := do
  require (s.body == "" || s.bodyFile == "") "body and body_file are mutually exclusive"
  match s.grpc.or d.grpc with
  | none => .ok ()
  | some g => do
    let protocol := effective s.protocol d.protocol
    require (protocol == "" || protocol == "http2")
      ("grpc requires protocol http2 (got " ++ Text.quote protocol ++ "); leave it unset")
    let method := effective s.method d.method
    require (method == "" || Text.equalFold method "POST")
      ("grpc requires method POST (got " ++ Text.quote method ++ "); leave it unset")
    if g.mode = "bidi-stream" then
      validateStreams "grpc bidi-stream" "grpc.streams" (effective s.concurrency d.concurrency)
        g.streams
    else
      require (g.streams.isNone && g.maxInflightPerStream.isNone && g.drainDuration.isNone)
        ("grpc.streams, max_inflight_per_stream and drain_duration apply to mode "
          ++ "bidi-stream only")

/-- What a raw target forbids: everything that shapes an HTTP request. -/
def validateRaw (d s : Scenario) (what theBodyIs connectionsMessage : String) :
    Except String Unit := do
  require (targetPort (effective s.target d.target) != "") ("a " ++ what
    ++ " target needs an explicit port (got " ++ Text.quote (effective s.target d.target) ++ ")")
  let method := effective s.method d.method
  require (method == "") ("method " ++ Text.quote method ++ " has no meaning with a " ++ what
    ++ " target: " ++ theBodyIs)
  require (s.headers.isEmpty && d.headers.isEmpty)
    ("headers have no meaning with a " ++ what ++ " target: " ++ theBodyIs)
  let protocol := effective s.protocol d.protocol
  require (protocol == "")
    ("protocol " ++ Text.quote protocol ++ " has no meaning with a " ++ what ++ " target")
  require (s.connections.isNone && d.connections.isNone) connectionsMessage

/-- The effective body or body file is set. -/
def hasBody (d s : Scenario) : Bool :=
  effective s.body d.body != "" || effective s.bodyFile d.bodyFile != ""

/-- `validateUdp`. -/
def validateUdp (d s : Scenario) : Except String Unit :=
  let target := effective s.target d.target
  if isUdpTarget target then do
    validateRaw d s "udp" "the body is the datagram"
      "connections has no meaning with a udp target: one socket per worker"
    require (s.grpc.isNone && d.grpc.isNone && s.websocket.isNone && d.websocket.isNone
      && s.tcp.isNone && d.tcp.isNone) "grpc, websocket and tcp cannot go with a udp target"
    require (hasBody d s)
      "a udp target needs a body or body_file: the datagram is what gets echoed and matched"
  else require (s.udp.or d.udp).isNone
    ("udp applies to a udp:// target (got " ++ Text.quote target ++ ")")

/-- `validateTcp`. -/
def validateTcp (d s : Scenario) : Except String Unit :=
  let target := effective s.target d.target
  let tcp := s.tcp.or d.tcp
  if isTcpTarget target then do
    validateRaw d s "tcp" "the body is the message"
      ("connections is the HTTP pool's cap and does nothing for a tcp target; "
        ++ "set tcp.connections")
    require (s.grpc.isNone && d.grpc.isNone && s.websocket.isNone && d.websocket.isNone)
      "grpc and websocket cannot go with a tcp target"
    let expectEcho := (tcp.bind Tcp.expectEcho).getD true
    require (!expectEcho || hasBody d s)
      ("a tcp target needs a body or body_file: the message is what gets echoed and matched "
        ++ "(or tcp.expect_echo: false)")
  else require tcp.isNone
    ("tcp applies to a tcp:// or tcps:// target (got " ++ Text.quote target ++ ")")

/-- `validateModes`. -/
def validateModes (d s : Scenario) : Except String Unit := do
  validateGrpc d s
  validateWebSocket d s
  validateTls d s
  validateTcp d s
  validateUdp d s

/-! ## Stats sinks -/

def openTelemetrySink : String := "envoy.stat_sinks.open_telemetry"
def openTelemetrySinkConfig : String :=
  "envoy.extensions.stat_sinks.open_telemetry.v3.SinkConfig"
def envoyStatsSinkAdapter : String := "nighthawk.envoy_stats_sink_adapter"
def envoyStatsSinkAdapterConfig : String := "nighthawk.EnvoyStatsSinkAdapterConfig"

/-- `statsdEndpoint`. -/
def statsdEndpoint (go : Go F) (host : String) (port : Nat) : Except String Unit := do
  require (port != 0 && port ≤ 65535) ("port " ++ toString port ++ " is not in 1..65535")
  require (go.parseIP host) (Text.quote host ++ " is not an IP address; the engine's statsd sink "
    ++ "does not resolve names, so use the server's IP (a Service's clusterIP)")

/-- Where a statsd sink that is written out in full sends: the last part of `passthroughStatsd`. -/
def passthroughAddress (go : Go F) (address : Option SocketAddress) : Except String Unit :=
  match address with
  | none => .error "address: a statsd sink needs a socket_address with an IP and a port"
  | some sa => do
    require (sa.namedPort == "") ("address: named_port " ++ Text.quote sa.namedPort
      ++ " cannot be resolved; set port_value")
    (statsdEndpoint go sa.address sa.portValue.toNat).mapError ("address: " ++ ·)

/-- `passthroughStatsd`. -/
def passthroughStatsd (go : Go F) (sink : StatsSink) : Except String Unit :=
  match sink.typedConfig with
  | some (.statsd sd) => do
    require (sd.tcpClusterName == "") ("tcp_cluster_name " ++ Text.quote sd.tcpClusterName
      ++ ": the engine has no such cluster, because it writes its own bootstrap; use address, "
      ++ "which sends over UDP")
    passthroughAddress go sd.address
  | some (.dogStatsd address _) => passthroughAddress go address
  | some (.other typeUrl bytes) =>
    -- a packed sink whose bytes are not one
    let name := (TypedConfig.other typeUrl bytes).typeName
    require (name != (TypedConfig.statsd {}).typeName
        && name != (TypedConfig.dogStatsd none "").typeName)
      "typed_config: proto: cannot parse invalid wire-format data"
  | _ => .ok ()

/-- The checks of one entry of `stats.sinks`. -/
def validateSink (go : Go F) (sink : StatsSink) : Except String Unit := do
  let type := (sink.typedConfig.map TypedConfig.typeName).getD ""
  require (sink.name != openTelemetrySink && type != openTelemetrySinkConfig) (openTelemetrySink
    ++ " cannot run in the engine: it aborts on its first flush. "
    ++ "Send statsd to the collector's statsd receiver instead")
  require (sink.name != envoyStatsSinkAdapter && type != envoyStatsSinkAdapterConfig)
    ("name the Envoy sink itself, not " ++ envoyStatsSinkAdapter ++ ": sortie adds the adapter")
  passthroughStatsd go sink

/-- `validateStats`; a plan without the block passes. -/
def validateStats (go : Go F) (stats : Option Stats) : Except String Unit :=
  match stats with
  | none => .ok ()
  | some st => do
    each (fun (sink, i) =>
      (validateSink go sink).mapError (("sinks[" ++ toString i ++ "]: ") ++ ·)) st.sinks.zipIdx
    match st.statsd with
    | none => .ok ()
    | some sd => do
      let (host, port) ← (Text.splitHostPort sd.address).mapError ("statsd.address: " ++ ·)
      match Text.parseUint port 16 with
      | none => .error ("statsd.address: port " ++ Text.quote port ++ " is not in 1..65535")
      | some n => (statsdEndpoint go host n).mapError ("statsd.address: " ++ ·)

/-- The scenario with the target list it is about to inherit. -/
def inheritTargets (d s : Scenario) : Scenario :=
  if s.target = "" ∧ s.targets.isEmpty ∧ !d.targets.isEmpty then { s with targets := d.targets }
  else s

/-- The label `<name>/stage-<i>` of a stage, counted from 1. -/
def stageLabel (name : String) (i : Nat) : String := name ++ "/stage-" ++ toString i

/-- Every label the executions of a scenario are given, by its effective executor. -/
def executionLabels (subject : Scenario) (executor : Executor) : List String :=
  (variants subject).flatMap fun v =>
    if executor.type = staircase then
      (List.range executor.stages.length).map fun i => stageLabel v.name (i + 1)
    else [v.name]

/-- Record the metric prefixes of one scenario's labels; `seen` maps a prefix to its label. -/
def claimPrefixes (first : String) (seen : List (String × String)) :
    List String → Except String (List (String × String))
  | [] => .ok seen
  | label :: labels =>
    let emitted := statsPrefix first label
    match seen.lookup emitted with
    | some other => .error ("executions " ++ Text.quote other ++ " and " ++ Text.quote label
        ++ " would emit their metrics under the same prefix (" ++ emitted ++ "); "
        ++ "rename a scenario or a target, or give the scenarios different stats.prefix values")
    | none => claimPrefixes first ((emitted, label) :: seen) labels

/-- `validateStatsPrefixes`, from a scenario on. -/
def validateStatsPrefixes (p : Plan) (seen : List (String × String)) :
    List Scenario → Except String Unit
  | [] => .ok ()
  | s :: rest => do
    let d := p.defaults.getD {}
    match (s.stats.or d.stats).or p.stats with
    | some st =>
      if st.statsd.isSome then do
        let executor := (s.executor.or d.executor).getD {}
        require (!(statsLabel s.name).isEmpty) ("scenario " ++ Text.quote s.name
          ++ ": its name has no letter, digit or underscore to name its metrics by; "
          ++ "rename it, or drop its statsd sink")
        let seen ← claimPrefixes st.metricPrefix seen
          (executionLabels (inheritTargets d s) executor)
        validateStatsPrefixes p seen rest
      else validateStatsPrefixes p seen rest
    | none => validateStatsPrefixes p seen rest

/-! ## The whole plan -/

/-- `SplitDns`. -/
def splitDns (dns : String) : Except String (String × String) := do
  let (host, port) ← Text.splitHostPort dns
  require (host != "") "the host is empty"
  require ((Text.parseUint port 16).any (· != 0))
    ("port " ++ Text.quote port ++ " is not in 1..65535")
  return (host, port)

/-- Every expression of a threshold list parses. -/
def validateThresholds (go : Go F) (exprs : List String) : Except String Unit :=
  each (fun (expr, i) => do
    let _ ← (Threshold.parse go expr).mapError (("thresholds[" ++ toString i ++ "]: ") ++ ·)
    return ()) exprs.zipIdx

/-- The checks of one scenario, before the defaults are folded in. -/
def validateScenario (go : Go F) (p : Plan) (s : Scenario) : Except String Unit := do
  let d := p.defaults.getD {}
  let here := "scenario " ++ Text.quote s.name ++ ": "
  require (s.name != "") "every scenario needs a name"
  let pool := effective s.pool d.pool
  require (pool != "") (here ++ "pool is required (set it on the scenario or in defaults)")
  require ((p.pools.map Pool.name).contains pool)
    (here ++ "pool " ++ Text.quote pool ++ " is not declared")
  require (!(s.target == "" && s.targets.isEmpty && d.target == "" && d.targets.isEmpty))
    (here ++ "target is required (set it on the scenario or in defaults)")
  (validateTargets s).mapError (here ++ ·)
  require (s.executor.isSome || d.executor.isSome)
    (here ++ "executor is required (set it on the scenario or in defaults)")
  (validateThresholds go s.thresholds).mapError (here ++ ·)
  each (fun v => (validateModes d v).mapError (("scenario " ++ Text.quote v.name ++ ": ") ++ ·))
    (variants (inheritTargets d s))
  (validateStats go s.stats).mapError ((here ++ "stats: ") ++ ·)

/-- `validateBeyondSchema`. -/
def validateBeyondSchema (go : Go F) (p : Plan) : Except String Unit := do
  let d := p.defaults.getD {}
  each (fun (pool : Pool) => do
    if pool.dns ≠ "" then
      let _ ← (splitDns pool.dns).mapError fun e => "pool " ++ Text.quote pool.name ++ ": dns "
        ++ Text.quote pool.dns ++ ": " ++ e ++ " (an IPv6 literal needs brackets)"
    return ()) p.pools
  validateThresholds go p.thresholds
  require (d.body == "" || d.bodyFile == "")
    "defaults: body and body_file are mutually exclusive"
  (validateStats go p.stats).mapError ("stats: " ++ ·)
  validateStatsPrefixes p [] p.scenarios
  (validateStats go d.stats).mapError ("defaults: stats: " ++ ·)
  (validateTargets d).mapError ("defaults: " ++ ·)
  each (validateScenario go p) p.scenarios

/-! ## Defaults -/

/-- What `applyDefaults` does to one scenario, given the defaults block. -/
def withDefaults (d s : Scenario) : Scenario :=
  let ownTarget := s.target != "" || !s.targets.isEmpty
  let ownBody := s.body != "" || s.bodyFile != ""
  { s with
    pool := effective s.pool d.pool
    target := if ownTarget then s.target else d.target
    targets := if ownTarget then s.targets else d.targets
    method := effective s.method d.method
    body := if ownBody then s.body else d.body
    bodyFile := if ownBody then s.bodyFile else d.bodyFile
    grpc := s.grpc.or d.grpc
    websocket := s.websocket.or d.websocket
    tls := s.tls.or d.tls
    tcp := s.tcp.or d.tcp
    udp := s.udp.or d.udp
    protocol := effective s.protocol d.protocol
    headers := if s.headers.isEmpty then d.headers else s.headers
    connections := s.connections.or d.connections
    concurrency := effective s.concurrency d.concurrency
    maxPendingRequests := s.maxPendingRequests.or d.maxPendingRequests
    maxConcurrentStreams := s.maxConcurrentStreams.or d.maxConcurrentStreams
    timeout := s.timeout.or d.timeout
    executor := s.executor.or d.executor
    nighthawkTemplate := s.nighthawkTemplate.or d.nighthawkTemplate }

/-- `applyDefaults`: the stats block has a third level, the plan's own. -/
def applyDefaults (p : Plan) : Plan :=
  let stats (s : Scenario) : Scenario :=
    { s with stats := (s.stats.or (p.defaults.bind Scenario.stats)).or p.stats }
  { p with scenarios := p.scenarios.map fun s =>
      match p.defaults with
      | none => stats s
      | some d => withDefaults d (stats s) }

/-- Why a plan is not accepted. -/
inductive ParseError where
  | schema (violations : List Violation)
  | invalid (text : String)
  deriving DecidableEq, Repr

/-- `Parse`, from the decoded message on. A plan held in memory keeps its file paths as written. -/
def parse (go : Go F) (p : Plan) : Except ParseError Plan :=
  if p.violations = [] then
    match validateBeyondSchema go p with
    | .error e => .error (.invalid e)
    | .ok () => .ok (applyDefaults p)
  else .error (.schema p.violations)

/-- `PoolFor`. -/
def poolFor (p : Plan) (s : Scenario) : Pool :=
  (p.pools.find? fun pool => pool.name == s.pool).getD {}

/-- `EffectiveThresholds`. -/
def effectiveThresholds (p : Plan) (s : Scenario) : List String := p.thresholds ++ s.thresholds

end Sortie.Plan
