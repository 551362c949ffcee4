import Sortie.Api.Options
import Sortie.Go

/-!
# The plan schema

The messages of api/sortie/plan/v1/plan.proto and the rules written next to their
fields. A rule that is not met is a `Violation`: the field, the rule's id and, for
the rules the schema words itself, its message. A plan fits the schema when it has
no violation.

Two rules mean to keep names apart and do not: they compare the size of a list with
the size of a list made from it entry by entry. They are rendered as they stand.
-/

namespace Sortie

open Proto Api

/-! ## Messages -/

structure Statsd where
  address : String := ""
  deriving DecidableEq, Repr

/-- `Stats`; `metricPrefix` is its field `prefix`. -/
structure Stats where
  flushInterval : Option ParsedDuration := none
  metricPrefix : String := ""
  statsd : Option Statsd := none
  sinks : List StatsSink := []
  backend : String := ""
  deriving Repr

structure Pool where
  name : String := ""
  services : List String := []
  distributor : String := ""
  targets : List String := []
  dns : String := ""
  deriving DecidableEq, Repr

structure Tcp where
  connections : Option UInt32 := none
  maxInflightPerConnection : Option UInt32 := none
  expectEcho : Option Bool := none
  drainDuration : Option ParsedDuration := none
  maxMessagesPerConnection : Option UInt32 := none
  deriving DecidableEq, Repr

structure Udp where
  maxInflight : Option UInt32 := none
  timeout : Option ParsedDuration := none
  deriving DecidableEq, Repr

structure WebSocket where
  streams : Option UInt32 := none
  maxInflightPerStream : Option UInt32 := none
  drainDuration : Option ParsedDuration := none
  binary : Bool := false
  deriving DecidableEq, Repr

structure Tls where
  caFile : String := ""
  certFile : String := ""
  keyFile : String := ""
  deriving DecidableEq, Repr

structure Grpc where
  mode : String := ""
  streams : Option UInt32 := none
  maxInflightPerStream : Option UInt32 := none
  drainDuration : Option ParsedDuration := none
  deriving DecidableEq, Repr

structure Stage where
  rate : UInt32 := 0
  duration : Option ParsedDuration := none
  deriving DecidableEq, Repr

structure Executor where
  type : String := ""
  rate : UInt32 := 0
  duration : Option ParsedDuration := none
  rampTime : Option ParsedDuration := none
  stages : List Stage := []
  openLoop : Bool := false
  perBackend : Bool := false
  deriving DecidableEq, Repr

structure Target where
  name : String := ""
  url : String := ""
  weight : UInt32 := 0
  method : String := ""
  headers : List String := []
  body : String := ""
  bodyFile : String := ""
  deriving DecidableEq, Repr

structure Scenario where
  name : String := ""
  pool : String := ""
  target : String := ""
  method : String := ""
  headers : List String := []
  body : String := ""
  protocol : String := ""
  executor : Option Executor := none
  connections : Option UInt32 := none
  concurrency : String := ""
  maxPendingRequests : Option UInt32 := none
  maxConcurrentStreams : Option UInt32 := none
  timeout : Option ParsedDuration := none
  thresholds : List String := []
  nighthawkTemplate : Option CommandLineOptions := none
  grpc : Option Grpc := none
  bodyFile : String := ""
  tls : Option Tls := none
  websocket : Option WebSocket := none
  tcp : Option Tcp := none
  udp : Option Udp := none
  stats : Option Stats := none
  targets : List Target := []
  deriving Repr

structure Plan where
  version : String := ""
  pools : List Pool := []
  defaults : Option Scenario := none
  scenarios : List Scenario := []
  thresholds : List String := []
  stats : Option Stats := none
  deriving Repr

/-! ## Patterns -/

/-- `^\[?[^\[\]]+\]?:[0-9]{1,5}$`: the digits hold no colon, so the colon is the last one. -/
def isHostPort (s : String) : Bool :=
  match Text.cutLast s ':' with
  | none => false
  | some (host, port) =>
    let opened := match host.toList with
      | '[' :: rest => rest
      | cs => cs
    let inner := match opened.reverse with
      | ']' :: rest => rest
      | cs => cs
    let digits := port.toList
    !inner.isEmpty && !inner.contains '[' && !inner.contains ']'
      && digits.all Char.isDigit && 1 ≤ digits.length && digits.length ≤ 5

/-- `^([1-9][0-9]*|auto)$`. -/
def isConcurrency (s : String) : Bool :=
  s == "auto" || match s.toList with
    | [] => false
    | c :: cs => c != '0' && (c :: cs).all Char.isDigit

/-- `^[^:]+:.*$`, where the dot matches no line break. -/
def isHeader (s : String) : Bool :=
  match Text.cut s ":" with
  | none => false
  | some (name, value) => name != "" && !value.toList.contains '\n'

/-- `^[a-zA-Z0-9_][a-zA-Z0-9_.-]*$`. -/
def isMetricPrefix (s : String) : Bool :=
  let word (c : Char) : Bool := c.isAlphanum || c == '_'
  match s.toList with
  | [] => false
  | c :: cs => word c && cs.all fun c => word c || c == '.' || c == '-'

/-- The schemes a target may have. -/
def isTargetUrl (s : String) : Bool :=
  ["http://", "https://", "tcp://", "tcps://", "udp://"].any (Text.hasPrefix s)

/-! ## Rules -/

/-- A rule of the schema that a message does not meet. -/
structure Violation where
  field : String
  id : String
  message : String := ""
  deriving DecidableEq, Repr

/-- One rule of the schema. -/
def rule (field id : String) (ok : Bool) (message : String := "") : List Violation :=
  if ok then [] else [{ field, id, message }]

/-- A rule that is skipped for the zero value. -/
def ruleUnlessEmpty (field id : String) (ok : String → Bool) (s message : String) :
    List Violation :=
  rule field id (s == "" || ok s) message

/-- `duration.gt = 0`, on a duration that is set. -/
def positive (field : String) (d : Option ParsedDuration) : List Violation :=
  rule field "duration.gt" (d.all fun d => decide (0 < d.asDuration))

/-- `duration.gte = 0`, on a duration that is set. -/
def nonNegative (field : String) (d : Option ParsedDuration) : List Violation :=
  rule field "duration.gte" (d.all fun d => decide (0 ≤ d.asDuration))

/-- `uint32.gte = 1`, on a number that is set. -/
def atLeastOne (field : String) (n : Option UInt32) : List Violation :=
  rule field "uint32.gte" (n.all fun n => 1 ≤ n)

def hostPortMessage (what : String) : String := what ++ " must be host:port"

def Statsd.violations (s : Statsd) : List Violation :=
  rule "address" "statsd.address.host_port" (isHostPort s.address) (hostPortMessage "address")

def Stats.violations (s : Stats) : List Violation :=
  rule "" "stats.needs_a_sink" (s.statsd.isSome || !s.sinks.isEmpty)
      "stats needs statsd or at least one entry in sinks"
    ++ rule "flush_interval" "duration.gte"
      (s.flushInterval.all fun d => decide (1000000 ≤ d.asDuration.ns))
    ++ ruleUnlessEmpty "prefix" "stats.prefix.format" isMetricPrefix s.metricPrefix
      "prefix must be made of [a-zA-Z0-9_.-] and start with a letter, digit or _"
    ++ ruleUnlessEmpty "backend" "stats.backend.enum" (fun b => b == "address" || b == "name")
      s.backend "backend must be address or name"
    ++ (s.statsd.map Statsd.violations).getD []

def Pool.violations (p : Pool) : List Violation :=
  let modes := (if p.services.isEmpty then 0 else 1) + (if p.distributor = "" then 0 else 1)
    + (if p.dns = "" then 0 else 1)
  rule "" "pool.one_dispatch_mode" (decide (modes ≤ 1))
      "set one of services, distributor or dns, not more than one"
    ++ rule "" "pool.some_dispatch_mode" (decide (1 ≤ modes))
      "set one of services, distributor or dns"
    ++ rule "" "pool.distributor_needs_targets" (p.distributor == "" || !p.targets.isEmpty)
      "distributor requires at least one entry in targets"
    ++ rule "" "pool.targets_need_distributor" (p.targets.isEmpty || p.distributor != "")
      "targets is only meaningful together with distributor"
    ++ rule "name" "string.min_len" (p.name != "")
    ++ p.services.flatMap (fun s =>
      rule "services" "pool.service.host_port" (isHostPort s) (hostPortMessage "each service"))
    ++ ruleUnlessEmpty "distributor" "pool.distributor.host_port" isHostPort p.distributor
      (hostPortMessage "distributor")
    ++ p.targets.flatMap (fun s =>
      rule "targets" "pool.target.host_port" (isHostPort s) (hostPortMessage "each target"))
    ++ ruleUnlessEmpty "dns" "pool.dns.host_port" isHostPort p.dns (hostPortMessage "dns")

def Tcp.violations (t : Tcp) : List Violation :=
  atLeastOne "connections" t.connections
    ++ atLeastOne "max_inflight_per_connection" t.maxInflightPerConnection
    ++ nonNegative "drain_duration" t.drainDuration

def Udp.violations (u : Udp) : List Violation :=
  atLeastOne "max_inflight" u.maxInflight ++ positive "timeout" u.timeout

def WebSocket.violations (w : WebSocket) : List Violation :=
  atLeastOne "streams" w.streams ++ atLeastOne "max_inflight_per_stream" w.maxInflightPerStream
    ++ nonNegative "drain_duration" w.drainDuration

def Tls.violations (t : Tls) : List Violation :=
  rule "" "tls.client_pair" ((t.certFile == "") == (t.keyFile == ""))
    "cert_file and key_file go together"

def Grpc.violations (g : Grpc) : List Violation :=
  rule "mode" "grpc.mode.known" (g.mode == "unary" || g.mode == "bidi-stream")
      "grpc.mode must be unary or bidi-stream"
    ++ atLeastOne "streams" g.streams ++ atLeastOne "max_inflight_per_stream" g.maxInflightPerStream
    ++ nonNegative "drain_duration" g.drainDuration

def Stage.violations (s : Stage) : List Violation :=
  rule "rate" "uint32.gt" (0 < s.rate)
    ++ rule "duration" "required" s.duration.isSome
    ++ positive "duration" s.duration

def Executor.violations (e : Executor) : List Violation :=
  rule "" "executor.stages_only_for_staircase" (e.type == "staircase" || e.stages.isEmpty)
      "stages is only valid for the staircase executor"
    ++ rule "" "executor.ramp_time_only_for_ramping_rate"
      (e.type == "ramping-rate" || e.rampTime.isNone)
      "ramp_time is only valid for the ramping-rate executor"
    ++ rule "" "executor.staircase_needs_stages" (e.type != "staircase" || !e.stages.isEmpty)
      "the staircase executor requires at least one stage"
    ++ rule "" "executor.staircase_rate_on_stages"
      (e.type != "staircase" || (e.rate == 0 && e.duration.isNone))
      "set rate and duration on each stage, not on a staircase executor"
    ++ rule "" "executor.rate_required" (e.type == "staircase" || 0 < e.rate)
      "rate must be greater than zero"
    ++ rule "" "executor.duration_required" (e.type == "staircase" || e.duration.isSome)
      "duration is required"
    ++ rule "" "executor.ramping_rate_needs_ramp_time"
      (e.type != "ramping-rate" || e.rampTime.isSome)
      "the ramping-rate executor requires a ramp_time"
    ++ rule "" "executor.ramp_time_shorter_than_duration"
      (match e.rampTime, e.duration with
        | some r, some d => decide (r.asDuration < d.asDuration)
        | _, _ => true)
      "ramp_time must be shorter than duration"
    ++ rule "type" "executor.type.known"
      (["constant-rate", "ramping-rate", "staircase"].contains e.type)
      "executor type must be constant-rate, ramping-rate or staircase"
    ++ positive "duration" e.duration
    ++ positive "ramp_time" e.rampTime
    ++ e.stages.flatMap Stage.violations

def schemeMessage (what : String) : String :=
  what ++ " scheme must be http, https, tcp, tcps or udp"

def headerViolations (id : String) (headers : List String) : List Violation :=
  headers.flatMap fun h =>
    rule "headers" id (isHeader h) "each header must be written \"Name: value\""

def Target.violations (t : Target) : List Violation :=
  rule "name" "string.min_len" (t.name != "")
    ++ rule "url" "target.url.scheme" (isTargetUrl t.url) (schemeMessage "url")
    ++ headerViolations "target.header.format" t.headers

def Scenario.violations (s : Scenario) : List Violation :=
  rule "" "scenario.one_target_form" (!(s.target != "" && !s.targets.isEmpty))
      "set either target or targets, not both"
    ++ ruleUnlessEmpty "target" "scenario.target.scheme" isTargetUrl s.target
      (schemeMessage "target")
    ++ headerViolations "scenario.header.format" s.headers
    ++ ruleUnlessEmpty "protocol" "scenario.protocol.known"
      (["http1", "http2", "http3"].contains ·) s.protocol "protocol must be http1, http2 or http3"
    ++ (s.executor.map Executor.violations).getD []
    ++ atLeastOne "connections" s.connections
    ++ ruleUnlessEmpty "concurrency" "scenario.concurrency.format" isConcurrency s.concurrency
      "concurrency must be a positive integer or \"auto\""
    ++ atLeastOne "max_concurrent_streams" s.maxConcurrentStreams
    ++ positive "timeout" s.timeout
    ++ (s.grpc.map Grpc.violations).getD []
    ++ (s.websocket.map WebSocket.violations).getD []
    ++ (s.tcp.map Tcp.violations).getD []
    ++ (s.udp.map Udp.violations).getD []
    ++ (s.stats.map Stats.violations).getD []
    ++ (s.tls.map Tls.violations).getD []
    ++ s.targets.flatMap Target.violations

def Plan.violations (p : Plan) : List Violation :=
  rule "" "plan.pools.unique_names"
      ((p.pools.map Pool.name).length == p.pools.length) "pool names must be unique"
    ++ rule "" "plan.scenarios.unique_names"
      ((p.scenarios.map Scenario.name).length == p.scenarios.length)
      "scenario names must be unique"
    ++ rule "version" "plan.version.supported" (p.version == "v1")
      "unsupported plan version, want \"v1\""
    ++ rule "pools" "repeated.min_items" (!p.pools.isEmpty)
    ++ p.pools.flatMap Pool.violations
    ++ (p.defaults.map Scenario.violations).getD []
    ++ rule "scenarios" "repeated.min_items" (!p.scenarios.isEmpty)
    ++ p.scenarios.flatMap Scenario.violations
    ++ (p.stats.map Stats.violations).getD []

end Sortie
