import Sortie.Plan.Validate

/-!
# Stats sinks of an execution

internal/compile/stats.go: the sinks a stats block compiles to, and the part of
their prefix that names the backend they run on.
-/

namespace Sortie.Compile

open Proto Api Plan

def statsdSink : String := "envoy.stat_sinks.statsd"

/-- `socketAddress`. -/
def socketAddress (hostPort : String) : Except String SocketAddress := do
  let (host, port) ← Text.splitHostPort hostPort
  match Text.parseUint port 16 with
  | some n =>
    if n = 0 then throw ("port " ++ Text.quote port ++ " is not in 1..65535")
    return { address := host, portValue := UInt32.ofNat n }
  | none => throw ("port " ++ Text.quote port ++ " is not in 1..65535")

/-- `adapted`: an Envoy sink in the engine's adapter. -/
def adapted (name : String) (config : Option TypedConfig) : StatsSink :=
  { name := envoyStatsSinkAdapter, typedConfig := some (.envoyStatsSinkAdapter name config) }

/-- The statsd sink of a stats block. -/
def statsdSinks (st : Stats) (metricPrefix : String) : Except String (List StatsSink) :=
  match st.statsd with
  | none => .ok []
  | some sd => do
    let address ← (socketAddress sd.address).mapError ("stats.statsd.address: " ++ ·)
    return [adapted statsdSink (some (.statsd
      { address := some address, metricPrefix, scaleHistogramUnitsToMilliseconds := true }))]

/-- The sinks a stats block passes through, from the `i`-th on. -/
def passthroughSinks : List StatsSink → Nat → Except String (List StatsSink)
  | [], _ => .ok []
  | sink :: sinks, i => do
    if sink.name = "" then throw ("stats.sinks[" ++ toString i ++ "]: a sink needs a name")
    return adapted sink.name sink.typedConfig :: (← passthroughSinks sinks (i + 1))

/-- `statsSinks`. -/
def statsSinks (st : Stats) (label backend : String) : Except String (List StatsSink) := do
  let first := statsPrefix st.metricPrefix label
  let emitted := if backend = "" then first else first ++ "." ++ backend
  return (← statsdSinks st emitted) ++ (← passthroughSinks st.sinks 0)

/-- `applyStats`. -/
def applyStats (st : Stats) (label : String) (o : CommandLineOptions) :
    Except String CommandLineOptions := do
  let sinks ← statsSinks st label ""
  return { o with
    statsSinks := o.statsSinks ++ sinks
    statsFlushInterval := match st.flushInterval with
      | some d => some (.duration d.toDuration)
      | none => o.statsFlushInterval }

/-- Append underscores until the name is free; `fuel` bounds how many it can take. -/
def freeName (used : List String) (candidate : String) : Nat → String
  | 0 => candidate
  | fuel + 1 =>
    if used.contains candidate then freeName used (candidate ++ "_") fuel else candidate

/-- The last step of `backendSegments`, from the `i`-th name on. -/
def disambiguate (unique : String → Bool) (used : List String) : List String → Nat → List String
  | [], _ => []
  | name :: names, i =>
    if unique name then name :: disambiguate unique used names (i + 1)
    else
      let free := freeName used (name ++ "_b" ++ toString i) (used.length + 1)
      free :: disambiguate unique (free :: used) names (i + 1)

/-- `backendSegments`. -/
def backendSegments (addrs : List String) : List String :=
  let sanitize (s : String) : String := Text.join "_" (statsLabel s)
  let hosts := addrs.map fun a => match Text.splitHostPort a with
    | .ok (host, _) => sanitize host
    | .error _ => sanitize a
  let named := (addrs.zip hosts).map fun (a, host) =>
    if 1 < hosts.count host then sanitize a else host
  let unique (name : String) : Bool := named.count name == 1 && name != ""
  disambiguate unique (named.filter unique) named 0

/-- `backendComponents`; an execution without a stats block gets none. -/
def backendComponents (stats : Option Stats) (addrs : List String) (n : Nat) : List String :=
  match stats with
  | none => []
  | some st =>
    if st.backend = statsBackendName then List.replicate n statsBackendToken
    else if n = addrs.length then backendSegments addrs
    else []

/-- `restat`: the stats block's sinks are the last ones of the list. -/
def restat (st : Stats) (label backend : String) (o : CommandLineOptions) :
    Except String CommandLineOptions := do
  let sinks ← (statsSinks st label backend).mapError
    (("execution " ++ Text.quote label ++ ": ") ++ ·)
  if o.statsSinks.length < sinks.length then
    throw ("execution " ++ Text.quote label ++ ": its options carry "
      ++ toString o.statsSinks.length ++ " stats sinks, fewer than the "
      ++ toString sinks.length ++ " its stats block compiles to")
  return { o with statsSinks := o.statsSinks.take (o.statsSinks.length - sinks.length) ++ sinks }

/-- The options with the components their sinks are given, in order. -/
def restatEach (st : Stats) (label : String) :
    List String → List CommandLineOptions → Except String (List CommandLineOptions)
  | component :: components, o :: opts => do
    return (← restat st label component o) :: (← restatEach st label components opts)
  | _, opts => .ok opts

/-- `restatAll`. -/
def restatAll (stats : Option Stats) (label : String) (addrs : List String)
    (opts : List CommandLineOptions) : Except String (List CommandLineOptions) :=
  match stats with
  | none => .ok opts
  | some st => restatEach st label (backendComponents (some st) addrs opts.length) opts

end Sortie.Compile
