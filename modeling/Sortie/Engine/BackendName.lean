import Sortie.Api.Options

/-!
# The name of a backend in the prefixes of its stats sinks

engine/source/client/backend_name.cc. The prefix of a statsd sink may hold a
placeholder for the name of the service that runs the execution; the service replaces
it before it builds the options.
-/

namespace Sortie.Engine

open Api

/-- `BackendNameToken`. -/
def backendNameToken : String := "%BACKEND%"

/-- The loop of `sanitizeBackendName`: `pending` remembers a run of other characters. -/
def keepName (pending : Bool) (out : List Char) : List Char → List Char
  | [] => out
  | lower :: rest =>
    if ('a' ≤ lower ∧ lower ≤ 'z') ∨ ('0' ≤ lower ∧ lower ≤ '9') ∨ lower = '_' then
      keepName false ((if pending && !out.isEmpty then out ++ ['_'] else out) ++ [lower]) rest
    else keepName true out rest

/-- `sanitizeBackendName`. -/
def sanitizeBackendName (name : String) : String :=
  String.ofList (keepName false [] (Text.asciiLower name).toList)

/-- A prefix with the token replaced: nothing when there is no token, an error when there is no
name. -/
def expandPrefix (backendName metricPrefix : String) : Except String (Option String) :=
  if (Text.cut metricPrefix backendNameToken).isNone then .ok none
  else if backendName = "" then
    .error ("a stats sink's prefix (" ++ metricPrefix ++ ") names this backend with "
      ++ backendNameToken ++ ", and this service has no name: start nighthawk_service with "
      ++ "--backend-name")
  else .ok (some (Text.replaceAll metricPrefix backendNameToken backendName))

/-- `expandIn`, for the two sinks it is called with: the configuration it leaves. -/
def expandIn (backendName : String) : TypedConfig → Except String TypedConfig
  | .statsd sink =>
    (expandPrefix backendName sink.metricPrefix).map fun expanded =>
      .statsd { sink with metricPrefix := expanded.getD sink.metricPrefix }
  | .dogStatsd address metricPrefix =>
    (expandPrefix backendName metricPrefix).map fun expanded =>
      .dogStatsd address (expanded.getD metricPrefix)
  | config => .ok config

/-- What `expandBackendName` does to one sink. -/
def expandSink (backendName : String) (outer : StatsSink) : Except String StatsSink :=
  match outer.typedConfig with
  | some (.envoyStatsSinkAdapter name (some inner)) =>
    (expandIn backendName inner).map fun config =>
      { outer with typedConfig := some (.envoyStatsSinkAdapter name (some config)) }
  | _ => .ok outer

/-- `expandBackendName`: the options with every prefix expanded, or the text of its status. -/
def expandBackendName (backendName : String) (options : CommandLineOptions) :
    Except String CommandLineOptions := do
  return { options with statsSinks := ← options.statsSinks.mapM (expandSink backendName) }

/-- The loop of `expandBackendName`: the sinks as it leaves them, also where it stops, and its
status. -/
def expandSinks (backendName : String) : List StatsSink → List StatsSink × Except String Unit
  | [] => ([], .ok ())
  | outer :: sinks =>
    match expandSink backendName outer with
    | .error status => (outer :: sinks, .error status)
    | .ok outer =>
      let (rest, status) := expandSinks backendName sinks
      (outer :: rest, status)

/-- `expandBackendName` with the options it was given as it leaves them. -/
def expandInPlace (backendName : String) (options : CommandLineOptions) :
    CommandLineOptions × Except String Unit :=
  let (sinks, status) := expandSinks backendName options.statsSinks
  ({ options with statsSinks := sinks }, status)

end Sortie.Engine
