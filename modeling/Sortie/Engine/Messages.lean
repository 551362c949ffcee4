import Sortie.Engine.BackendName
import Sortie.Engine.OptionsImpl
import Sortie.Engine.Service

/-!
# What the messages of a stream carry

The service in `Engine.Service` leaves open how the calls on the way to a Process
return. Here the start that was read decides it: `handleExecutionRequest`
(engine/source/client/service_impl.cc) expands the backend's name in the options it was
given and builds an `OptionsImpl` from them.

`Served` is the service together with the messages its streams read last, the starts
its executions were accepted for, and the two ways in which a message can take the
whole service down while it is read or turned into options.
-/

namespace Sortie.Engine.ServiceImpl

open Proto Api

/-- A service's own settings, and what is outside of it. -/
structure Config where
  /-- `max_concurrent_executions_` -/
  maxConcurrentExecutions : UInt32
  /-- `backend_name_`, empty when the service has none -/
  backendName : String
  /-- `service_verbosity_` -/
  serviceVerbosity : Verbosity
  outside : Outside

/-- `StartRequest`. -/
structure StartRequest where
  options : CommandLineOptions
  progressInterval : Option Duration := none

/-- An `ExecutionRequest`, by the command it carries. -/
inductive Message where
  | start (r : StartRequest)
  | cancellation
  | update
  | empty

/-- What `ExecutionStream` branches on. -/
def Message.request : Message → Request
  | .start _ => .start
  | .cancellation => .cancellation
  | .update => .update
  | .empty => .empty

namespace Config

variable (c : Config)

/-- The options of a start as they are built from: the level of the log is the service's own. -/
def requested (o : CommandLineOptions) : CommandLineOptions :=
  if 1 < c.maxConcurrentExecutions then { o with verbosity := some c.serviceVerbosity } else o

/--
How the calls on the way to a Process return for a start; `process` is how the last of
them does. Nothing when an empty optional is dereferenced.
-/
def setup (r : StartRequest) (process : Call) : Option Setup :=
  let calls (backendName options : Call) : Setup :=
    { backendName, options, progressInterval := r.progressInterval, process }
  match expandBackendName c.backendName (c.requested r.options) with
  | .error text => some (calls (.failed text) .returned)
  | .ok o =>
    match OptionsImpl.construct c.outside o with
    | .ok _ => some (calls .returned .returned)
    | .error (.malformed text) => some (calls .returned (.failed text))
    | .error (.threw _) => some (calls .returned .threw)
    | .error .emptyOptional => none

end Config

/-- How a message took the service down. -/
inductive Down where
  /-- `PANIC("not reached")` -/
  | panic
  /-- an optional without a value was dereferenced -/
  | emptyOptional
  deriving DecidableEq, Repr

structure Served where
  service : Service := {}
  /-- the message each stream read last -/
  last : Nat → Option Message := fun _ => none
  /-- what each execution was accepted for -/
  starts : List StartRequest := []
  /-- how the calls on the way to a Process returned, for each execution that made them -/
  setups : Nat → Option Setup := fun _ => none
  down : Option Down := none

/-- The next thing a thread does. -/
inductive MessageEvent where
  | read (s : Nat) (m : Message)
  | endOfStream (s : Nat)
  | claimSlot (s : Nat)
  /-- the calls on the way to a Process, of which the last one returns like this -/
  | setup (k : Nat) (process : Call)
  /-- anything else -/
  | other (e : Event)

/-- The events whose course a message decides. -/
def Event.carriesMessage : Event → Bool
  | .read .. | .claimSlot _ | .thread _ (.setup _) => true
  | _ => false

namespace Served

variable (c : Config) (w : Served)

/-- The service goes on. -/
def advance (e : Event) : Option Served :=
  (w.service.step c.maxConcurrentExecutions e).map fun service => { w with service }

/-- The thread of execution `k` is about to read its start. -/
def atSetup (k : Nat) : Bool :=
  !w.service.crashed && w.service.executions[k]?.any (·.pc == .setup)

/-- The next step of the service. -/
def step : MessageEvent → Option Served
  | .read s m => do
    let v ← w.advance c (.read s m.request)
    return { v with
      last := Function.update w.last s (some m)
      down := match m with
        | .empty => some .panic
        | _ => w.down }
  | .endOfStream s => do
    let v ← w.advance c (.read s .endOfStream)
    return { v with last := Function.update w.last s none }
  | .claimSlot s =>
    match w.last s with
    | some (.start r) => do
      let v ← w.advance c (.claimSlot s)
      return { v with
        starts :=
          if c.maxConcurrentExecutions ≤ w.service.active then w.starts else w.starts ++ [r] }
    | _ => none
  | .setup k process => do
    let r ← w.starts[k]?
    match c.setup r process with
    | some calls => do
      let v ← w.advance c (.thread k (.setup calls))
      return { v with setups := Function.update w.setups k (some calls) }
    | none =>
      if w.atSetup k then
        some { w with service := { w.service with crashed := true }, down := some .emptyOptional }
      else none
  | .other e => if e.carriesMessage then none else w.advance c e

/-- The events `es` lead from `w` to `w'`. -/
abbrev Leads (w : Served) (es : List MessageEvent) (w' : Served) : Prop :=
  Lts.Run (fun a e b => step c a e = some b) w es w'

/-- The events `es` lead from the start of the service to `w`. -/
abbrev Reaches (es : List MessageEvent) (w : Served) : Prop := Leads c {} es w

end Served

end Sortie.Engine.ServiceImpl
