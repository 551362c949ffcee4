import Sortie.Compile.Options

/-!
# Executions, and the options each backend of a pool receives

The rest of internal/compile/compile.go: a scenario expands into executions, one per
target and stage, and an execution's rate is divided over the backends of a pool. A
division by zero is a panic in Go and a `Failure.panic` here.
-/

namespace Sortie

open Proto Api Plan

/-- A single Nighthawk run. -/
structure Execution where
  /-- the scenario it came from, with its weighted targets -/
  scenario : Scenario
  label : String
  /-- counted from 1, and 0 for an execution that is no stage -/
  stage : Nat := 0
  /-- names the executions that run at the same time; empty for one that runs alone -/
  group : String := ""
  target : Option Target := none
  stats : Option Stats := none
  rate : UInt32
  perBackend : Bool
  duration : Span
  rampTime : Span := 0
  options : CommandLineOptions
  deriving Repr

namespace Compile

variable {F : Type}

/-- A Go error as the failure of a call. -/
def orFail {α : Type} (x : Except String α) : Except Failure α := x.mapError Failure.error

/-- `GetDuration().AsDuration()`: an absent duration is zero. -/
def asDuration (d : Option ParsedDuration) : Span := (d.map fun d => d.asDuration).getD 0

/-! ## Expanding a scenario -/

/-- An execution at one rate for one duration: what every executor type comes down to. -/
def single (go : Go F) (s : Scenario) (e : Executor) (label : String) (stage : Nat)
    (rate : UInt32) (dur ramp : Span) : Except Failure Execution := do
  let opts ← orFail (options go s rate dur ramp label)
  return { scenario := s, label, stage, rate, perBackend := e.perBackend, duration := dur,
           rampTime := ramp, options := opts }

/-- The stages of a staircase, from the `i`-th on. -/
def stages (go : Go F) (s : Scenario) (e : Executor) :
    List Stage → Nat → Except Failure (List Execution)
  | [], _ => .ok []
  | st :: rest, i => do
    let execution ← single go s e (stageLabel s.name (i + 1)) (i + 1) st.rate
      (asDuration st.duration) 0
    return execution :: (← stages go s e rest (i + 1))

/-- `expandOne`. -/
def expandOne (go : Go F) (s : Scenario) : Except Failure (List Execution) :=
  match s.executor with
  | none => .error (.panic "invalid memory address or nil pointer dereference")
  | some e =>
    if e.type = constantRate then do
      return [← single go s e s.name 0 e.rate (asDuration e.duration) 0]
    else if e.type = rampingRate then do
      return [← single go s e s.name 0 e.rate (asDuration e.duration) (asDuration e.rampTime)]
    else if e.type = staircase then stages go s e e.stages 0
    else .error (.error ("scenario " ++ Text.quote s.name ++ ": unknown executor type "
      ++ Text.quote e.type))

/-- An execution of one target, as part of the scenario it belongs to. -/
def ofTarget (s : Scenario) (t : Target) (e : Execution) : Execution :=
  { e with
    scenario := s
    target := some t
    group := if 0 < e.stage then stageLabel s.name e.stage else s.name }

/-- The executions of a scenario's targets, target by target. -/
def expandTargets (go : Go F) (s : Scenario) : List Target → Except Failure (List Execution)
  | [] => .ok []
  | t :: ts => do
    let execs ← expandOne go (variant s t)
    return execs.map (ofTarget s t) ++ (← expandTargets go s ts)

/-- Stage-major order, so that the executions of a group are adjacent. -/
def byStage (execs : List Execution) : List Execution :=
  let last := (execs.map Execution.stage).foldl max 0
  if last = 0 then execs
  else (List.range last).flatMap fun st => execs.filter fun e => e.stage == st + 1

/-- `expand`. -/
def expandScenario (go : Go F) (s : Scenario) : Except Failure (List Execution) :=
  if s.targets.isEmpty then expandOne go s
  else do return byStage (← expandTargets go s s.targets)

/-- `Expand`. -/
def expand (go : Go F) (s : Scenario) : Except Failure (List Execution) := do
  return (← expandScenario go s).map fun e => { e with stats := s.stats }

/-! ## Dividing a rate -/

/-- `aggregateRate`. -/
def aggregateRate (s : Scenario) : Bool :=
  (s.grpc.any fun g => g.mode == "bidi-stream") || s.websocket.isSome

/-- `backendRate`. -/
def backendRate (e : Execution) (perWorkerShare : UInt32) (workers : Nat) : UInt32 :=
  if aggregateRate e.scenario then perWorkerShare * UInt32.ofNat workers else perWorkerShare

/-- An error about an execution. -/
def executionError {α : Type} (e : Execution) (text : String) : Except Failure α :=
  .error (.error ("execution " ++ Text.quote e.label ++ ": " ++ text))

def divideByZero {α : Type} : Except Failure α :=
  .error (.panic "runtime error: integer divide by zero")

/-- The workers an execution's rate is divided over. -/
def workersOf (e : Execution) : Except Failure Nat :=
  match workersPerBackend e.scenario with
  | .ok n => .ok n
  | .error text => executionError e text

/-- `perBackendShare`. -/
def perBackendShare (e : Execution) (workers : Nat) : Except Failure UInt32 :=
  if e.rate % UInt32.ofNat workers ≠ 0 then
    executionError e ("per-backend rate " ++ toString e.rate.toNat ++ " is not divisible by "
      ++ toString workers ++ " workers; use a rate that is a multiple of " ++ toString workers
      ++ ", or set a different concurrency")
  else .ok (e.rate / UInt32.ofNat workers)

/-- The share of every worker of backend `i`, when the pool divides the rate. -/
def poolShare (e : Execution) (workers backends : Nat) : Except Failure (Nat → UInt32) :=
  if e.rate % UInt32.ofNat workers ≠ 0 then
    executionError e ("rate " ++ toString e.rate.toNat ++ " is not divisible by "
      ++ toString workers ++ " workers per backend; use a rate that is a multiple of "
      ++ toString workers ++ ", or set a different concurrency")
  else
    let perBackendTotal := e.rate / UInt32.ofNat workers
    let n := UInt32.ofNat backends
    if perBackendTotal < n then
      executionError e ("rate " ++ toString e.rate.toNat ++ " over " ++ toString backends
        ++ " backends x " ++ toString workers ++ " workers leaves less than 1 rps per worker")
    else if n = 0 then divideByZero
    else
      let base := perBackendTotal / n
      let remainder := perBackendTotal % n
      .ok fun i => if UInt32.ofNat i < remainder then base + 1 else base

/-- The options of an execution at one rate. -/
def atRate (e : Execution) (rate : UInt32) : CommandLineOptions :=
  { e.options with requestsPerSecond := some rate }

/-- The options of backend `i`: its own execution id when there are several. -/
def backendOptions (e : Execution) (backends : Nat) (rate : UInt32) (i : Nat) :
    CommandLineOptions :=
  { atRate e rate with
    executionId :=
      if 1 < backends then some (e.label ++ "#" ++ toString i) else e.options.executionId }

/-- The share of every worker of backend `i`. -/
def shareOf (e : Execution) (workers backends : Nat) : Except Failure (Nat → UInt32) :=
  if e.perBackend then (perBackendShare e workers).map fun each _ => each
  else poolShare e workers backends

/-- `Divide`. -/
def divide (e : Execution) (backends : Nat) : Except Failure (List CommandLineOptions) :=
  if backends = 0 then executionError e "pool has no backends"
  else do
    let workers ← workersOf e
    let share ← shareOf e workers backends
    return (List.range backends).map fun i =>
      backendOptions e backends (backendRate e (share i) workers) i

/-- `uniformShare`: one request for every target of a distributor. -/
def uniformShare (e : Execution) (targets : Nat) : Except Failure CommandLineOptions :=
  if targets = 0 then executionError e "pool has no targets"
  else do
    let workers ← workersOf e
    if e.perBackend then
      return atRate e (backendRate e (← perBackendShare e workers) workers)
    let divisor := UInt32.ofNat targets * UInt32.ofNat workers
    if divisor = 0 then divideByZero
    else if e.rate % divisor ≠ 0 then
      executionError e ("rate " ++ toString e.rate.toNat ++ " is not divisible by "
        ++ toString targets ++ " targets x " ++ toString workers ++ " workers; "
        ++ "a distributor sends every target the same options, so the rate must be "
        ++ "a multiple of " ++ toString divisor.toNat)
    else return atRate e (backendRate e (e.rate / divisor) workers)

/-! ## The options of a pool -/

/-- `Unresolved`. -/
def unresolved (pool : Pool) : Bool := pool.dns != "" && pool.services.isEmpty

/-- `ForPool`: the backends of an execution and the options each of them receives. -/
def forPool (e : Execution) (pool : Pool) :
    Except Failure (List String × List CommandLineOptions) := do
  if pool.distributor ≠ "" then
    let opts ← uniformShare e pool.targets.length
    return (pool.targets, ← orFail (restatAll e.stats e.label pool.targets [opts]))
  else if unresolved pool then
    let opts ← divide e 1
    return ([pool.dns], ← orFail (restatAll e.stats e.label [] opts))
  else
    let opts ← divide e pool.services.length
    return (pool.services, ← orFail (restatAll e.stats e.label pool.services opts))

end Compile

end Sortie
