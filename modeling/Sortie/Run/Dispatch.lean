import Sortie.Compile.Execution
import Sortie.Nh.Distributor
import Sortie.Run.Report

/-!
# Dispatching an execution

`dispatch` and `runExecution` of internal/run/run.go. What the outside decides is an
`Observed`: how every exchange with a backend ended, what the two contexts looked
like when an error was rewritten, and what the stage's context looked like when the
results were taken up. The functions of the source are functions of it, so a
statement about all observations covers every behaviour of the network, of the
backends and of the clock.
-/

namespace Sortie.Run

open Proto Api Nh

variable {F : Type}

/-- `Runner`, by what decides anything here. -/
structure Runner where
  plan : Plan
  /-- whether there is an `Observer` -/
  observer : Bool := false
  responseGrace : Span := 0
  deriving Repr

/-! ## How long a backend has -/

def responseGrace : Span := Span.ofSeconds 120
def engineTimeout : Span := Span.ofSeconds 30
def engineDrain : Span := Span.ofSeconds 1

/-- `addDuration`: a sum that saturates instead of wrapping. -/
def addDuration (a b : Span) : Span :=
  if b ≤ 0 then a
  else if Span.max.ns - b.ns < a.ns then Span.max
  else Span.clamp (a.ns + b.ns)

/-- The waits at the end of a run that the options set, or else the engine's longest default. -/
def drainWindows (o : CommandLineOptions) : List Span :=
  let set := [o.grpcStream.bind GrpcStreamOptions.drainDuration,
    o.websocket.bind WebSocketOptions.drainDuration, o.tcp.bind TcpOptions.drainDuration,
    o.udp.bind UdpOptions.timeout].filterMap fun d => d.map Duration.asDuration
  if set.isEmpty then [engineDrain] else set

/-- `backendDeadline`. -/
def Runner.backendDeadline (r : Runner) (e : Execution) : Span :=
  let grace := if r.responseGrace ≤ 0 then Run.responseGrace else r.responseGrace
  let timeout := (e.options.timeout.map Duration.asDuration).getD engineTimeout
  addDuration ((drainWindows e.options).foldl addDuration (addDuration e.duration timeout)) grace

/-- `time.Until` of a moment, at the wall clock `now` in nanoseconds. -/
def untilTime (now : Int) (t : Timestamp) : Span := Span.clamp (t.seconds * second + t.nanos - now)

/-- How long an answer is waited for: a scheduled start comes on top. -/
def Runner.budget (r : Runner) (e : Execution) (now : Int) : Span :=
  match e.options.scheduledStart with
  | some start => addDuration (r.backendDeadline e) (untilTime now start)
  | none => r.backendDeadline e

/-! ## Failed backends -/

/-- What the two contexts of a dispatch looked like when an error was rewritten. -/
structure Seen where
  /-- the deadline for the answers had passed -/
  deadlinePassed : Bool := false
  /-- the stage's context had ended -/
  callerEnded : Bool := false
  deriving DecidableEq, Repr

/-- `silent`: the error of a backend the deadline gave up on says so. -/
def silent (go : Go F) (e : Execution) (budget : Span) (seen : Seen) (err : GoError) : GoError :=
  let ctxEnded := seen.deadlinePassed || seen.callerEnded
  let expired := err.isDeadlineExceeded || err.code == Code.deadlineExceeded
    || (ctxEnded && err.code == Code.canceled)
  if seen.callerEnded || !expired then err
  else .wrap ("no result " ++ go.formatSpan budget ++ " after dispatch, for an execution planned "
    ++ "to last " ++ go.formatSpan e.duration
    ++ ": the backend went silent or is far behind (") err ")"

/-- `Round(time.Millisecond)`: half a millisecond rounds away from zero. -/
def roundMillis (d : Span) : Span :=
  let m := 1000000
  let r := d.ns.natAbs % m
  let up : Int := if 2 * r < m then -r else m - r
  Span.clamp (if d.ns < 0 then d.ns - up else d.ns + up)

/-- The failure of a backend that reports a run far longer than the plan's. -/
def stalled (go : Go F) (e : Execution) (addr : String) (took : Span) : BackendError :=
  ⟨addr, .message ("reported an execution of " ++ go.formatSpan (roundMillis took)
    ++ " for one planned to last " ++ go.formatSpan e.duration
    ++ ": it stalled, and its results are not those of the plan")⟩

/-- `overdue`: the backends, of those that have not failed, whose own account is too long. -/
def overdue (go : Go F) (e : Execution) (budget : Span) (outputs : List (String × Output F))
    (failed : List BackendError) : List BackendError :=
  (outputs.filter fun (addr, _) => !failed.any fun f => f.addr == addr).flatMap fun (addr, o) =>
    (o.results.filter fun res => res.name == "global" && decide (budget < res.took)).map
      fun res => stalled go e addr res.took

/-! ## Dispatching -/

/-- How the exchange with one backend ended. -/
inductive Exchange (F : Type) where
  /-- it could not be reached -/
  | unreachable (err : GoError)
  /-- `Execute` returned, with the output of its response and its error -/
  | executed (out : Option (Output F)) (err : Option GoError)
  deriving DecidableEq, Repr

/-- The refusal an exchange ended with. -/
def Exchange.refusal : Exchange F → Option BusyError
  | .unreachable _ => none
  | .executed _ err => err.bind GoError.asBusy

/-- An exchange and what the contexts looked like at its end. -/
structure Slot (F : Type) where
  exchange : Exchange F
  seen : Seen := {}
  deriving DecidableEq, Repr

/-- What a backend's goroutine leaves behind: an error, an output, or both. -/
def Slot.leaves (go : Go F) (e : Execution) (budget : Span) (s : Slot F) :
    Option GoError × Option (Output F) :=
  match s.exchange with
  | .unreachable err => (some (silent go e budget s.seen err), none)
  | .executed out err =>
    match withResults out with
    | some o => (err.map (silent go e budget s.seen), some o)
    | none => (some ((err.map (silent go e budget s.seen)).getD (.message "returned no results")),
        none)

/-- What `dispatch` returns: each backend's output, and the backends that failed. -/
structure Dispatched (F : Type) where
  answers : List (String × Option (Output F))
  failed : List BackendError
  deriving Repr

/-- The outputs that are there, under their addresses. -/
def present (answers : List (String × Option (Output F))) : List (String × Output F) :=
  answers.filterMap fun (addr, out) => out.map fun o => (addr, o)

/-- The backends of a pool of services, each on its own. -/
def dispatchServices (go : Go F) (e : Execution) (runBound budget : Span) (addrs : List String)
    (slots : Nat → Slot F) : Dispatched F :=
  let left := addrs.zipIdx.map fun (addr, i) => (addr, (slots i).leaves go e budget)
  let failed := left.filterMap fun (addr, err, _) => err.map (BackendError.mk addr)
  let answers := left.map fun (addr, _, out) => (addr, out)
  { answers, failed := failed ++ overdue go e runBound (present answers) failed }

/-- The targets of a distributor, from what it handed back. -/
def dispatchTargets (go : Go F) (e : Execution) (runBound budget : Span) (d : Distributed F)
    (seen : Nat → Seen) : Dispatched F :=
  let failed := d.failed.zipIdx.map fun (b, i) =>
    BackendError.mk b.target (silent go e budget (seen i) b.err)
  { answers := d.outputs.map fun (name, out) => (name, some out)
    failed := failed ++ overdue go e runBound d.outputs failed }

/-- Why a context has ended: `context.Cause`. -/
inductive Cause where
  /-- a backend refused a start -/
  | cap (e : CapError)
  /-- the caller's context ended -/
  | parent (e : CtxErr)
  deriving DecidableEq, Repr

/-- `ctx.Err()` of a context that has ended. -/
def Cause.err : Cause → CtxErr
  | .cap _ => .canceled
  | .parent e => e

/--
What the stage's context looked like when the results were taken up. `runExecution`
reads its cause and then its error, and it may end between the two.
-/
inductive Taken where
  | alive
  | endedBetween (cause : Cause)
  | ended (cause : Cause)
  deriving DecidableEq, Repr

/-- `context.Cause(ctx)`. -/
def Taken.cause : Taken → Option Cause
  | .ended cause => some cause
  | _ => none

/-- `ctx.Err()`. -/
def Taken.err : Taken → Option CtxErr
  | .alive => none
  | .endedBetween cause | .ended cause => some cause.err

/-- What the outside decided about one execution. -/
structure Observed (F : Type) where
  /-- the wall clock at the dispatch -/
  now : Int := 0
  /-- how the exchange with the `i`-th service ended -/
  slots : Nat → Slot F := fun _ => { exchange := .executed none none }
  /-- the error of connecting to the distributor -/
  dial : Option GoError := none
  conversation : Conversation F := {}
  /-- the contexts, when the error of the `i`-th failed target was rewritten -/
  seen : Nat → Seen := fun _ => {}
  taken : Taken := .alive

/-- How `dispatch` ends when it returns no results. -/
inductive Undispatched where
  | panic (text : String)
  | error (e : RunError)
  deriving DecidableEq, Repr

/-- `dispatch`. -/
def dispatch (r : Runner) (go : Go F) (e : Execution) (pool : Pool) (o : Observed F) :
    Except Undispatched (Dispatched F) :=
  match Compile.forPool e pool with
  | .error (.panic text) => .error (.panic text)
  | .error (.error text) => .error (.error (.message text))
  | .ok (addrs, _) =>
    let runBound := r.backendDeadline e
    let budget := r.budget e o.now
    if pool.distributor ≠ "" then
      match o.dial with
      | some err => .error (.error (.distributor err))
      | none => match distributePartial pool.targets o.conversation with
        | .error err => .error (.error (.distributor err))
        | .ok d => .ok (dispatchTargets go e runBound budget d o.seen)
    else .ok (dispatchServices go e runBound budget addrs o.slots)

/-! ## The report of an execution -/

/-- The backends an execution is meant for. -/
def backendsOf (pool : Pool) : List String :=
  if pool.distributor ≠ "" then pool.targets else pool.services

/-- A report that says what was planned and where, and nothing else. -/
def planned (e : Execution) (pool : Pool) : ExecutionReport F where
  label := e.label
  scenario := e.scenario.name
  pool := pool.name
  rate := e.rate
  perBackend := e.perBackend
  duration := e.duration
  rampTime := e.rampTime
  backends := backendsOf pool
  dns := pool.dns

/-- Judging what came back. -/
def judged (go : Go F) (ths : List (Threshold F)) (d : Dispatched F) (er : ExecutionReport F) :
    ExecutionReport F :=
  let got := present d.answers
  if got.isEmpty then
    { er with err := some (if d.failed.isEmpty then .message "no backend returned a result"
        else .backends d.failed) }
  else match ResultSet.newSet (got.map Prod.fst) (got.map Prod.snd) with
    | .error text => { er with err := some (.message text) }
    | .ok set =>
      let (outcomes, pass) := set.evaluate go ths
      -- a run that lost a backend is no pass, whatever the survivors measured
      { er with set := some set, outcomes, pass := pass && d.failed.isEmpty }

/-- The report, once the results have been taken up. -/
def takeUp (go : Go F) (ths : List (Threshold F)) (d : Dispatched F) (taken : Taken)
    (er : ExecutionReport F) : ExecutionReport F :=
  match taken.cause with
  | some (.cap c) =>
    -- only the backends that refused are worth naming
    { er with backendErrors := d.failed.filter BackendError.isRefusal, err := some (.cap c) }
  | _ => match taken.err with
    | some err => { er with backendErrors := d.failed, err := some (.cancelled err) }
    | none => judged go ths d { er with backendErrors := d.failed }

/-- `runExecution`, or nothing when it panics. -/
def runExecution (r : Runner) (go : Go F) (e : Execution) (pool : Pool) (ths : List (Threshold F))
    (o : Observed F) : Option (ExecutionReport F) :=
  match dispatch r go e pool o with
  | .error (.panic _) => none
  | .error (.error err) => some { planned e pool with err := some err }
  | .ok d => some (takeUp go ths d o.taken (planned e pool))

end Sortie.Run
