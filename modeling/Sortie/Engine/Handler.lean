import Sortie.Lib.Duration

/-!
# The thread that runs an execution

`ServiceImpl::handleExecutionRequest` (engine/source/client/service_impl.cc), the
progress thread it starts, and the part of `ProcessImpl` whose state decides how the
thread ends. A block under a lock is one action, and so is everything a thread does
between two such blocks. A write on the stream is two actions, its beginning and its
end, so that other threads can act while it is under way.

What the thread cannot decide is part of the action: how a call of it returned. A
call that throws starts the unwinding, which runs the destructors of the locals in
the reverse of their declaration:

    progress thread stopped and joined, Process unpublished, Process destroyed, slot released

while the way of an answer is

    progress thread stopped and joined, shutdown(), Process unpublished, slot released, response
    written, Process destroyed

`~ProcessImpl` aborts the service when `shutdown_` is false.
-/

namespace Sortie.Engine.ServiceImpl

open Proto

inductive StatusCode where
  | ok | invalidArgument | internal | resourceExhausted
  deriving DecidableEq, Repr

/-- The `error_detail` of a response. -/
structure ErrorDetail where
  code : StatusCode
  message : String
  deriving DecidableEq, Repr

/-- A response on a stream; one without progress is final. -/
inductive Response where
  | progress
  | final (error : Option ErrorDetail)
  deriving DecidableEq, Repr

def Response.isFinal : Response → Bool
  | .final _ => true
  | .progress => false

/-! ## Up to the Process -/

/-- How a call returned: `failed` is a status, or the exception its caller catches. -/
inductive Call where
  | returned
  | failed (text : String)
  | threw
  deriving DecidableEq, Repr

/-- The calls on the way to a Process, and the interval the request asks for. -/
structure Setup where
  /-- `expandBackendName` -/
  backendName : Call := .returned
  /-- the constructor of `OptionsImpl`; it fails with a `MalformedArgvException` -/
  options : Call := .returned
  progressInterval : Option Duration := none
  /-- the resolver factory and `CreateProcessImpl` -/
  process : Call := .returned
  deriving Repr

/-- Where the setup leads. -/
inductive Prepared where
  | answer (error : ErrorDetail)
  | unwind
  /-- a Process, and the period of the progress timer in milliseconds, 0 for none -/
  | process (interval : Int)
  deriving DecidableEq, Repr

/-- Arithmetic on `int64_t`. -/
def toInt64 (n : Int) : Int := n.bmod (2 ^ 64)

/-- The progress interval in milliseconds, rounded up; nothing when it is too short. -/
def progressMillis : Option Duration → Option Int
  | none => some 0
  | some d =>
    let nanos := toInt64 (d.seconds * 1000000000 + d.nanos)
    if nanos < 1000000 then none else some ((toInt64 (nanos + 999999)).tdiv 1000000)

/-- `handleExecutionRequest` up to the Process. -/
def prepare (c : Setup) : Prepared :=
  match c.backendName with
  | .threw => .unwind
  | .failed text => .answer { code := .invalidArgument, message := text }
  | .returned =>
    match c.options with
    | .threw => .unwind
    | .failed text => .answer { code := .internal, message := text }
    | .returned =>
      match progressMillis c.progressInterval with
      | none => .answer
        { code := .invalidArgument
          message :=
            "progress_interval must be at least 1ms (it is the period of the progress timer)" }
      | some interval =>
        match c.process with
        | .threw => .unwind
        | .failed text => .answer
          { code := .internal, message := "Unable to create ProcessImpl: " ++ text }
        | .returned => .process interval

/-- The error of a run that returned false. -/
def unknownFailure : ErrorDetail where
  code := .internal
  message :=
    "Unknown failure. See Nighthawk Service logs. Make sure the URI is well formed and the DNS "
    ++ "name resolves (if applicable). Check the output for problematic counter values. The "
    ++ "default Nighthawk failure predicates report failure if (1) Nighthawk could not connect to "
    ++ "the target (see 'benchmark.pool_connection_failure' counter; check the address and port "
    ++ "number, and try explicitly setting --address-family v4 or v6, especially when using DNS; "
    ++ "instead of localhost try 127.0.0.1 or ::1 explicitly), (2) the protocol was not supported "
    ++ "by the target (see 'benchmark.stream_resets' counter; check http/https in the URI, --h2), "
    ++ "(3) the target returned a 4xx or 5xx HTTP response code (see 'benchmark.http_4xx' and "
    ++ "'benchmark.http_5xx' counters; check the URI path and the server config), or (4) a custom "
    ++ "gRPC RequestSource failed. To relax expectations, set explicit failure predicates in the "
    ++ "benchmark request."

/-! ## The state of an execution -/

/-- The state of a `ProcessImpl`. -/
structure Process where
  /-- `shutdown_` -/
  shutdown : Bool := true
  /-- `cancelled_` -/
  cancelled : Bool := false
  /-- `workers_running_` -/
  workersRunning : Bool := false
  destroyed : Bool := false
  deriving DecidableEq, Repr

/-- The way a thread leaves `handleExecutionRequest`. -/
inductive Tail where
  | answer
  | unwind
  deriving DecidableEq, Repr

/-- Where the thread is: what it does next. -/
inductive Pc where
  /-- the slot is taken, the thread does not exist yet -/
  | created
  /-- the thread could not be created and the slot was given back -/
  | gaveBack
  | setup
  | publish
  | startProgress
  /-- `Process::run`, before its workers -/
  | run
  /-- `Process::run`, until it returns -/
  | running
  | stopProgress (t : Tail)
  | joinProgress (t : Tail)
  /-- `toProto` and `shutdown` -/
  | finish
  | unpublish (t : Tail)
  /-- the release in `write_final` -/
  | release
  | markDone (t : Tail)
  | write
  | writing
  | destroy (t : Tail)
  /-- the release on the way out -/
  | exit (t : Tail)
  | ended (t : Tail)
  deriving DecidableEq, Repr

/-- Where the progress thread is. It holds `progress_lock` unless it waits or is gone. -/
inductive ProgressPc where
  | absent
  | waiting
  | awake
  | writing
  | finished
  deriving DecidableEq, Repr

/-- What became of a cancellation once the stream's thread acted on it. -/
inductive Fate where
  /-- the Process was published and was called -/
  | called
  /-- left in `cancel_requested`; `published` tells whether there had been a Process already -/
  | noted (published : Bool)
  /-- the execution was done -/
  | late
  deriving DecidableEq, Repr

/-- An execution: `ServiceImpl::Execution`, the locals of its thread, and what happened. -/
structure Execution where
  /-- the stream that started it -/
  stream : Nat
  pc : Pc := .created
  /-- the published Process, under the id of the execution that owns it -/
  process : Option Nat := none
  done : Bool := false
  cancelRequested : Bool := false
  released : Bool := false
  /-- the error of the response -/
  error : Option ErrorDetail := none
  interval : Int := 0
  own : Option Process := none
  progress : ProgressPc := .absent
  stop : Bool := false
  -- from here on only what happened, which no thread reads
  releases : Nat := 0
  /-- the writes that were begun, the last one first -/
  responses : List Response := []
  aborted : Bool := false
  published : Bool := false
  /-- a cancellation was waiting when the Process was published -/
  honoured : Bool := false
  cancelsRead : Nat := 0
  cancels : List Fate := []
  deriving Repr

/-! ## What the thread does -/

/-- How `Process::run` fares until its workers run. -/
inductive RunEntry where
  /-- it returns false before `shutdown_` is touched -/
  | returnsFalse
  /-- it throws before that -/
  | throws
  | starts
  /-- the block that starts the workers returns early, with a result of false -/
  | startFails
  /-- the block throws, from a constructor of a worker for instance -/
  | startThrows
  deriving DecidableEq, Repr

inductive Snapshot where
  | taken
  | nothing
  | threw
  deriving DecidableEq, Repr

/-- One step of the execution's thread, or of its progress thread. -/
inductive Action where
  | setup (c : Setup)
  | publish
  /-- the progress thread is created, when the request asked for progress; that may throw -/
  | startProgress (created : Bool)
  | enterRun (r : RunEntry)
  /-- the result of `Process::run`, or none when it throws -/
  | leaveRun (result : Option Bool)
  | stopProgress
  | joinProgress
  | finish (returned : Bool)
  | unpublish
  | release
  | markDone
  | beginWrite
  | endWrite
  | destroy
  | exit
  | wake
  | snapshot (s : Snapshot)
  | endProgressWrite
  deriving Repr

/-- A call threw an exception that nothing catches. -/
def Action.throws : Action → Bool
  | .setup c => prepare c == .unwind
  | .startProgress created => !created
  | .enterRun r => r == .throws || r == .startThrows
  | .leaveRun result => result.isNone
  | .finish returned => !returned
  | .snapshot s => s == .threw
  | _ => false

/-- What an action does outside its execution. -/
inductive Effect where
  | none
  /-- `active_executions_--` -/
  | releaseSlot
  /-- `requestExecutionCancellation` on the execution's own Process -/
  | cancelOwn
  /-- the service dies -/
  | abort
  deriving DecidableEq, Repr

namespace Execution

variable (x : Execution)

/-- The Process is changed, when there is one. -/
def withProcess (f : Process → Process) : Execution := { x with own := x.own.map f }

/-- Give the slot back, and go on at `pc`. -/
def giveSlotBack (pc : Pc) : Execution :=
  { x with released := true, releases := x.releases + 1, pc := pc }

/-- Where the thread goes once the progress thread is gone. -/
def afterProgress : Tail → Execution
  | .answer => { x with pc := .finish }
  | .unwind => { x with pc := .unpublish .unwind }

/-- Leave the run with a result, or with an exception. -/
def leave : Option Bool → Execution
  | some true => { x with pc := .stopProgress .answer }
  | some false => { x with error := some unknownFailure, pc := .stopProgress .answer }
  | none => { x with pc := .stopProgress .unwind }

/-- The progress thread does not hold `progress_lock`. -/
def progressLockFree : Bool := x.progress == .waiting || x.progress == .finished

/--
The block of `runInternal` that starts the workers. It holds `workers_lock_`, which a
cancellation takes too, so it is one action; it does nothing when the Process was
cancelled before.
-/
def startWorkers (p : Process) (r : RunEntry) : Option Execution :=
  let x := { x with own := some { p with shutdown := false } }
  match r with
  | .starts => some { x with
      own := some { p with shutdown := false, workersRunning := true }, pc := .running }
  | .startFails => some (x.leave (some false))
  | .startThrows => some (x.leave none)
  | .returnsFalse | .throws => none

/-- The threads of execution `k`. Nothing when the action is not what comes next. -/
def act (k : Nat) : Action → Option (Execution × Effect)
  | .setup c =>
    if x.pc = .setup then
      match prepare c with
      | .answer error => some ({ x with error := some error, pc := .release }, .none)
      | .unwind => some ({ x with pc := .destroy .unwind }, .none)
      | .process interval => some ({ x with own := some {}, interval, pc := .publish }, .none)
    else none
  | .publish =>
    if x.pc = .publish then
      let x := { x with process := some k, published := true, pc := .startProgress }
      if x.cancelRequested then
        some ({ x.withProcess (fun p => { p with cancelled := true }) with honoured := true },
          .cancelOwn)
      else some (x, .none)
    else none
  | .startProgress created =>
    if x.pc = .startProgress then
      if x.interval ≤ 0 then
        if created then some ({ x with pc := .run }, .none) else none
      else if created then some ({ x with progress := .waiting, pc := .run }, .none)
      else some ({ x with pc := .unpublish .unwind }, .none)
    else none
  | .enterRun r =>
    if x.pc = .run then
      match r, x.own with
      | .returnsFalse, _ => some (x.leave (some false), .none)
      | .throws, _ => some (x.leave none, .none)
      | r, some p =>
        if p.cancelled then
          if r = .starts then some ({ x with pc := .running }, .none) else none
        else (x.startWorkers p r).map (·, .none)
      | _, none => none
    else none
  | .leaveRun result =>
    if x.pc = .running then
      match result with
      | some ok =>
        some ((x.withProcess fun p => { p with workersRunning := false }).leave (some ok), .none)
      | none => some (x.leave none, .none)
    else none
  | .stopProgress =>
    match x.pc with
    | .stopProgress t =>
      if x.progress = .absent then some (x.afterProgress t, .none)
      else if x.progressLockFree then
        some ({ x with stop := true, pc := .joinProgress t }, .none)
      else none
    | _ => none
  | .joinProgress =>
    match x.pc with
    | .joinProgress t =>
      if x.progress = .finished then some (x.afterProgress t, .none) else none
    | _ => none
  | .finish returned =>
    if x.pc = .finish then
      if returned then
        some ({ x.withProcess (fun p => { p with shutdown := true }) with
          pc := .unpublish .answer }, .none)
      else some ({ x with pc := .unpublish .unwind }, .none)
    else none
  | .unpublish =>
    match x.pc with
    | .unpublish .answer => some ({ x with process := none, pc := .release }, .none)
    | .unpublish .unwind => some ({ x with process := none, pc := .destroy .unwind }, .none)
    | _ => none
  | .release =>
    if x.pc = .release then
      if x.released then some ({ x with pc := .write }, .none)
      else some (x.giveSlotBack (.markDone .answer), .releaseSlot)
    else none
  | .markDone =>
    match x.pc with
    | .markDone .answer => some ({ x with done := true, pc := .write }, .none)
    | .markDone .unwind => some ({ x with done := true, pc := .ended .unwind }, .none)
    | _ => none
  | .beginWrite =>
    if x.pc = .write then
      some ({ x with responses := .final x.error :: x.responses, pc := .writing }, .none)
    else none
  | .endWrite => if x.pc = .writing then some ({ x with pc := .destroy .answer }, .none) else none
  | .destroy =>
    match x.pc with
    | .destroy t =>
      match x.own with
      | none => some ({ x with pc := .exit t }, .none)
      | some p =>
        if p.shutdown then
          some ({ x with own := some { p with destroyed := true }, pc := .exit t }, .none)
        else some ({ x with aborted := true }, .abort)
    | _ => none
  | .exit =>
    match x.pc with
    | .exit t =>
      if x.released then some ({ x with pc := .ended t }, .none)
      else some (x.giveSlotBack (.markDone .unwind), .releaseSlot)
    | _ => none
  | .wake =>
    if x.progress = .waiting then
      some ({ x with progress := if x.stop then .finished else .awake }, .none)
    else none
  | .snapshot s =>
    if x.progress = .awake then
      match s with
      | .taken =>
        if x.own.any (·.workersRunning) then
          some ({ x with responses := .progress :: x.responses, progress := .writing }, .none)
        else none
      | .nothing => some ({ x with progress := .waiting }, .none)
      | .threw => some ({ x with aborted := true }, .abort)
    else none
  | .endProgressWrite =>
    if x.progress = .writing then some ({ x with progress := .waiting }, .none) else none

/--
The block of `ExecutionStream` that acts on a cancellation, as far as it changes the
execution; the call it makes, if any, is on the Process that is published.
-/
def requestCancellation : Execution :=
  if x.done then { x with cancels := .late :: x.cancels }
  else if x.process = none then
    { x with cancelRequested := true, cancels := .noted x.published :: x.cancels }
  else { x with cancels := .called :: x.cancels }

end Execution

end Sortie.Engine.ServiceImpl
