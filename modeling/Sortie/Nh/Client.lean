import Sortie.Nh.Distributor

/-!
# Running one benchmark on one service

`Execute` of internal/nh/client.go. Two goroutines take part: `Execute` itself, and the
reader that hands interim responses to the progress callback and delivers the final one,
or the error that ended the stream. Around them are the service, the context with its
deadline, and the caller.

`step` interleaves them. An event is the next thing one of them does; where a `select`
has several cases, each that is ready is an event, and a timer may fire at any time. The
service writes what it likes and ends the stream when it likes. What a call on the stream
returns is part of the event, so every behaviour of the network is there.
-/

namespace Sortie.Nh

open Proto Api

variable {F : Type}

/-! ## The stream -/

/-- An `ExecutionResponse` as the stream of a service carries it. -/
structure StreamResponse (F : Type) extends ExecutionResponse F where
  /-- set on interim responses only, with the time elapsed -/
  progress : Option (Option Duration) := none
  deriving DecidableEq, Repr

/-- `GetProgress() != nil`. -/
def StreamResponse.interim (r : StreamResponse F) : Bool := r.progress.isSome

/-- `GetProgress().GetElapsed().AsDuration()`: what is absent is zero. -/
def StreamResponse.elapsed (r : StreamResponse F) : Span :=
  (r.progress.join.map Duration.asDuration).getD 0

/-- What a call on the stream fails with: `io.EOF`, or a status. -/
inductive StreamError where
  | eof
  | failed (status : RpcStatus)
  deriving DecidableEq, Repr

/-- A status as an error. -/
def RpcStatus.goError (s : RpcStatus) : GoError := .status s.code s.message

def StreamError.goError : StreamError → GoError
  | .eof => .message "EOF"
  | .failed s => s.goError

/-- How a stream ended: `io.EOF` for the status OK. -/
structure StreamEnd where
  err : StreamError
  /-- the values of `MaxConcurrentExecutionsTrailer` -/
  trailer : List String := []
  deriving DecidableEq, Repr

/-- `strconv.Atoi`, with 0 for what is no `int` or negative. -/
def legibleMax (value : String) : Int :=
  let digits := match value.toList with
    | '+' :: rest => rest
    | rest => rest
  if digits ≠ [] ∧ digits.all Char.isDigit ∧ Text.digitsValue digits < 2 ^ 63 then
    Text.digitsValue digits
  else 0

/-- `busy`: a refusal at the execution cap is told by its code and the service's trailer. -/
def busy (trailer : List String) (err : GoError) : Option BusyError :=
  if err.code ≠ Code.resourceExhausted then none
  else trailer.head?.map fun value => ⟨legibleMax value, err⟩

/-- An `ExecutionRequest` that `Execute` sends. -/
inductive ExecutionRequest where
  | start (options : CommandLineOptions) (progressInterval : Option Duration)
  | cancellation
  deriving Repr

/-! ## The state -/

/-- `Progress`. -/
structure Progress where
  interval : Span
  /-- whether there is an `Fn` -/
  fn : Bool
  deriving DecidableEq, Repr

/-- The arguments of `Execute`. -/
structure ExecuteArgs where
  opts : CommandLineOptions
  progress : Option Progress := none
  deriving Repr

/-- The start it sends. -/
def ExecuteArgs.start (a : ExecuteArgs) : ExecutionRequest :=
  .start a.opts ((a.progress.filter fun p => decide (0 < p.interval)).map fun p =>
    Duration.new p.interval)

/-- Whether responses are handed on. -/
def ExecuteArgs.reports (a : ExecuteArgs) : Bool := a.progress.any (·.fn)

/-- How a context ended. -/
structure CtxEnd where
  err : CtxErr
  /-- its cause is `ErrBackendDeadline` -/
  overdue : Bool := false
  deriving DecidableEq, Repr

/-- What a `Recv` returns: a response, or how the stream ended. -/
inductive Delivery (F : Type) where
  | response (r : StreamResponse F)
  | error (e : StreamEnd)
  deriving DecidableEq, Repr

/-- What `Execute` returns. -/
structure Outcome (F : Type) where
  resp : Option (StreamResponse F) := none
  err : Option GoError := none
  deriving DecidableEq, Repr

/-- Where `Execute` is. -/
inductive ExecutePc (F : Type) where
  | entry
  | sendStart
  /-- sending the start returned `io.EOF`: the stream has a status to read -/
  | refused
  /-- in the first `select` -/
  | awaitFirst
  /-- in the second one: the deadline for the answer has passed -/
  | awaitArrived
  | sendCancel
  /-- in the third one: the cancellation is out -/
  | awaitAnswer
  | closeSend
  /-- in the loop that reads the stream to its end, with the response it returns -/
  | drain (r : StreamResponse F)
  | returned (o : Outcome F)
  deriving DecidableEq, Repr

/-- Where the reader is. -/
inductive ReaderPc (F : Type) where
  | absent
  | reading
  /-- about to hand an interim response on -/
  | handling (r : StreamResponse F)
  | done
  deriving DecidableEq, Repr

structure Execute (F : Type) where
  args : ExecuteArgs
  /-- how `ctx` ended -/
  ctx : Option CtxEnd := none
  /-- `callerDone(ctx)` is closed -/
  callerDone : Bool := false
  /-- what the service wrote and nobody read yet -/
  pending : List (StreamResponse F) := []
  /-- how the stream ended -/
  ended : Option StreamEnd := none
  /-- what happened: the responses that were read, in order -/
  received : List (StreamResponse F) := []
  pc : ExecutePc F := .entry
  reader : ReaderPc F := .absent
  /-- the channel `first` -/
  first : Option (Delivery F) := none
  got : Option (Delivery F) := none
  cancelled : Bool := false
  /-- what happened: the requests that were sent, in order -/
  sent : List ExecutionRequest := []
  /-- what happened: the calls of `progress.Fn`, in order -/
  calls : List (Span × Option (Output F)) := []

/-! ## The steps -/

inductive ExecuteEvent (F : Type) where
  /-- the service writes a response -/
  | write (r : StreamResponse F)
  /-- the stream ends; a broken one may lose what was not read, all but the first `kept` -/
  | finish (kept : Nat) (e : StreamEnd)
  | ctxEnds (c : CtxEnd)
  | callerEnds
  /-- the reader's `Recv` returns -/
  | read
  /-- the reader is done with an interim response -/
  | call
  /-- the stream is opened, or it fails -/
  | openStream (err : Option RpcStatus)
  | sendStart (err : Option StreamError)
  /-- the `Recv` that follows a start which `io.EOF` met -/
  | recvRefusal
  /-- a `select` takes what the reader delivered -/
  | selectFirst
  | selectDone
  | selectCaller
  /-- `arrivedGrace` is over -/
  | selectArrived
  | sendCancel (err : Option StreamError)
  /-- `cancelGrace` is over -/
  | selectCancelGrace
  | closeSend (err : Option RpcStatus)
  /-- a `Recv` of the last loop returns -/
  | drain
  deriving Repr

namespace Execute

variable (s : Execute F)

/-- `ctx.Err()`, as `%w` puts it into an error. -/
def ctxErr : GoError := (s.ctx.map fun c => GoError.ctx c.err).getD (.message "%!w(<nil>)")

/-- `Recv`; nothing while it blocks. The end of a stream can be read again and again. -/
def recv : Option (Delivery F × Execute F) :=
  match s.pending with
  | r :: rest => some (.response r, { s with pending := rest, received := s.received ++ [r] })
  | [] => s.ended.map fun e => (.error e, s)

/-- `Execute` returns. -/
def exit (resp : Option (StreamResponse F)) (err : Option GoError) : Execute F :=
  { s with pc := .returned { resp, err } }

def fail (err : GoError) : Execute F := s.exit none (some err)

/-- The reader has read something: an interim response, or what it delivers. -/
def deliver : Delivery F → Execute F
  | .response r =>
    if r.interim then { s with reader := .handling r }
    else { s with reader := .done, first := some (.response r) }
  | .error e => { s with reader := .done, first := some (.error e) }

/-- The call of `progress.Fn`, when there is one. -/
def handOn (r : StreamResponse F) : Execute F :=
  { s with
    reader := .reading
    calls := if s.args.reports then s.calls ++ [(r.elapsed, r.output)] else s.calls }

/-- The start was refused, and `Recv` says why: a stream that has ended keeps its status. -/
def refusal : Delivery F → Execute F
  | .error { err := .failed status, trailer } =>
    match busy trailer status.goError with
    | some b => s.fail (.busy b.max b.err)
    | none => s.fail (.wrap "sending start request: " status.goError "")
  | _ => s.fail (.wrap "sending start request: " StreamError.eof.goError "")

/-- What is made of the reader's delivery, once the sending side is closed. -/
def judge : Option (Delivery F) → Execute F
  | some (.response r) => { s with pc := .drain r }
  | some (.error { err := .eof, .. }) =>
    s.fail (.message "service closed the stream without returning a response")
  | some (.error { err := .failed status, trailer }) =>
    match busy trailer status.goError with
    | some b => s.fail (.busy b.max b.err)
    | none => s.fail (.wrap "awaiting execution response: " status.goError "")
  | none => s

/-- The end of the last loop, at the end of the stream. -/
def finishWith (r : StreamResponse F) : StreamError → Execute F
  | .failed status => s.fail (.wrap "execution stream failed after responding: " status.goError "")
  | .eof =>
    if s.cancelled then s.exit (some r) (some (.wrap "execution cancelled: " s.ctxErr ""))
    else match failure r.errorDetail with
      | some detail =>
        s.exit (some r) (some (.message ("nighthawk reported failure: " ++ detail.message)))
      | none => s.exit (some r) none

/-- `Execute` takes what the reader delivered. -/
def take (d : Delivery F) : Execute F := { s with got := some d, first := none, pc := .closeSend }

def step : ExecuteEvent F → Option (Execute F)
  | .write r => if s.ended.isNone then some { s with pending := s.pending ++ [r] } else none
  | .finish kept e =>
    if s.ended.isNone then some { s with pending := s.pending.take kept, ended := some e } else none
  | .ctxEnds c => if s.ctx.isNone then some { s with ctx := some c } else none
  | .callerEnds => if s.callerDone then none else some { s with callerDone := true }
  | .read => match s.reader with
    | .reading => s.recv.map fun (d, s) => s.deliver d
    | _ => none
  | .call => match s.reader with
    | .handling r => some (s.handOn r)
    | _ => none
  | .openStream err => match s.pc with
    | .entry => match s.ctx, err with
      -- a context that has already ended starts nothing
      | some c, _ => some (s.fail (.wrap "not started: " (.ctx c.err) ""))
      | none, some e => some (s.fail (.wrap "opening execution stream: " e.goError ""))
      | none, none => some { s with pc := .sendStart }
    | _ => none
  | .sendStart err => match s.pc with
    | .sendStart =>
      let s := { s with sent := s.sent ++ [s.args.start] }
      match err with
      | none => some { s with pc := .awaitFirst, reader := .reading }
      | some .eof => some { s with pc := .refused }
      | some (.failed e) => some (s.fail (.wrap "sending start request: " e.goError ""))
    | _ => none
  | .recvRefusal => match s.pc with
    | .refused => s.recv.map fun (d, s) => s.refusal d
    | _ => none
  | .selectFirst => match s.pc, s.first with
    | .awaitFirst, some d | .awaitArrived, some d | .awaitAnswer, some d => some (s.take d)
    | _, _ => none
  | .selectDone => match s.pc, s.ctx with
    | .awaitFirst, some c => some { s with pc := if c.overdue then .awaitArrived else .sendCancel }
    | _, _ => none
  | .selectCaller => match s.pc with
    | .awaitArrived => if s.callerDone then some { s with pc := .sendCancel } else none
    | _ => none
  | .selectArrived => match s.pc with
    | .awaitArrived => some { s with pc := .sendCancel }
    | _ => none
  | .sendCancel err => match s.pc with
    | .sendCancel =>
      let s := { s with cancelled := true, sent := s.sent ++ [ExecutionRequest.cancellation] }
      match err with
      | some e => some (s.fail (.wrap "" s.ctxErr
          (" (and sending the cancellation failed: " ++ e.goError.text ++ ")")))
      | none => some { s with pc := .awaitAnswer }
    | _ => none
  | .selectCancelGrace => match s.pc with
    | .awaitAnswer => some (s.fail (.wrap "" s.ctxErr
        " (the service did not answer the cancellation within 30s)"))
    | _ => none
  | .closeSend err => match s.pc with
    | .closeSend => match err with
      | some e => some (s.fail (.wrap "closing send direction: " e.goError ""))
      | none => some (s.judge s.got)
    | _ => none
  | .drain => match s.pc with
    | .drain r => s.recv.map fun (d, s) => match d with
      | .response _ => s
      | .error e => s.finishWith r e.err
    | _ => none

/-- A call of `Execute`, before it does anything; the context may have ended already. -/
def init (args : ExecuteArgs) (ctx : Option CtxEnd) : Execute F := { args, ctx }

end Execute

end Sortie.Nh
