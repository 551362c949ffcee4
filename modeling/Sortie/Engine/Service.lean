import Sortie.Engine.Handler
import Sortie.Lib.Run

/-!
# The service: streams, executions and the cap

`ServiceImpl::ExecutionStream` (engine/source/client/service_impl.cc) runs on one
thread per stream and shares `active_executions_` with the threads of all
executions. `step` interleaves them: an event is the next thing one thread does, a
block under a lock being one event. Any number of streams may be open, and a stream
that has not read anything is waiting in its first `Read`.

A service that has aborted takes no step.
-/

namespace Sortie.Engine.ServiceImpl

/-- An `ExecutionRequest`, or the end of the stream. -/
inductive Request where
  | start
  | cancellation
  | update
  /-- a message without a command -/
  | empty
  | endOfStream
  deriving DecidableEq, Repr

/-- What `ExecutionStream` returns. -/
structure Status where
  code : StatusCode
  message : String := ""
  /-- the value of `MaxConcurrentExecutionsTrailer` -/
  trailer : Option String := none
  deriving DecidableEq, Repr

/-- Where the thread of a stream is. -/
inductive StreamPc where
  | reading
  /-- a start was read, and there was an execution before -/
  | checkDone
  | waitPrevious
  /-- at the block that takes a slot -/
  | claimSlot
  /-- a slot was taken, for execution `k` -/
  | creating (k : Nat)
  /-- the thread of execution `k` could not be created, for the reason given -/
  | givingBack (k : Nat) (text : String)
  /-- a cancellation was read, and there is an execution -/
  | cancelling
  /-- in `finishGrpcStream`, waiting for the execution -/
  | finishing (status : Status)
  | returned (status : Status)
  deriving DecidableEq, Repr

/-- A stream: its thread, and the execution it started last. -/
structure Stream where
  pc : StreamPc := .reading
  execution : Option Nat := none
  deriving DecidableEq, Repr

/-- A call of `requestExecutionCancellation`. -/
structure CancelCall where
  /-- the stream whose cancellation it carries out -/
  stream : Nat
  /-- the execution the Process was published by -/
  execution : Nat
  /-- the Process that was called, under the id of the execution that owns it -/
  process : Nat
  /-- it was not destroyed -/
  alive : Bool
  deriving DecidableEq, Repr

/-- The service. Executions are numbered in the order their starts were accepted. -/
structure Service where
  /-- `active_executions_` -/
  active : UInt32 := 0
  streams : Nat → Stream := fun _ => {}
  executions : List Execution := []
  /-- what happened: the cancellations that reached a Process, the last one first -/
  calls : List CancelCall := []
  crashed : Bool := false

/-- The next thing a thread does. -/
inductive Event where
  | read (s : Nat) (r : Request)
  | checkDone (s : Nat)
  | waitPrevious (s : Nat)
  | claimSlot (s : Nat)
  /-- `make_shared` and `std::async`; the text is that of the exception -/
  | create (s : Nat) (failure : Option String)
  | giveBack (s : Nat)
  | cancel (s : Nat)
  | finish (s : Nat)
  | thread (k : Nat) (a : Action)
  deriving Repr

namespace Service

variable (w : Service)

def setStream (s : Nat) (st : Stream) : Service :=
  { w with streams := Function.update w.streams s st }

/-- The stream's thread goes on at `pc`. -/
def goTo (s : Nat) (pc : StreamPc) : Service := w.setStream s { w.streams s with pc }

def modify (k : Nat) (f : Execution → Execution) : Service :=
  { w with executions := w.executions.modify k f }

/-- The Process of execution `p` has not been destroyed. -/
def alive (p : Nat) : Bool := (w.executions[p]?.bind Execution.own).any (!·.destroyed)

/-- Call `requestExecutionCancellation` on the Process of execution `p`. -/
def callCancel (s k p : Nat) : Service :=
  { w.modify p (·.withProcess fun q => { q with cancelled := true }) with
    calls := { stream := s, execution := k, process := p, alive := w.alive p } :: w.calls }

/-- The refusal of a start at the cap. -/
def refusal (max : UInt32) : Status where
  code := .resourceExhausted
  message :=
    if max = 1 then "Only a single benchmark session is allowed at a time."
    else "Busy: " ++ toString w.active.toNat ++ " executions are running, the maximum this service "
      ++ "allows (--max-concurrent-executions)."
  trailer := some (toString max.toNat)

/-- The next execution, which stream `s` starts. -/
def accept (s : Nat) : Service :=
  { w with active := w.active + 1, executions := w.executions ++ [{ stream := s }] }

/-- A request was read on stream `s`. -/
def readRequest (s : Nat) : Request → Service
  | .start => w.goTo s (if (w.streams s).execution = none then .claimSlot else .checkDone)
  | .cancellation =>
    match (w.streams s).execution with
    | none => w
    | some k =>
      (w.modify k fun x => { x with cancelsRead := x.cancelsRead + 1 }).goTo s .cancelling
  | .update =>
    w.goTo s (.finishing { code := .internal, message := "Request is not supported yet." })
  | .empty => { w with crashed := true }
  | .endOfStream => w.goTo s (.finishing { code := .ok })

/-- The block that acts on a cancellation of execution `k`. -/
def cancelExecution (s k : Nat) (x : Execution) : Service :=
  let w' := (w.modify k Execution.requestCancellation).goTo s .reading
  if x.done then w'
  else match x.process with
    | none => w'
    | some p => w'.callCancel s k p

/-- What an action of execution `k` does to the rest of the service. -/
def apply (k : Nat) (x : Execution) (effect : Effect) : Service :=
  let w' := { w with executions := w.executions.set k x }
  match effect with
  | .none => w'
  | .releaseSlot => { w' with active := w.active - 1 }
  | .cancelOwn =>
    let call := { stream := x.stream, execution := k, process := k, alive := w'.alive k }
    { w' with calls := call :: w.calls }
  | .abort => { w' with crashed := true }

/-- The thread of execution `k` is over, so its future is ready. -/
def threadOver (k : Nat) : Bool :=
  w.executions[k]?.any fun x => x.pc == .ended .answer || x.pc == .ended .unwind

/-- The next step of the service, with at most `max` executions at once. -/
def step (max : UInt32) (w : Service) (e : Event) : Option Service :=
  if w.crashed then none
  else match e with
    | .read s r => if (w.streams s).pc = .reading then some (w.readRequest s r) else none
    | .checkDone s =>
      match (w.streams s).pc, (w.streams s).execution.bind (w.executions[·]?) with
      | .checkDone, some x =>
        some (w.goTo s (if x.done then .waitPrevious
          else .finishing
            { code := .internal, message := "This stream already has an execution running." }))
      | _, _ => none
    | .waitPrevious s =>
      if (w.streams s).pc = .waitPrevious ∧ (w.streams s).execution.any w.threadOver then
        some (w.goTo s .claimSlot)
      else none
    | .claimSlot s =>
      if (w.streams s).pc = .claimSlot then
        if max ≤ w.active then some (w.goTo s (.returned (w.refusal max)))
        else some ((w.accept s).goTo s (.creating w.executions.length))
      else none
    | .create s failure =>
      match (w.streams s).pc, failure with
      | .creating k, none =>
        some ((w.modify k fun x => { x with pc := .setup }).setStream s { execution := some k })
      | .creating k, some text => some (w.goTo s (.givingBack k text))
      | _, _ => none
    | .giveBack s =>
      match (w.streams s).pc with
      | .givingBack k text =>
        some ({ w.modify k (·.giveSlotBack .gaveBack) with active := w.active - 1 }.setStream s
          { pc := .returned
              { code := .internal, message := "Unable to start the execution: " ++ text } })
      | _ => none
    | .cancel s =>
      match (w.streams s).pc, (w.streams s).execution with
      | .cancelling, some k => (w.executions[k]?).map (w.cancelExecution s k)
      | _, _ => none
    | .finish s =>
      match (w.streams s).pc with
      | .finishing status =>
        if (w.streams s).execution.all w.threadOver then some (w.goTo s (.returned status))
        else none
      | _ => none
    | .thread k a => do
      let x ← w.executions[k]?
      let (x', effect) ← x.act k a
      return w.apply k x' effect

/-- The events `es` lead from `w` to `w'`. -/
abbrev Leads (max : UInt32) (w : Service) (es : List Event) (w' : Service) : Prop :=
  Lts.Run (fun a e b => step max a e = some b) w es w'

/-- The events `es` lead from the start of the service to `w`. -/
abbrev Reaches (max : UInt32) (es : List Event) (w : Service) : Prop := Leads max {} es w

end Service

end Sortie.Engine.ServiceImpl
