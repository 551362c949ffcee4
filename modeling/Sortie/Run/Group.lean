import Sortie.Run.Dispatch

/-!
# A group of executions

`runGroup` of internal/run/run.go: the executions of a group run at the same time,
each in its own goroutine and with one goroutine per backend under it. They share the
stage's context, which ends once, for the reason that came first: the caller's
context ended, or a backend refused a start.

The goroutines are interleaved by `Event`s. What a goroutine meets outside, such as
an exchange with a backend, is part of its event and may be anything at all; what it
reads of the stage's context is read from the state the event happens in. All of it
is collected in the `Observed` of its execution, and the reports are those that
`runExecution` makes of the observations. The caller's context and the stage's end
in one step, as a derived context ends with the one it is derived from.
-/

namespace Sortie.Run

open Proto Api Nh

variable {F : Type}

/-! ## One execution -/

/-- Where the goroutine of an execution is. -/
inductive Phase where
  | ready
  /-- the exchanges with these services have not ended -/
  | exchanging (pending : List Nat)
  | connecting
  /-- these failed targets, the first of them the `i`-th, have not been looked at -/
  | handling (bad : List TargetError) (i : Nat)
  | dispatched
  /-- the cause of the stage's context was read -/
  | causeRead (cause : Option Cause)
  | reported
  | panicked
  deriving DecidableEq, Repr

/-- An execution of a group. -/
structure Member (F : Type) where
  execution : Execution
  phase : Phase := .ready
  observed : Observed F := {}

/-- What an execution's goroutines do next. -/
inductive Action (F : Type) where
  /-- it is dispatched, at the wall clock `now` -/
  | begin (now : Int)
  /-- the exchange with service `k` has ended -/
  | exchange (k : Nat) (x : Exchange F) (deadlinePassed : Bool)
  /-- the distributor was dialled and heard out -/
  | connect (dial : Option GoError) (c : Conversation F)
  /-- the next failed target is looked at -/
  | handle (deadlinePassed : Bool)
  /-- `dispatch` returns -/
  | join
  | readCause
  | readErr

/-- The phase a dispatch begins in. -/
def beginning (pool : Pool) (e : Execution) : Phase :=
  match Compile.forPool e pool with
  | .error (.panic _) => .panicked
  | .error (.error _) => .dispatched
  | .ok (addrs, _) =>
    if pool.distributor ≠ "" then .connecting else .exchanging (List.range addrs.length)

/-- The address of service `k`. -/
def addrOf (pool : Pool) (e : Execution) (k : Nat) : String :=
  match Compile.forPool e pool with
  | .ok (addrs, _) => addrs[k]?.getD ""
  | .error _ => ""

/-- The phase that follows a conversation with a distributor. -/
def afterConnect (pool : Pool) (dial : Option GoError) (c : Conversation F) : Phase :=
  match dial, distributePartial pool.targets c with
  | none, .ok d => .handling d.failed 0
  | _, _ => .dispatched

/-- What was seen of the stage, from the cause that was read and the one there is now. -/
def takenUp : Option Cause → Option Cause → Taken
  | some cause, _ => .ended cause
  | none, some cause => .endedBetween cause
  | none, none => .alive

/-- The refusal an action meets: who refused, and how. -/
def Member.refusal (pool : Pool) (m : Member F) : Action F → Option (String × BusyError)
  | .exchange k x _ => x.refusal.map fun busy => (addrOf pool m.execution k, busy)
  | .handle _ => match m.phase with
    | .handling (b :: _) _ => b.err.asBusy.map fun busy => (b.target, busy)
    | _ => none
  | _ => none

/-- An action, with the cause of the stage's context after its own refusal. -/
def Member.act (pool : Pool) (cause : Option Cause) (m : Member F) :
    Action F → Option (Member F)
  | .begin now => match m.phase with
    | .ready => some { m with
        phase := beginning pool m.execution, observed := { m.observed with now } }
    | _ => none
  | .exchange k x deadlinePassed => match m.phase with
    | .exchanging pending =>
      if k ∈ pending then
        let slot := { exchange := x, seen := { deadlinePassed, callerEnded := cause.isSome } }
        some { m with
          phase := .exchanging (pending.erase k)
          observed := { m.observed with slots := Function.update m.observed.slots k slot } }
      else none
    | _ => none
  | .connect dial c => match m.phase with
    | .connecting => some { m with
        phase := afterConnect pool dial c
        observed := { m.observed with dial, conversation := c } }
    | _ => none
  | .handle deadlinePassed => match m.phase with
    | .handling (_ :: bad) i =>
      let seen := { deadlinePassed, callerEnded := cause.isSome }
      some { m with
        phase := .handling bad (i + 1)
        observed := { m.observed with seen := Function.update m.observed.seen i seen } }
    | _ => none
  | .join => match m.phase with
    | .exchanging [] | .handling [] _ => some { m with phase := .dispatched }
    | _ => none
  | .readCause => match m.phase with
    | .dispatched => some { m with phase := .causeRead cause }
    | _ => none
  | .readErr => match m.phase with
    | .causeRead read => some { m with
        phase := .reported, observed := { m.observed with taken := takenUp read cause } }
    | _ => none

/-! ## The group -/

/-- A group while it runs. -/
structure Stage (F : Type) where
  /-- how the caller's context has ended -/
  parent : Option CtxErr
  /-- why the stage's context has ended; it is set once -/
  cause : Option Cause
  /-- the refusals recorded before the caller's context ended, oldest first -/
  refusals : List CapError := []
  members : List (Member F)

/-- `context.WithCancelCause`: a context derived from one that has ended has ended too. -/
def Stage.init (parent : Option CtxErr) (group : List Execution) : Stage F where
  parent
  cause := parent.map Cause.parent
  members := group.map fun e => { execution := e }

/-- An event of a group. -/
inductive Event (F : Type) where
  /-- the caller's context ends -/
  | parentEnds (err : CtxErr)
  /-- execution `i` acts -/
  | member (i : Nat) (a : Action F)

/-- The error of a stage whose start was refused. -/
def Stage.capError (pool : Pool) (w : Stage F) (backend : String) (busy : BusyError) :
    CapError where
  backend
  max := busy.max
  needed := w.members.length
  distributed := pool.distributor != ""
  err := busy

/-- `refused`: a context keeps the first reason it was ended for. -/
def Stage.refuse (pool : Pool) (w : Stage F) : Option (String × BusyError) → Stage F
  | none => w
  | some (backend, busy) =>
    let atCap := w.capError pool backend busy
    { w with
      cause := w.cause.or (some (.cap atCap))
      refusals := if w.parent.isNone then w.refusals ++ [atCap] else w.refusals }

/-- The caller's context ends, and the stage's with it. -/
def Stage.endParent (w : Stage F) (err : CtxErr) : Stage F :=
  { w with parent := some err, cause := w.cause.or (some (.parent err)) }

/-- One event. -/
def Stage.step (pool : Pool) (w : Stage F) : Event F → Option (Stage F)
  | .parentEnds err => if w.parent.isNone then some (w.endParent err) else none
  | .member i a => do
    let m ← w.members[i]?
    let w := w.refuse pool (m.refusal pool a)
    let m ← m.act pool w.cause a
    return { w with members := w.members.set i m }

/-- The report of an execution that was judged, or failed, before a sibling was refused. -/
def stopped (atCap : CapError) (er : ExecutionReport F) : ExecutionReport F :=
  if er.atCap = some atCap then er
  else { er with
    backendErrors := er.backendErrors.filter BackendError.isRefusal
    err := some (.cap atCap), pass := false, set := none, outcomes := [] }

/-- The reports of a group, once every execution has its own. -/
def Stage.reports (r : Runner) (go : Go F) (pool : Pool) (ths : List (Threshold F)) (w : Stage F) :
    Option (List (ExecutionReport F)) :=
  if w.members.all fun m => m.phase == .reported then do
    let reports ← w.members.mapM fun m => runExecution r go m.execution pool ths m.observed
    match w.cause with
    | some (.cap atCap) => return reports.map (stopped atCap)
    | _ => return reports
  else none

/-- `runGroup` on one interleaving: the reports, and how the caller's context has ended. -/
def runGroup (r : Runner) (go : Go F) (pool : Pool) (ths : List (Threshold F))
    (parent : Option CtxErr) (group : List Execution) (events : List (Event F)) :
    Option (List (ExecutionReport F) × Option CtxErr) := do
  let w ← events.foldlM (Stage.step pool) (Stage.init parent group)
  let reports ← w.reports r go pool ths
  return (reports, w.parent)

end Sortie.Run
