import Sortie.Nh.Errors
import Sortie.Plan.Schema
import Sortie.ResultSet

/-!
# What a run reports

The types of internal/run/run.go: the report of an execution, the errors it may
carry and the report of a whole plan. The times a report took by the runner's own
clock are left out; nothing is decided by them.
-/

namespace Sortie.Run

open Proto Api Nh

variable {F : Type}

/-- `CapError`: a stage stopped because a backend refused one of its starts. -/
structure CapError where
  /-- the backend that refused, the first one if several did -/
  backend : String
  max : Int
  /-- how many executions the stage starts on every backend at once -/
  needed : Nat
  distributed : Bool
  err : BusyError
  deriving DecidableEq, Repr

/-- `NotRunError`: an execution that was never attempted. -/
structure NotRunError where
  /-- the stage that was refused -/
  refused : String
  cap : CapError
  deriving DecidableEq, Repr

/-- `BackendError`: one backend's failure within an execution. -/
structure BackendError where
  addr : String
  err : GoError
  deriving DecidableEq, Repr

/-- Whether a backend failed because it refused the start. -/
def BackendError.isRefusal (f : BackendError) : Bool := f.err.asBusy.isSome

/-- The error of an execution. -/
inductive RunError where
  | cap (e : CapError)
  | notRun (e : NotRunError)
  /-- the caller ended the run -/
  | cancelled (e : CtxErr)
  /-- no backend returned anything: `errors.Join` of what each of them failed with -/
  | backends (failed : List BackendError)
  /-- a distributor that could not be reached or did not run the pool -/
  | distributor (e : GoError)
  | message (text : String)
  deriving DecidableEq, Repr

namespace RunError

/-- `errors.As` for a `*CapError`; a `NotRunError` unwraps to one. -/
def asCap : RunError → Option CapError
  | .cap e => some e
  | .notRun e => some e.cap
  | _ => none

end RunError

/-- `ExecutionReport`: the verdict for one execution. -/
structure ExecutionReport (F : Type) where
  label : String
  scenario : String
  pool : String
  rate : UInt32
  perBackend : Bool
  duration : Span
  rampTime : Span
  backends : List String
  dns : String
  set : Option (ResultSet F) := none
  outcomes : List (ResultSet.Outcome F) := []
  pass : Bool := false
  backendErrors : List BackendError := []
  err : Option RunError := none
  deriving DecidableEq, Repr

/-- `NotRun`: whether the execution was never attempted. -/
def ExecutionReport.notRun (er : ExecutionReport F) : Bool :=
  match er.err with
  | some (.notRun _) => true
  | _ => false

/-- The `CapError` in a report's error. -/
def ExecutionReport.atCap (er : ExecutionReport F) : Option CapError := er.err.bind RunError.asCap

/-- `Report`: the verdict for a whole plan. -/
structure Report (F : Type) where
  executions : List (ExecutionReport F) := []
  pass : Bool := true
  deriving DecidableEq, Repr

end Sortie.Run
