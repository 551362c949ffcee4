import Sortie.Go

/-!
# What a backend returns: `Output`

The messages of engine/api/client/output.proto. Durations are those of the wire,
since an engine may report anything at all.
-/

namespace Sortie.Api

open Proto

variable (F : Type)

/-- `Counter`. -/
structure Counter where
  name : String
  value : UInt64
  deriving DecidableEq, Repr

/-- A measured value: a duration, or a number of the type `R`. -/
inductive Measured (R : Type) where
  | duration (d : Duration)
  | raw (r : R)
  deriving DecidableEq, Repr

/-- `Percentile`. -/
structure Percentile where
  value : Option (Measured F)
  percentile : F
  deriving DecidableEq, Repr

/-- `Statistic`. -/
structure Statistic where
  count : UInt64 := 0
  id : String := ""
  mean : Option (Measured F) := none
  pstdev : Option (Measured F) := none
  percentiles : List (Percentile F) := []
  min : Option (Measured UInt64) := none
  max : Option (Measured UInt64) := none
  deriving DecidableEq, Repr

/-- `Result`. -/
structure Result where
  name : String := ""
  statistics : List (Statistic F) := []
  counters : List Counter := []
  executionDuration : Option Duration := none
  deriving DecidableEq, Repr

/-- `Output`. -/
structure Output where
  results : List (Result F) := []
  deriving DecidableEq, Repr

/-- `GetExecutionDuration().AsDuration()`: an absent duration is zero. -/
def Result.took {F : Type} (r : Result F) : Span :=
  match r.executionDuration with
  | some d => d.asDuration
  | none => 0

/-- An output that is there and holds a result: `len(out.GetResults()) > 0`. -/
def withResults {F : Type} (out : Option (Output F)) : Option (Output F) :=
  out.filter fun o => !o.results.isEmpty

end Sortie.Api
