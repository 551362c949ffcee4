import Sortie.Lib.Checks
import Sortie.Threshold

/-!
# Judging the outputs of a pool

The package internal/result. Counters are summed and judged once for the pool;
percentiles and the other statistics cannot be merged and are judged on every
backend, all of which have to hold.
-/

namespace Sortie

open Proto Api Sortie.Metric

variable {F : Type}

/-- One backend's contribution to an execution. -/
structure ResultSet.Backend (F : Type) where
  addr : String
  output : Output F
  /-- the result its thresholds are judged on -/
  global : Result F
  deriving DecidableEq, Repr

/-- `Set`: every backend's result for one execution. -/
structure ResultSet (F : Type) where
  backends : List (ResultSet.Backend F)
  deriving DecidableEq, Repr

namespace ResultSet

/-- The contribution of one backend, by the global result of its output. -/
def backendOf (answer : String × Output F) : Except String (Backend F) :=
  match globalResult answer.2 with
  | .error e => .error ("backend " ++ answer.1 ++ ": " ++ e)
  | .ok global => .ok { addr := answer.1, output := answer.2, global }

/-- `NewSet`. -/
def newSet (addrs : List String) (outputs : List (Output F)) : Except String (ResultSet F) :=
  if addrs.length ≠ outputs.length then
    .error ("got " ++ toString outputs.length ++ " outputs for " ++ toString addrs.length
      ++ " backends")
  else ((addrs.zip outputs).mapM backendOf).map ResultSet.mk

/-! ## The pool as a whole -/

/-- A counter added to the sums so far, which stay in the order they were first seen in. -/
def addCounter (sums : List Counter) (c : Counter) : List Counter :=
  if sums.any fun s => s.name == c.name then
    sums.map fun s => if s.name = c.name then { s with value := s.value + c.value } else s
  else sums ++ [c]

/-- The longer of two durations, where the first one seen stands until a longer one comes. -/
def longer (longest d : Option Duration) : Option Duration :=
  let span (d : Option Duration) : Span := (d.map Duration.asDuration).getD 0
  if longest.isNone || decide (span longest < span d) then d else longest

/-- `Totals`: summed counters and the longest duration, and no statistics. -/
def totals (s : ResultSet F) : Result F where
  name := "global"
  counters := s.backends.foldl (fun sums b => b.global.counters.foldl addCounter sums) []
  executionDuration :=
    s.backends.foldl (fun longest b => longer longest b.global.executionDuration) none

/-! ## Thresholds -/

/-- What a threshold was judged on. -/
inductive Scope where
  | pool | perBackend
  deriving DecidableEq, Repr

/-- `Outcome`: a threshold's verdict for an execution and the detail behind it. -/
structure Outcome (F : Type) where
  threshold : Threshold F
  pass : Bool
  scope : Scope
  perBackend : List (Threshold.Outcome F)
  deriving DecidableEq, Repr

/-- Counters and rates are judged on the pool. -/
def scopeOf (t : Threshold F) : Scope :=
  match t.selector.kind with
  | .counter _ | .rate _ => .pool
  | .percentile .. | .aggregate .. => .perBackend

/-- One threshold's verdict. -/
def judge (go : Go F) (s : ResultSet F) (t : Threshold F) : Outcome F :=
  match scopeOf t with
  | .pool =>
    let po := t.evaluate go s.totals
    { threshold := t, pass := po.pass, scope := .pool, perBackend := [po] }
  | .perBackend =>
    let each := s.backends.map fun b => t.evaluate go b.global
    { threshold := t, pass := each.all Threshold.Outcome.pass, scope := .perBackend
      perBackend := each }

/-- `Evaluate`. -/
def evaluate (go : Go F) (s : ResultSet F) (ts : List (Threshold F)) : List (Outcome F) × Bool :=
  let outcomes := ts.map (s.judge go)
  (outcomes, outcomes.all Outcome.pass)

end ResultSet

end Sortie
