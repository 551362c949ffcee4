import Sortie.Run.Group

/-!
# Running a plan

`Run` of internal/run/run.go: scenario by scenario, and in a scenario group by
group. A run is driven by its `Turn`s, one for every group that is started: the
interleaving of the group's goroutines, and whether the caller's context ended
between the group's return and the runner's look at it. A run that panics, or whose
turns do not carry it to its end, returns nothing.
-/

namespace Sortie.Run

open Proto Api Nh Plan

variable {F : Type}

/-! ## Groups -/

/-- The groups of what is left, when the one that `e` began has been read up to here. -/
def groupsFrom (e : Execution) (group : List Execution) : List Execution → List (List Execution)
  | [] => [e :: group]
  | f :: rest =>
    if e.group ≠ "" ∧ f.group = e.group then groupsFrom e (group ++ [f]) rest
    else (e :: group) :: groupsFrom f [] rest

/-- How the loop of `Run` cuts a scenario's executions: the ones that share a group go together. -/
def groups : List Execution → List (List Execution)
  | [] => []
  | e :: rest => groupsFrom e [] rest

/-- The name of a stage: its group's, or its label. -/
def stageName : List Execution → String
  | [] => ""
  | e :: _ => if e.group ≠ "" then e.group else e.label

/-- `refusedAtCap`. -/
def refusedAtCap (reports : List (ExecutionReport F)) : Option CapError :=
  reports.findSome? ExecutionReport.atCap

/-- `notRun`: the report of an execution that was never attempted. -/
def notRun (pool : Pool) (err : NotRunError) (e : Execution) : ExecutionReport F :=
  { planned e pool with err := some (.notRun err) }

/-! ## The run -/

/-- What drives one group. -/
structure Turn (F : Type) where
  events : List (Event F)
  /-- how the caller's context ended after the group had returned -/
  ended : Option CtxErr := none

/-- A run on its way. -/
structure Progress (F : Type) where
  report : Report F := {}
  /-- the reports the observer was called with, in order -/
  finished : List (ExecutionReport F) := []
  /-- how the caller's context has ended -/
  parent : Option CtxErr
  turns : List (Turn F)

/-- The reports of a group, taken into the report of the run and handed to the observer. -/
def Progress.append (r : Runner) (p : Progress F) (reports : List (ExecutionReport F)) :
    Progress F :=
  { p with
    report :=
      { executions := p.report.executions ++ reports
        pass := p.report.pass && reports.all ExecutionReport.pass }
    finished := if r.observer then p.finished ++ reports else p.finished }

/-- The reports of one round of the loop: the group's, and after a refusal all that are left. -/
def roundReports (pool : Pool) (group : List Execution) (rest : List (List Execution))
    (reports : List (ExecutionReport F)) : List (ExecutionReport F) :=
  match refusedAtCap reports with
  | some atCap => reports ++ rest.flatten.map (notRun pool ⟨stageName group, atCap⟩)
  | none => reports

/-- The groups of a scenario, and the error of the caller's context when it ends the run. -/
def runGroups (r : Runner) (go : Go F) (pool : Pool) (ths : List (Threshold F)) :
    List (List Execution) → Progress F → Option (Progress F × Option CtxErr)
  | [], p => some (p, none)
  | group :: rest, p =>
    match p.turns with
    | [] => none
    | turn :: turns => do
      let (reports, parent) ← runGroup r go pool ths p.parent group turn.events
      let round := roundReports pool group rest reports
      let parent := parent.or turn.ended
      let p := { p.append r round with parent, turns }
      if parent.isSome ∧ round.any fun er => er.err.isSome then return (p, parent)
      else if (refusedAtCap reports).isSome then return (p, none)
      else runGroups r go pool ths rest p

/-- The error `Run` returns. -/
inductive Failed where
  | ctx (err : CtxErr)
  | message (text : String)
  deriving DecidableEq, Repr

/-- What `Run` returns, and what its observer has heard. -/
structure Returned (F : Type) where
  report : Option (Report F)
  err : Option Failed
  finished : List (ExecutionReport F)
  deriving Repr

/-- The scenarios of a plan, in order. -/
def runScenarios (r : Runner) (go : Go F) (plan : Plan) :
    List Scenario → Progress F → Option (Returned F)
  | [], p => some { report := some p.report, err := none, finished := p.finished }
  | s :: rest, p =>
    match Compile.expand go s with
    | .error (.panic _) => none
    | .error (.error text) =>
      some { report := none, err := some (.message text), finished := p.finished }
    | .ok executions => match Threshold.parseAll go (effectiveThresholds plan s) with
      | .error text => some
          { report := none,
            err := some (.message ("scenario " ++ Text.quote s.name ++ ": " ++ text))
            finished := p.finished }
      | .ok ths => do
        match ← runGroups r go (poolFor plan s) ths (groups executions) p with
        | (p, some err) =>
          return { report := some p.report, err := some (.ctx err), finished := p.finished }
        | (p, none) => runScenarios r go plan rest p

/-- `resolve`: the plan with the services its dns pools' names answered with. -/
def resolve (lookup : Pool → Except Failed (List String)) (plan : Plan) : Except Failed Plan := do
  let pools ← plan.pools.mapM fun pool =>
    if pool.dns = "" then .ok pool
    else (lookup pool).map fun services => { pool with services }
  return { plan with pools }

/-- `Run`, under a context that may have ended and with the answers of the resolver. -/
def Runner.run (r : Runner) (go : Go F) (lookup : Pool → Except Failed (List String))
    (parent : Option CtxErr) (turns : List (Turn F)) : Option (Returned F) :=
  match resolve lookup r.plan with
  | .error err => some { report := none, err := some err, finished := [] }
  | .ok plan => runScenarios r go plan plan.scenarios { parent, turns }

end Sortie.Run
