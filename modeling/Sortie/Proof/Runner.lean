import Sortie.Run.Runner

/-!
# The rounds of a run

What one round of the runner's loop can do, said once for the groups of a scenario
and once for the scenarios of a plan, and the rule that follows: what holds of the
empty report, and of every report to which reports are appended, holds of the report
a run returns.
-/

namespace Sortie.Run

open Proto Api Nh Plan

variable {F : Type} {r : Runner} {go : Go F}
variable {ret : Returned F} {p : Progress F}

/-- The run after the round of one group. -/
def Progress.after (r : Runner) (pool : Pool) (p : Progress F) (group : List Execution)
    (rest : List (List Execution)) (reports : List (ExecutionReport F)) (parent : Option CtxErr)
    (turns : List (Turn F)) : Progress F :=
  { p.append r (roundReports pool group rest reports) with parent, turns }

/-- A round ends the run, ends its scenario, or is followed by the next. -/
inductive Round (r : Runner) (go : Go F) (pool : Pool) (ths : List (Threshold F))
    (group : List Execution) (rest : List (List Execution)) (reports : List (ExecutionReport F))
    (q : Progress F) : Progress F → Option CtxErr → Prop where
  | endsRun {err : CtxErr} :
      q.parent = some err → Round r go pool ths group rest reports q q (some err)
  | endsScenario : (refusedAtCap reports).isSome → Round r go pool ths group rest reports q q none
  | goesOn {p' : Progress F} {ended : Option CtxErr} : refusedAtCap reports = none →
      runGroups r go pool ths rest q = some (p', ended) →
      Round r go pool ths group rest reports q p' ended

/-- The groups of a scenario, from the first one on. -/
theorem runGroups_cons {pool : Pool} {ths : List (Threshold F)} {group : List Execution}
    {rest : List (List Execution)} {p' : Progress F} {ended : Option CtxErr}
    (h : runGroups r go pool ths (group :: rest) p = some (p', ended)) :
    ∃ turn turns reports parent, p.turns = turn :: turns
      ∧ runGroup r go pool ths p.parent group turn.events = some (reports, parent)
      ∧ Round r go pool ths group rest reports
          (p.after r pool group rest reports (parent.or turn.ended) turns) p' ended := by
  rw [runGroups] at h
  cases hturns : p.turns with
  | nil =>
    rw [hturns] at h
    cases h
  | cons turn turns =>
    rw [hturns] at h
    obtain ⟨⟨reports, parent⟩, hgroup, h⟩ := Option.bind_eq_some_iff.mp h
    refine ⟨turn, turns, reports, parent, rfl, hgroup, ?_⟩
    dsimp only at h
    split at h
    · rename_i hends
      obtain ⟨err, herr⟩ := Option.isSome_iff_exists.mp hends.1
      cases h
      rw [herr]
      exact Round.endsRun rfl
    · split at h
      · rename_i hcap
        cases h
        exact Round.endsScenario hcap
      · rename_i hcap
        exact Round.goesOn (Option.not_isSome_iff_eq_none.mp hcap) h

/-- How a run of a plan's scenarios ends. -/
inductive Ends (r : Runner) (go : Go F) (plan : Plan) (s : Scenario) (rest : List Scenario)
    (p : Progress F) (ret : Returned F) : Prop where
  /-- the scenario could not be expanded, or its thresholds do not parse -/
  | failed : ret.report = none → Ends r go plan s rest p ret
  | ended {executions : List Execution} {ths : List (Threshold F)} {p' : Progress F}
      {err : CtxErr} :
      Compile.expand go s = .ok executions →
      runGroups r go (poolFor plan s) ths (groups executions) p = some (p', some err) →
      ret = { report := some p'.report, err := some (.ctx err), finished := p'.finished } →
      Ends r go plan s rest p ret
  | goesOn {executions : List Execution} {ths : List (Threshold F)} {p' : Progress F} :
      Compile.expand go s = .ok executions →
      runGroups r go (poolFor plan s) ths (groups executions) p = some (p', none) →
      runScenarios r go plan rest p' = some ret → Ends r go plan s rest p ret

/-- The scenarios of a plan, from the first one on. -/
theorem runScenarios_cons {plan : Plan} {s : Scenario} {rest : List Scenario}
    (h : runScenarios r go plan (s :: rest) p = some ret) : Ends r go plan s rest p ret := by
  rw [runScenarios] at h
  split at h
  · cases h
  · cases h
    exact Ends.failed rfl
  · rename_i executions hexpand
    split at h
    · cases h
      exact Ends.failed rfl
    · obtain ⟨⟨p', ended⟩, hgroups, h⟩ := Option.bind_eq_some_iff.mp h
      cases ended with
      | some err =>
        cases h
        exact Ends.ended hexpand hgroups rfl
      | none => exact Ends.goesOn hexpand hgroups h

/-! ## What every report has -/

section Invariant

variable {P : Report F → Prop}

section

variable (happend : ∀ (q : Progress F) (reports : List (ExecutionReport F)),
  P q.report → P (q.append r reports).report)
include happend

theorem runGroups_invariant {pool : Pool} {ths : List (Threshold F)} {gs : List (List Execution)}
    {p' : Progress F} {ended : Option CtxErr} (h : runGroups r go pool ths gs p = some (p', ended))
    (hp : P p.report) : P p'.report := by
  induction gs generalizing p with
  | nil =>
    obtain ⟨rfl, -⟩ := Prod.mk.inj (Option.some.inj h)
    exact hp
  | cons group rest ih =>
    obtain ⟨turn, turns, reports, parent, -, -, hround⟩ := runGroups_cons h
    have hafter := happend p (roundReports pool group rest reports) hp
    cases hround with
    | endsRun _ => exact hafter
    | endsScenario _ => exact hafter
    | goesOn _ hrest => exact ih hrest hafter

theorem runScenarios_invariant {plan : Plan} {scenarios : List Scenario} {rep : Report F}
    (h : runScenarios r go plan scenarios p = some ret) (hrep : ret.report = some rep)
    (hp : P p.report) : P rep := by
  induction scenarios generalizing p with
  | nil =>
    cases h
    cases hrep
    exact hp
  | cons s rest ih =>
    cases runScenarios_cons h with
    | failed hnone => exact nomatch hnone.symm.trans hrep
    | ended _ hgroups heq =>
      subst heq
      cases hrep
      exact runGroups_invariant happend hgroups hp
    | goesOn _ hgroups hrest => exact ih hrest (runGroups_invariant happend hgroups hp)

/-- **The rule for reports**: what the empty report has and appending keeps, every report has. -/
theorem Runner.run_invariant (h0 : P {}) {lookup : Pool → Except Failed (List String)}
    {parent : Option CtxErr} {turns : List (Turn F)} {rep : Report F}
    (h : r.run go lookup parent turns = some ret) (hrep : ret.report = some rep) : P rep := by
  unfold Runner.run at h
  split at h
  · cases h
    cases hrep
  · exact runScenarios_invariant happend h hrep h0

end

end Invariant

end Sortie.Run
