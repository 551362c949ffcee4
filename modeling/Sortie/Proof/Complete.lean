import Sortie.Proof.CapStop

/-!
# The report of a run is complete

A run goes through the groups of a scenario in order. A round either adds the
reports of its group, or, when the group was refused at a cap, those and a report
for every execution that is left, and then the scenario is over. `Listed` says what
that leaves in the report, group by group; the theorem at the end says it for a
whole plan, and for a run that the caller's context cut short.
-/

namespace Sortie.Run

open Proto Api Nh Plan Checks

variable {F : Type} {r : Runner} {go : Go F} {pool : Pool}
variable {er : ExecutionReport F} {ths : List (Threshold F)} {reports : List (ExecutionReport F)}
  {gs : List (List Execution)} {rs : List (List (ExecutionReport F))} {p : Progress F}

/-! ## Whose report it is -/

/-- A report without its verdict. -/
def ExecutionReport.bare (er : ExecutionReport F) : ExecutionReport F :=
  { er with set := none, outcomes := [], pass := false, backendErrors := [], err := none }

/-- The report of an execution: apart from the verdict it says what was planned. -/
def ReportOf (pool : Pool) (e : Execution) (er : ExecutionReport F) : Prop :=
  er.bare = planned e pool

/-- A report that carries a refusal of its own stage. -/
def ExecutionReport.Refused (er : ExecutionReport F) : Prop := ∃ c, er.err = some (.cap c)

/-- What a scenario leaves in the report: groups that ran, and after a refused one none that did. -/
inductive Listed (pool : Pool) :
    List (List Execution) → List (List (ExecutionReport F)) → Prop where
  | nil : Listed pool [] []
  | ran {group : List Execution} {reports : List (ExecutionReport F)} {gs : List (List Execution)}
      {rs : List (List (ExecutionReport F))} : List.Forall₂ (ReportOf pool) group reports →
      (∀ er ∈ reports, er.notRun = false) → (∀ er ∈ reports, ¬er.Refused) → Listed pool gs rs →
      Listed pool (group :: gs) (reports :: rs)
  | refused {group : List Execution} {reports : List (ExecutionReport F)}
      {gs : List (List Execution)} {rs : List (List (ExecutionReport F))} :
      List.Forall₂ (ReportOf pool) group reports → (∀ er ∈ reports, er.notRun = false) →
      (∃ er ∈ reports, er.Refused) → List.Forall₂ (List.Forall₂ (ReportOf pool)) gs rs →
      (∀ reports' ∈ rs, ∀ er ∈ reports', er.notRun = true) →
      Listed pool (group :: gs) (reports :: rs)

/-- One report for every execution, group by group. -/
theorem Listed.each (h : Listed pool gs rs) :
    List.Forall₂ (List.Forall₂ (ReportOf pool)) gs rs := by
  induction h with
  | nil => exact List.Forall₂.nil
  | ran hgroup _ _ _ ih => exact List.Forall₂.cons hgroup ih
  | refused hgroup _ _ hrest _ => exact List.Forall₂.cons hgroup hrest

/-- The report of an execution in group `i` was made because an earlier group was refused. -/
def AfterRefusal (rs : List (List (ExecutionReport F))) (i : Nat) : Prop :=
  ∃ j < i, ∃ reports, rs[j]? = some reports ∧ ∃ er ∈ reports, er.Refused

theorem not_afterRefusal_zero : ¬ AfterRefusal rs 0 := by
  rintro ⟨j, hj, -⟩
  exact absurd hj (Nat.not_lt_zero j)

/-- **An execution is not run exactly when an earlier group of its scenario was refused.** -/
theorem Listed.notRun_iff (h : Listed pool gs rs) {i : Nat} (hi : rs[i]? = some reports)
    (her : er ∈ reports) : er.notRun = true ↔ AfterRefusal rs i := by
  induction h generalizing i with
  | nil => exact absurd hi (by simp)
  | @ran group first gs rs hgroup hran hnone _ ih =>
    cases i with
    | zero =>
      cases hi
      exact iff_of_false (by simp [hran er her]) not_afterRefusal_zero
    | succ i =>
      -- the first group was not refused, so the question is one about the others
      rw [ih hi]
      constructor
      · rintro ⟨j, hj, rest⟩
        exact ⟨j + 1, Nat.succ_lt_succ hj, rest⟩
      · rintro ⟨j, hj, reports', hj', er', her', href⟩
        cases j with
        | zero =>
          cases hj'
          exact absurd href (hnone er' her')
        | succ j => exact ⟨j, Nat.lt_of_succ_lt_succ hj, reports', hj', er', her', href⟩
  | @refused group first gs rs hgroup hran href _ hrest =>
    cases i with
    | zero =>
      cases hi
      exact iff_of_false (by simp [hran er her]) not_afterRefusal_zero
    | succ i =>
      have hmem : reports ∈ rs := List.mem_of_getElem? hi
      exact iff_of_true (hrest reports hmem er her) ⟨0, Nat.succ_pos i, first, rfl, href⟩

/-- The reports a run has added since, and what its observer has heard of them. -/
structure Progress.Adds (r : Runner) (p p' : Progress F) (reports : List (ExecutionReport F)) :
    Prop where
  executions : p'.report.executions = p.report.executions ++ reports
  finished : p'.finished = if r.observer then p.finished ++ reports else p.finished

theorem Progress.Adds.refl (p : Progress F) : p.Adds r p [] where
  executions := (List.append_nil _).symm
  finished := by
    rw [List.append_nil]
    split <;> rfl

theorem Progress.Adds.trans {p' p'' : Progress F} {xs ys : List (ExecutionReport F)}
    (h : p.Adds r p' xs) (h' : p'.Adds r p'' ys) : p.Adds r p'' (xs ++ ys) where
  executions := by rw [h'.executions, h.executions, List.append_assoc]
  finished := by
    rw [h'.finished, h.finished]
    split
    · rw [List.append_assoc]
    · rfl

/-- How the groups of a scenario, or the first of them, stand in a report. -/
structure ScenarioListed (pool : Pool) (gs : List (List Execution))
    (rs : List (List (ExecutionReport F))) : Prop where
  /-- every execution is listed once, in order -/
  each : List.Forall₂ (ReportOf pool) gs.flatten rs.flatten
  notRun : ∀ i reports, rs[i]? = some reports → ∀ er ∈ reports,
    (er.notRun = true ↔ AfterRefusal rs i)

theorem flatten_listed (h : List.Forall₂ (List.Forall₂ (ReportOf pool)) gs rs) :
    List.Forall₂ (ReportOf pool) gs.flatten rs.flatten := by
  induction h with
  | nil => exact List.Forall₂.nil
  | cons hgroup _ ih => exact List.rel_append hgroup ih

theorem Listed.scenario (h : Listed pool gs rs) : ScenarioListed pool gs rs :=
  ⟨flatten_listed h.each, fun _ _ hi _ her => h.notRun_iff hi her⟩

end Sortie.Run
