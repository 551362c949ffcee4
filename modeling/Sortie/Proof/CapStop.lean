import Sortie.Lib.Run
import Sortie.Proof.Verdict

/-!
# A stage stopped at an execution cap

The context of a stage ends once, and what ended it first stays its cause. So a
cause that one execution has read is still there when the group returns, and the
refusal every report is given is the first that was recorded. The executions that
had their report before it came are rewritten when all have joined: there is one
cause, and one error for the whole stage.
-/

namespace Sortie.Run

open Proto Api Nh Plan Checks

variable {F : Type} {pool : Pool}
variable {w : Stage F} {group : List Execution} {r : Runner} {ths : List (Threshold F)}
  {er : ExecutionReport F}
variable {w' : Stage F} {ev : Event F}

/-! ## What one event does -/

@[simp] theorem Stage.refuse_members (w : Stage F) (x : Option (String × BusyError)) :
    (w.refuse pool x).members = w.members := by
  cases x <;> rfl

/-- The caller's context ends, or one execution acts. -/
inductive Stage.Steps (pool : Pool) (w : Stage F) : Event F → Stage F → Prop where
  | parentEnds {err : CtxErr} : w.parent = none → Steps pool w (.parentEnds err) (w.endParent err)
  | member {i : Nat} {a : Action F} {m m' : Member F} : w.members[i]? = some m →
      m.act pool (w.refuse pool (m.refusal pool a)).cause a = some m' →
      Steps pool w (.member i a)
        { w.refuse pool (m.refusal pool a) with members := w.members.set i m' }

theorem Stage.steps (h : w.step pool ev = some w') : Stage.Steps pool w ev w' := by
  cases ev with
  | parentEnds err =>
    simp only [Stage.step] at h
    split at h
    · rename_i halive
      cases h
      exact .parentEnds (Option.isNone_iff_eq_none.mp halive)
    · cases h
  | member i a =>
    obtain ⟨m, hm, h⟩ := Option.bind_eq_some_iff.mp h
    obtain ⟨m', hact, h⟩ := Option.bind_eq_some_iff.mp h
    cases h
    rw [Stage.refuse_members]
    exact .member hm hact

/-! ## What an execution has seen -/

/-- What an execution has read of the stage's context is its cause. -/
structure Member.Saw (cause : Option Cause) (m : Member F) : Prop where
  read : ∀ c, m.phase = .causeRead (some c) → cause = some c
  taken : ∀ c, m.observed.taken = .ended c → cause = some c

/-- A cause stays, so what was read of it stays true. -/
theorem Member.Saw.mono {cause cause' : Option Cause} {m : Member F} (h : m.Saw cause)
    (hmono : ∀ c, cause = some c → cause' = some c) : m.Saw cause' :=
  ⟨fun c hc => hmono c (h.read c hc), fun c hc => hmono c (h.taken c hc)⟩

theorem beginning_ne (e : Execution) :
    (∀ c, beginning pool e ≠ .causeRead c) ∧ ∀ bad n, beginning pool e ≠ .handling bad n := by
  unfold beginning
  split
  · simp
  · simp
  · split <;> simp

/-- The failed targets of a conversation with a distributor. -/
def failedTargets (pool : Pool) (dial : Option GoError) (c : Conversation F) : List TargetError :=
  match dial, distributePartial pool.targets c with
  | none, .ok d => d.failed
  | _, _ => []

theorem afterConnect_eq (dial : Option GoError) (c : Conversation F) :
    afterConnect pool dial c = .handling (failedTargets pool dial c) 0
      ∨ afterConnect pool dial c = .dispatched := by
  unfold afterConnect failedTargets
  cases dial <;> cases distributePartial pool.targets c <;> simp

/-- An action keeps the execution it belongs to. -/
theorem Member.act_execution {cause : Option Cause} {m m' : Member F} {a : Action F}
    (h : m.act pool cause a = some m') : m'.execution = m.execution := by
  revert h
  fun_cases Member.act pool cause m a <;> intro h <;> cases h <;> rfl

/-- It reads nothing of the stage's context but the cause there is. -/
theorem Member.act_saw {cause : Option Cause} {m m' : Member F} {a : Action F}
    (hsaw : m.Saw cause) (h : m.act pool cause a = some m') : m'.Saw cause := by
  revert h
  fun_cases Member.act pool cause m a <;> intro h <;> cases h <;> refine ⟨fun c hc => ?_, ?_⟩
  case case1.refl.refine_1 => exact absurd hc ((beginning_ne _).1 _)
  case case6.refl.refine_1 dial x _ =>
    rcases afterConnect_eq dial x with heq | heq <;> exact absurd (heq.symm.trans hc) nofun
  case case13.refl.refine_1 => exact Phase.causeRead.inj hc
  case case15.refl.refine_2 read hread =>
    intro c hc
    -- the read cause is what is taken up, and it is the one there is
    cases read with
    | none => cases cause <;> exact absurd hc (by simp [takenUp])
    | some c' =>
      obtain rfl := Taken.ended.inj hc
      exact hsaw.read c' hread
  all_goals first | exact hsaw.taken | exact absurd hc (by simp)

/-! ## What the events say -/

/-- What the events of a group say by themselves: whether the caller's context has ended, which
failed targets an execution has still to look at, and who refused before that end. -/
structure Heard where
  ended : Bool
  unseen : Nat → List TargetError := fun _ => []
  refused : List (String × BusyError) := []

namespace Heard

variable (pool : Pool) (group : List Execution) (h : Heard)

/-- A refusal counts until the caller's context has ended. -/
def refuse (x : Option (String × BusyError)) : Heard :=
  if h.ended then h else { h with refused := h.refused ++ x.toList }

/-- An exchange ends in a refusal, or the target that is looked at has refused. -/
def refusal (i : Nat) : Action F → Option (String × BusyError)
  | .exchange k x _ => x.refusal.map fun busy =>
      ((group[i]?.map fun e => addrOf pool e k).getD "", busy)
  | .handle _ => (h.unseen i).head?.bind fun b => b.err.asBusy.map fun busy => (b.target, busy)
  | _ => none

/-- The failed targets that are left after an action of execution `i`. -/
def left (i : Nat) : Action F → List TargetError
  | .connect dial c => failedTargets pool dial c
  | .handle _ => (h.unseen i).tail
  | _ => h.unseen i

def hear : Event F → Heard
  | .parentEnds _ => { h with ended := true }
  | .member i a => { h.refuse (h.refusal pool group i a) with
      unseen := Function.update h.unseen i (h.left pool i a) }

/-- All that the events of a group say. -/
def all (parent : Option CtxErr) (events : List (Event F)) : Heard :=
  events.foldl (hear pool group) { ended := parent.isSome }

end Heard

/-- The error of a group of which someone refused a start. -/
def refusedAs (pool : Pool) (group : List Execution) (x : String × BusyError) : CapError where
  backend := x.1
  max := x.2.max
  needed := group.length
  distributed := pool.distributor != ""
  err := x.2

/-- A stage after events that say this. -/
structure Stage.Follows (pool : Pool) (group : List Execution) (h : Heard) (w : Stage F) :
    Prop where
  /-- the executions are those of the group -/
  members : w.members.map Member.execution = group
  ended : h.ended = w.parent.isSome
  unseen : ∀ i m bad n, w.members[i]? = some m → m.phase = .handling bad n → h.unseen i = bad
  refusals : w.refusals = h.refused.map (refusedAs pool group)

theorem Stage.Follows.init (parent : Option CtxErr) (group : List Execution) :
    (Stage.init parent group : Stage F).Follows pool group { ended := parent.isSome } where
  members := by
    rw [Stage.init, List.map_map]
    exact List.map_id group
  ended := rfl
  unseen := by
    intro i m bad n hm hphase
    obtain ⟨e, -, rfl⟩ := List.mem_map.mp (List.mem_of_getElem? hm)
    cases hphase
  refusals := rfl

section

variable {h : Heard} {i : Nat} {m m' : Member F} {a : Action F} {cause : Option Cause}

theorem Stage.Follows.refuse (hw : w.Follows pool group h) (x : Option (String × BusyError)) :
    (w.refuse pool x).refusals = (h.refuse x).refused.map (refusedAs pool group) := by
  have hlen : w.members.length = group.length := by
    rw [← hw.members, List.length_map]
  unfold Heard.refuse
  rw [hw.ended]
  cases x <;> cases hp : w.parent <;>
    simp [Stage.refuse, hp, hw.refusals, refusedAs, Stage.capError, hlen]

/-- Who refuses is told by the action, and by those before it. -/
theorem Stage.Follows.refusal (hw : w.Follows pool group h) (hm : w.members[i]? = some m)
    (hact : m.act pool cause a = some m') :
    m.refusal pool a = h.refusal pool group i a := by
  cases a with
  | exchange k x deadlinePassed =>
    have hexec : group[i]? = some m.execution := by
      rw [← hw.members, List.getElem?_map, hm]
      rfl
    simp only [Member.refusal, Heard.refusal, hexec]
    rfl
  | handle deadlinePassed =>
    dsimp only [Member.act] at hact
    split at hact
    · rename_i b bad n hphase
      simp only [Member.refusal, Heard.refusal, hphase, hw.unseen i m _ _ hm hphase]
      rfl
    · cases hact
  | _ => rfl

theorem Stage.Follows.left {bad : List TargetError} {n : Nat} (hw : w.Follows pool group h)
    (hm : w.members[i]? = some m) (hact : m.act pool cause a = some m')
    (hphase : m'.phase = .handling bad n) : h.left pool i a = bad := by
  revert hact
  fun_cases Member.act pool cause m a <;> intro hact <;> cases hact
  case case1 => exact absurd hphase ((beginning_ne _).2 _ _)
  case case6 dial c _ =>
    rcases afterConnect_eq dial c with heq | heq
    · exact (Phase.handling.inj (heq.symm.trans hphase)).1
    · exact absurd (heq.symm.trans hphase) nofun
  case case8 hold _ =>
    obtain ⟨rfl, -⟩ := Phase.handling.inj hphase
    exact congrArg List.tail (hw.unseen i m _ _ hm hold)
  all_goals cases hphase

/-- What a stage has recorded, its events say. -/
theorem Stage.Follows.step (hw : w.Follows pool group h) (hs : w.step pool ev = some w') :
    w'.Follows pool group (h.hear pool group ev) := by
  cases Stage.steps hs with
  | parentEnds _ => exact ⟨hw.members, rfl, hw.unseen, hw.refusals⟩
  | @member i a m m' hm hact =>
    have hrefusal := hw.refusal hm hact
    have hparent : ∀ x, (w.refuse pool x).parent = w.parent ∧ (h.refuse x).ended = h.ended := by
      intro x
      constructor
      · cases x <;> rfl
      · unfold Heard.refuse
        split <;> rfl
    refine ⟨?_, ?_, ?_, hrefusal ▸ hw.refuse _⟩
    · obtain ⟨hi, heq⟩ := List.getElem?_eq_some_iff.mp hm
      rw [List.map_set, Member.act_execution hact, ← heq,
        ← List.getElem_map Member.execution (h := by simpa using hi), List.set_getElem_self,
        hw.members]
    · exact (hparent _).2.trans (hw.ended.trans (congrArg _ (hparent _).1.symm))
    · intro j mj bad n hj hphase
      by_cases hij : i = j
      · subst hij
        rw [List.getElem?_set_self (List.getElem?_eq_some_iff.mp hm).1] at hj
        cases hj
        exact (Function.update_self ..).trans (hw.left hm hact hphase)
      · rw [List.getElem?_set_ne hij] at hj
        exact (Function.update_of_ne (Ne.symm hij) ..).trans (hw.unseen j mj bad n hj hphase)

theorem Stage.Follows.run {parent : Option CtxErr} {events : List (Event F)}
    (hrun : events.foldlM (Stage.step pool) (Stage.init parent group) = some w) :
    w.Follows pool group (Heard.all pool group parent events) := by
  have hsteps := Lts.Run.of_foldlM hrun
  clear hrun
  induction hsteps with
  | nil => exact .init parent group
  | snoc _ hs ih =>
    unfold Heard.all
    rw [List.foldl_append]
    exact ih.step hs

end

/-! ## The invariant of a stage -/

/-- What holds of the stage of a group in every state. -/
structure Stage.Inv (w : Stage F) : Prop where
  /-- the first refusal recorded has ended the context, or else the caller's context has -/
  cause : w.cause = (w.refusals.head?.map Cause.cap).or (w.parent.map Cause.parent)
  saw : ∀ m ∈ w.members, m.Saw w.cause

theorem Stage.Inv.init (parent : Option CtxErr) (group : List Execution) :
    (Stage.init parent group : Stage F).Inv where
  cause := rfl
  saw := by
    intro m hm
    obtain ⟨e, -, rfl⟩ := List.mem_map.mp hm
    exact ⟨fun c hc => absurd hc (by simp), fun c hc => absurd hc (by simp)⟩

/-- A refusal keeps the invariant. -/
theorem Stage.Inv.refuse (h : w.Inv) (x : Option (String × BusyError)) :
    (w.refuse pool x).Inv := by
  obtain _ | ⟨backend, busy⟩ := x
  · exact h
  have hcause := h.cause
  refine ⟨?_, fun m hm => (h.saw m hm).mono fun c hc => by simp [Stage.refuse, hc]⟩
  -- a refusal that comes first is recorded, unless the caller's context had ended
  cases hp : w.parent <;> cases hr : w.refusals <;> simp [Stage.refuse, hp, hr, hcause]

/-- The caller's context ending keeps it. -/
theorem Stage.Inv.endParent (h : w.Inv) (halive : w.parent = none) (err : CtxErr) :
    (w.endParent err).Inv := by
  have hcause := h.cause
  refine ⟨?_, fun m hm => (h.saw m hm).mono fun c hc => by simp [Stage.endParent, hc]⟩
  simp [Stage.endParent, halive, hcause]

/-- **Every event keeps the invariant.** -/
theorem Stage.Inv.step (h : w.Inv) (hs : w.step pool ev = some w') : w'.Inv := by
  cases Stage.steps hs with
  | parentEnds halive => exact h.endParent halive _
  | @member i a m m' hm hact =>
    have hr : (w.refuse pool (m.refusal pool a)).Inv := h.refuse _
    have hsaw : ∀ m₁ ∈ w.members, m₁.Saw (w.refuse pool (m.refusal pool a)).cause :=
      fun m₁ hm₁ => hr.saw m₁ (by rw [Stage.refuse_members]; exact hm₁)
    refine ⟨hr.cause, fun m₁ hm₁ => ?_⟩
    rcases List.mem_or_eq_of_mem_set hm₁ with hold | rfl
    · exact hsaw m₁ hold
    · exact Member.act_saw (hsaw m (List.mem_of_getElem? hm)) hact

/-- The invariant holds whenever a group returns. -/
theorem Stage.Inv.run {parent : Option CtxErr} {events : List (Event F)}
    (h : events.foldlM (Stage.step pool) (Stage.init parent group) = some w) : w.Inv :=
  (Lts.Run.of_foldlM h).invariant (Stage.Inv.init parent group) fun _ _ _ ha hs => ha.step hs

/-! ## The reports -/

/-- A report that says its stage was stopped at a cap, and is judged by nothing. -/
structure ExecutionReport.StoppedBy (c : CapError) (er : ExecutionReport F) : Prop where
  err : er.err = some (.cap c)
  pass : er.pass = false
  set : er.set = none
  outcomes : er.outcomes = []
  refusals : ∀ f ∈ er.backendErrors, f.err.asBusy.isSome

theorem refusals_filter {failed : List BackendError} :
    ∀ f ∈ failed.filter BackendError.isRefusal, f.err.asBusy.isSome :=
  fun _ hf => (List.mem_filter.mp hf).2

/-- A dispatch fails with errors of its own, and none of them is a stage's. -/
theorem dispatch_error_asCap {go : Go F} {e : Execution} {o : Observed F} {err : RunError}
    (h : dispatch r go e pool o = .error (.error err)) : err.asCap = none := by
  unfold dispatch at h
  split at h
  · cases h
  · obtain rfl := Undispatched.error.inj (Except.error.inj h)
    rfl
  · split at h
    · split at h
      · obtain rfl := Undispatched.error.inj (Except.error.inj h)
        rfl
      · split at h
        · obtain rfl := Undispatched.error.inj (Except.error.inj h)
          rfl
        · cases h
    · cases h

/-- Judging finds no refusal of its own. -/
theorem judged_atCap {go : Go F} {d : Dispatched F} (her : er.err = none) :
    (judged go ths d er).atCap = none := by
  unfold judged
  by_cases hgot : (present d.answers).isEmpty = true
  · rw [if_pos hgot]
    by_cases hfailed : d.failed.isEmpty = true
    · rw [if_pos hfailed]
      rfl
    · rw [if_neg hfailed]
      rfl
  · rw [if_neg hgot]
    cases ResultSet.newSet ((present d.answers).map Prod.fst)
      ((present d.answers).map Prod.snd) with
    | error text => rfl
    | ok set =>
      rw [her]
      rfl

/-- The error of a report is a stage's only if its cause was read as the results were taken up. -/
theorem runExecution_atCap {go : Go F} {e : Execution} {o : Observed F}
    (h : runExecution r go e pool ths o = some er) {c : CapError} (hc : er.atCap = some c) :
    o.taken = .ended (.cap c) ∧ er.StoppedBy c := by
  rcases runExecution_some h with ⟨err, hd, rfl⟩ | ⟨d, -, rfl⟩
  · exact nomatch (dispatch_error_asCap hd).symm.trans hc
  · cases htaken : o.taken with
    | alive =>
      rw [htaken] at hc
      exact nomatch (judged_atCap rfl).symm.trans hc
    | endedBetween cause =>
      rw [htaken] at hc
      exact absurd hc
        (by simp [takeUp, Taken.cause, Taken.err, ExecutionReport.atCap, RunError.asCap])
    | ended cause =>
      rw [htaken] at hc
      cases cause with
      | parent err =>
        exact absurd hc
          (by simp [takeUp, Taken.cause, Taken.err, ExecutionReport.atCap, RunError.asCap])
      | cap c' =>
        obtain rfl : c' = c := Option.some.inj hc
        exact ⟨rfl, rfl, rfl, rfl, rfl, refusals_filter⟩

/-- Rewriting a report for a refusal it came before. -/
theorem stopped_stoppedBy {c : CapError} (h : er.atCap = some c → er.StoppedBy c) :
    (stopped c er).StoppedBy c := by
  unfold stopped
  split
  · rename_i hc
    exact h hc
  · exact ⟨rfl, rfl, rfl, rfl, refusals_filter⟩

/-- What every execution of a group has reported by the time it returns. -/
theorem Stage.reports_ok {go : Go F} {reports : List (ExecutionReport F)}
    (h : w.reports r go pool ths = some reports) :
    ∃ own, List.Forall₂ (fun m er => runExecution r go m.execution pool ths m.observed = some er)
        w.members own
      ∧ reports = match w.cause with
        | some (.cap c) => own.map (stopped c)
        | _ => own := by
  unfold Stage.reports at h
  split at h
  · obtain ⟨own, hown, h⟩ := Option.bind_eq_some_iff.mp h
    refine ⟨own, mapM_some hown, ?_⟩
    cases hw : w.cause with
    | none =>
      rw [hw] at h
      exact (Option.some.inj h).symm
    | some cause =>
      rw [hw] at h
      cases cause <;> exact (Option.some.inj h).symm
  · cases h

/--
**A stage stopped at a cap is stopped for all its executions alike.**

For every group, pool and interleaving, when the group returns: the refusals recorded
are those of its events before the caller's context ended. Either there is none, and
no report carries one, or the first one is the error of every report, none of them is
judged, and of the backends only those that refused are named.
-/
theorem stage_stopped_alike {r : Runner} {go : Go F} {ths : List (Threshold F)}
    {parent : Option CtxErr} {group : List Execution} {events : List (Event F)} {w : Stage F}
    {reports : List (ExecutionReport F)}
    (hrun : events.foldlM (Stage.step pool) (Stage.init parent group) = some w)
    (hret : w.reports r go pool ths = some reports) :
    w.refusals = (Heard.all pool group parent events).refused.map (refusedAs pool group)
    ∧ ((w.refusals = [] ∧ ∀ er ∈ reports, er.atCap = none)
      ∨ ∃ c, w.refusals.head? = some c ∧ c.needed = group.length
        ∧ ∀ er ∈ reports, er.StoppedBy c) := by
  have hinv := Stage.Inv.run hrun
  have hfollows := Stage.Follows.run hrun
  refine ⟨hfollows.refusals, ?_⟩
  obtain ⟨own, hown, hreports⟩ := Stage.reports_ok hret
  -- a refusal in an execution's own report is the cause the stage still has
  have hcause : ∀ er ∈ own, ∀ c, er.atCap = some c → w.cause = some (.cap c) ∧ er.StoppedBy c := by
    intro er her c hc
    obtain ⟨m, hm, hreport⟩ := exists_left hown her
    obtain ⟨htaken, hstopped⟩ := runExecution_atCap hreport hc
    exact ⟨(hinv.saw m hm).taken _ htaken, hstopped⟩
  cases hr : w.refusals with
  | nil =>
    have hne : ∀ c, w.cause ≠ some (.cap c) := by simp [hinv.cause, hr]
    have hsame : reports = own := by
      rw [hreports]
      split
      · exact absurd ‹_› (hne _)
      · rfl
    refine Or.inl ⟨rfl, fun er her => Option.eq_none_iff_forall_ne_some.mpr fun c hc => ?_⟩
    exact hne c (hcause er (hsame ▸ her) c hc).1
  | cons c cs =>
    have hw : w.cause = some (.cap c) := by
      rw [hinv.cause, hr]
      rfl
    rw [hw] at hreports
    subst hreports
    have hneeded : ∀ c ∈ w.refusals, c.needed = group.length := by
      rw [hfollows.refusals]
      exact List.forall_mem_map.mpr fun _ _ => rfl
    refine Or.inr ⟨c, rfl, hneeded c (hr ▸ List.mem_cons_self), fun er her => ?_⟩
    obtain ⟨before, hbefore, rfl⟩ := List.mem_map.mp her
    exact stopped_stoppedBy fun hc => (hcause before hbefore c hc).2

/-- The whole course of one execution on one service. -/
def courseOf (i : Nat) (x : Exchange Unit) : List (Event Unit) :=
  [.member i (.begin 0), .member i (.exchange 0 x false), .member i .join, .member i .readCause,
    .member i .readErr]

/-- Two targets: the first has its report, and passes, before the second is refused. -/
theorem stage_stopped_after_pass :
    ∃ (w : Stage Unit) (reports : List (ExecutionReport Unit)) (c : CapError),
    (courseOf 0 (.executed (some { results := [{ name := "global" }] }) none)
        ++ courseOf 1
          (.executed none (some (.busy 1 (.status Code.resourceExhausted "busy"))))).foldlM
      (Stage.step oneService) (Stage.init none [tenSeconds, tenSeconds]) = some w
    ∧ w.reports { plan := {} } Go.bare oneService [] = some reports ∧ reports.length = 2
    ∧ c.needed = 2 ∧ ∀ er ∈ reports, er.StoppedBy c := by
  obtain ⟨w, reports, hrun, hret, hlen, hone⟩ :
      ∃ (w : Stage Unit) (reports : List (ExecutionReport Unit)),
      (courseOf 0 (.executed (some { results := [{ name := "global" }] }) none)
        ++ courseOf 1
          (.executed none (some (.busy 1 (.status Code.resourceExhausted "busy"))))).foldlM
        (Stage.step oneService) (Stage.init none [tenSeconds, tenSeconds]) = some w
      ∧ w.reports { plan := {} } Go.bare oneService [] = some reports ∧ reports.length = 2
      ∧ w.refusals.length = 1 := ⟨_, _, rfl, rfl, rfl, rfl⟩
  rcases (stage_stopped_alike hrun hret).2 with ⟨hnone, -⟩ | ⟨c, -, hneeded, hall⟩
  · rw [hnone] at hone
    cases hone
  · exact ⟨w, reports, c, hrun, hret, hlen, hneeded, hall⟩

end Sortie.Run
