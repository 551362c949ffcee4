import Sortie.Proof.BackendSegments
import Sortie.Proof.Division

/-!
# The metric series of a plan

`validateStatsPrefixes` refuses a plan in which two executions would emit their metrics
under one prefix. The prefix it compares is the execution's; what is emitted has the
backend after it, on pools that send each backend its own options, and has none on a
distributor, whose targets share one options object.

So prefixes that are checked to be different are not all that is needed: the prefix of an
execution on a distributor can be that of another one followed by one of its backends.
-/

namespace Sortie.Proof

open Proto Api Plan Compile Checks

variable {F : Type} {go : Go F}
variable {st : Stats} {backend label : String} {o : CommandLineOptions} {e : Execution}
  {ex : Executor} {execs : List Execution} {p : Plan}

/-! ## The prefix in an options object -/

/-- The prefix of a statsd sink, in the engine's adapter. -/
def sinkPrefix (sink : StatsSink) : Option String :=
  match sink.typedConfig with
  | some (.envoyStatsSinkAdapter _ (some (.statsd sd))) => some sd.metricPrefix
  | _ => none

/-- The prefix of the statsd sink of a stats block, which stands before the block's own sinks and
after those of a template. -/
def writtenPrefix (st : Stats) (o : CommandLineOptions) : Option String :=
  o.statsSinks[o.statsSinks.length - (st.sinks.length + 1)]?.bind sinkPrefix

/-- The prefix an execution emits under, before any backend. -/
def executionPrefix (st : Stats) (label : String) : String := statsPrefix st.metricPrefix label

/-- A prefix and the backend after it. -/
def withBackend (first backend : String) : String := first ++ "." ++ backend

theorem length_passthroughSinks : ∀ {sinks out : List StatsSink} {i : Nat},
    passthroughSinks sinks i = .ok out → out.length = sinks.length := by
  intro sinks
  induction sinks with
  | nil =>
    intro out i h
    rw [← Except.ok.inj h]
  | cons sink sinks ih =>
    intro out i h
    unfold passthroughSinks at h
    split at h
    · cases h
    · obtain ⟨rest, hrest, h⟩ := bind_ok_iff.mp h
      rw [← Except.ok.inj h, List.length_cons, List.length_cons, ih hrest]

/-- The sinks of a block with a statsd sink: that one, and then as many as the block lists. -/
theorem statsSinks_statsd {sinks : List StatsSink} (hsd : st.statsd.isSome = true)
    (h : statsSinks st label backend = .ok sinks) :
    ∃ sink through, sinks = sink :: through ∧ through.length = st.sinks.length
      ∧ sinkPrefix sink = some (if backend = "" then executionPrefix st label
        else withBackend (executionPrefix st label) backend) := by
  obtain ⟨statsd, hstatsd, h⟩ := bind_ok_iff.mp h
  obtain ⟨through, hthrough, h⟩ := bind_ok_iff.mp h
  obtain ⟨sd, hsome⟩ := Option.isSome_iff_exists.mp hsd
  unfold statsdSinks at hstatsd
  rw [hsome] at hstatsd
  obtain ⟨address, -, hstatsd⟩ := bind_ok_iff.mp hstatsd
  cases hstatsd
  exact ⟨_, through, (Except.ok.inj h).symm, length_passthroughSinks hthrough, rfl⟩

theorem writtenPrefix_append {before through : List StatsSink} {sink : StatsSink}
    (h : o.statsSinks = before ++ sink :: through) (hlen : through.length = st.sinks.length) :
    writtenPrefix st o = sinkPrefix sink := by
  have hat : o.statsSinks.length - (st.sinks.length + 1) = before.length := by
    rw [h, List.length_append, List.length_cons, hlen]
    omega
  unfold writtenPrefix
  rw [hat, h, List.getElem?_append_right (Nat.le_refl _), Nat.sub_self]
  rfl

/-- Rebuilding the sinks for a backend writes its prefix. -/
theorem writtenPrefix_restat {o' : CommandLineOptions} (hsd : st.statsd.isSome = true)
    (hne : backend ≠ "") (h : restat st label backend o = .ok o') :
    writtenPrefix st o' = some (withBackend (executionPrefix st label) backend) := by
  obtain ⟨sinks, hsinks, h⟩ := bind_ok_iff.mp h
  obtain ⟨sink, through, rfl, hlen, hfirst⟩ := statsSinks_statsd hsd (mapError_ok_iff.mp hsinks)
  split at h
  · cases h
  · rw [if_neg hne] at hfirst
    have hlast : o'.statsSinks
        = o.statsSinks.take (o.statsSinks.length - (sink :: through).length)
          ++ sink :: through := by
      rw [← Except.ok.inj h]
    rw [writtenPrefix_append hlast hlen, hfirst]

theorem writtenPrefix_restatEach (hsd : st.statsd.isSome = true) :
    ∀ {components : List String} {opts opts' : List CommandLineOptions},
    (∀ c ∈ components, c ≠ "") → components.length = opts.length →
    restatEach st label components opts = .ok opts' →
    opts'.map (writtenPrefix st)
      = (components.map (withBackend (executionPrefix st label))).map some := by
  intro components
  induction components with
  | nil =>
    intro opts opts' _ hlen h
    obtain rfl := List.length_eq_zero_iff.mp hlen.symm
    rw [← Except.ok.inj h]
    rfl
  | cons c cs ih =>
    intro opts opts' hne hlen h
    cases opts with
    | nil => exact absurd hlen (by simp)
    | cons o opts =>
      obtain ⟨o', ho, h⟩ := bind_ok_iff.mp h
      obtain ⟨rest, hrest, h⟩ := bind_ok_iff.mp h
      rw [← Except.ok.inj h, List.map_cons, List.map_cons, List.map_cons,
        writtenPrefix_restat hsd (hne c List.mem_cons_self) ho,
        ih (fun c' hc' => hne c' (List.mem_cons_of_mem _ hc')) (Nat.succ.inj hlen) hrest]

/-! ## What an execution emits on a pool -/

/-- The addresses of the backends of a pool. -/
def backendsOf (pool : Pool) : List String :=
  if pool.distributor ≠ "" then pool.targets else pool.services

/-- One options object stands for several targets, and names none of them. -/
def LeavesOut (pool : Pool) : Prop := pool.distributor ≠ "" ∧ pool.targets.length ≠ 1

instance (pool : Pool) : Decidable (LeavesOut pool) := inferInstanceAs (Decidable (_ ∧ _))

/-- The backends a pool's prefixes name, if they do. -/
def namedBackends (pool : Pool) : Option (List String) :=
  if LeavesOut pool then none else some (backendSegments (backendsOf pool))

variable {pool : Pool} {v s : Scenario}

theorem namedBackends_eq_none : namedBackends pool = none ↔ LeavesOut pool := by
  unfold namedBackends
  split <;> simp_all

theorem namedBackends_eq_some {names : List String} :
    namedBackends pool = some names ↔
      ¬ LeavesOut pool ∧ backendSegments (backendsOf pool) = names := by
  unfold namedBackends
  split <;> simp_all

/-- The stats block of an execution sends to statsd, and names backends by their addresses. -/
def ByAddress (st : Stats) : Prop := st.statsd.isSome = true ∧ st.backend ≠ statsBackendName

/-- **The prefixes of the options an execution sends to a pool.** -/
theorem writtenPrefix_forPool {addrs : List String} {opts : List CommandLineOptions}
    (hst : e.stats = some st) (hby : ByAddress st) (hsinks : CarriesSinks e st)
    (hresolved : unresolved pool = false) (h : forPool e pool = .ok (addrs, opts)) :
    opts.map (writtenPrefix st)
      = (Naming.names withBackend (executionPrefix st e.label) (namedBackends pool)).map some := by
  obtain ⟨hsd, haddress⟩ := hby
  have hcomponents : ∀ (as : List String) (n : Nat), backendComponents (some st) as n
      = if n = as.length then backendSegments as else [] := by
    intro as n
    unfold backendComponents
    simp only [if_neg haddress]
  -- with one options object for each backend, each has its own name in it
  have hnamed : ∀ {as : List String} {before : List CommandLineOptions},
      before.length = as.length → restatAll e.stats e.label as before = .ok opts →
      opts.map (writtenPrefix st)
        = ((backendSegments as).map (withBackend (executionPrefix st e.label))).map some := by
    intro as before hlen hre
    unfold restatAll at hre
    rw [hst] at hre
    simp only [hcomponents, if_pos hlen] at hre
    refine writtenPrefix_restatEach hsd (goodNames_backendSegments as).ne_empty ?_ hre
    rw [length_backendSegments, hlen]
  by_cases hdist : pool.distributor = ""
  · have hnot : ¬ LeavesOut pool := fun h => h.1 hdist
    unfold forPool at h
    rw [if_neg (not_not.mpr hdist), if_neg (by rw [hresolved]; simp)] at h
    obtain ⟨divided, hdiv, h⟩ := bind_ok_iff.mp h
    obtain ⟨opts', hre, h⟩ := bind_ok_iff.mp h
    obtain ⟨-, rfl⟩ := Prod.mk.inj (Except.ok.inj h)
    have hlen : divided.length = pool.services.length := by
      obtain ⟨_, _, -, -, rfl⟩ := divide_ok hdiv
      rw [List.length_map, List.length_range]
    unfold namedBackends backendsOf
    rw [if_neg hnot, if_neg (not_not.mpr hdist)]
    exact hnamed hlen (mapError_ok_iff.mp hre)
  · rw [forPool_distributor hdist] at h
    obtain ⟨shared, hshare, h⟩ := bind_ok_iff.mp h
    obtain ⟨opts', hre, h⟩ := bind_ok_iff.mp h
    obtain ⟨-, rfl⟩ := Prod.mk.inj (Except.ok.inj h)
    by_cases hone : pool.targets.length = 1
    · unfold namedBackends backendsOf
      rw [if_neg (fun h : LeavesOut pool => h.2 hone), if_pos hdist]
      exact hnamed (by rw [hone]; rfl) (mapError_ok_iff.mp hre)
    · -- one object for several targets is left as it was compiled
      unfold namedBackends
      rw [if_pos ⟨hdist, hone⟩]
      have hopts : opts' = [shared] := by
        have hre := mapError_ok_iff.mp hre
        unfold restatAll at hre
        rw [hst] at hre
        simp only [hcomponents] at hre
        rw [if_neg (fun h => hone h.symm)] at hre
        exact (Except.ok.inj hre).symm
      obtain ⟨before, sinks, hcompiled, hlast⟩ := hsinks
      obtain ⟨sink, through, rfl, hlen, hfirst⟩ := statsSinks_statsd hsd hcompiled
      obtain ⟨-, -, rate, -, rfl⟩ := uniformShare_ok hshare
      rw [hopts]
      simp only [List.map_cons, List.map_nil, Naming.names, List.cons.injEq, and_true]
      rw [writtenPrefix_append (o := atRate e rate) hlast hlen, hfirst]
      rfl

/-! ## The labels of a scenario -/

/-- The labels of the executions of one variant are those its executor plans. -/
theorem labels_planned (h : Expanded go v ex execs) :
    execs.map Execution.label = (planned v ex).map Planned.label := by
  unfold Expanded at h
  generalize planned v ex = pls at h
  induction h with
  | nil => rfl
  | cons hhead _ ih => rw [List.map_cons, List.map_cons, ih, hhead.1.label]

/-- The labels `validateStatsPrefixes` expects of one variant. -/
def variantLabels (name : String) (ex : Executor) : List String :=
  if ex.type = staircase then
    (List.range ex.stages.length).map fun i => stageLabel name (i + 1)
  else [name]

theorem planned_labels (v : Scenario) (ex : Executor) :
    (planned v ex).map Planned.label = variantLabels v.name ex := by
  unfold planned variantLabels
  split
  · rw [List.map_map]
    have hfun : (Planned.label ∘ fun x : Stage × Nat => plannedStage v x.1 x.2)
        = (fun i => stageLabel v.name (i + 1)) ∘ Prod.snd := rfl
    rw [hfun, ← List.map_map, List.zipIdx_map_snd, List.range_eq_range']
  · rfl

theorem executionLabels_eq (s : Scenario) (ex : Executor) :
    executionLabels s ex = (variants s).flatMap fun v => variantLabels v.name ex := rfl

/-- Scaling the rates of an executor changes no label. -/
theorem variantLabels_scaled (name : String) (ex : Executor) (w total : UInt64) :
    variantLabels name (Executor.scaled ex w total) = variantLabels name ex := by
  unfold Executor.scaled
  split
  · unfold variantLabels
    simp only [List.length_map]
  · rfl

theorem labels_expandOne (hex : v.executor = some ex)
    (h : expandOne go v = .ok execs) : execs.map Execution.label = variantLabels v.name ex := by
  obtain ⟨ex', hex', hall⟩ := expandOne_ok h
  obtain rfl : ex = ex' := Option.some.inj (hex.symm.trans hex')
  rw [labels_planned hall, planned_labels]

theorem labels_expandTargets (hex : s.executor = some ex) :
    ∀ {ts : List Target} {execs : List Execution}, expandTargets go s ts = .ok execs →
    execs.map Execution.label = ts.flatMap fun t => variantLabels (variant s t).name ex := by
  intro ts
  induction ts with
  | nil =>
    intro execs h
    rw [← Except.ok.inj h]
    rfl
  | cons t ts ih =>
    intro execs h
    obtain ⟨part, hpart, h⟩ := bind_ok_iff.mp h
    obtain ⟨rest, hrest, h⟩ := bind_ok_iff.mp h
    have hvariant : (variant s t).executor
        = some (Executor.scaled ex (weightOf t).toUInt64 (totalWeight s.targets)) := by
      change s.executor.map _ = _
      rw [hex]
      rfl
    have hlabels : (part.map (ofTarget s t)).map Execution.label
        = variantLabels (variant s t).name ex := by
      rw [List.map_map]
      change part.map Execution.label = _
      rw [labels_expandOne hvariant hpart, variantLabels_scaled]
    rw [← Except.ok.inj h, List.map_append, hlabels, ih hrest, List.flatMap_cons]

/-- Reordering by stage repeats no label. -/
theorem nodup_byStage (h : (execs.map Execution.label).Nodup) :
    ((byStage execs).map Execution.label).Nodup := by
  unfold byStage
  dsimp only
  split
  · exact h
  · rw [List.map_flatMap]
    refine List.nodup_flatMap.mpr ⟨fun st _ => ?_, ?_⟩
    · exact h.sublist (List.filter_sublist.map _)
    · refine List.nodup_range.imp ?_
      intro i j hne label hi hj
      obtain ⟨e, he, hlabel⟩ := List.mem_map.mp hi
      obtain ⟨e', he', rfl⟩ := List.mem_map.mp hj
      obtain ⟨hmem, hstage⟩ := List.mem_filter.mp he
      obtain ⟨hmem', hstage'⟩ := List.mem_filter.mp he'
      -- one label is one execution, which has one stage
      obtain rfl := List.inj_on_of_nodup_map h hmem hmem' hlabel
      rw [beq_iff_eq] at hstage hstage'
      omega

/-- **The labels `expand` gives are the ones that were checked**, each once. -/
theorem labels_expand (hex : s.executor = some ex) (h : expand go s = .ok execs)
    (hnodup : (executionLabels s ex).Nodup) :
    (execs.map Execution.label).Nodup
      ∧ ∀ e ∈ execs, e.label ∈ executionLabels s ex := by
  obtain ⟨inner, hinner, h⟩ := bind_ok_iff.mp h
  cases h
  have hsame : (inner.map fun e => { e with stats := s.stats }).map Execution.label
      = inner.map Execution.label := by
    rw [List.map_map]
    rfl
  have hmem : ∀ {labels : List String}, (∀ l ∈ inner.map Execution.label, l ∈ labels) →
      ∀ e ∈ inner.map fun e => { e with stats := s.stats }, e.label ∈ labels := by
    intro labels hall e he
    refine hall e.label ?_
    rw [← hsame]
    exact List.mem_map_of_mem he
  rw [hsame]
  rw [executionLabels_eq] at hnodup ⊢
  unfold expandScenario at hinner
  unfold variants at hnodup ⊢
  split at hinner
  · rename_i hempty
    rw [if_pos hempty] at hnodup ⊢
    rw [List.flatMap_singleton] at hnodup ⊢
    have hlabels := labels_expandOne hex hinner
    exact ⟨hlabels ▸ hnodup, hmem fun l hl => hlabels ▸ hl⟩
  · rename_i hempty
    rw [if_neg hempty, List.flatMap_map] at hnodup
    rw [if_neg hempty, List.flatMap_map]
    obtain ⟨raw, hraw, hinner⟩ := bind_ok_iff.mp hinner
    cases hinner
    have hlabels := labels_expandTargets hex hraw
    rw [← hlabels] at hnodup ⊢
    refine ⟨nodup_byStage hnodup, hmem ?_⟩
    intro l hl
    obtain ⟨e, he, rfl⟩ := List.mem_map.mp hl
    exact List.mem_map_of_mem (mem_of_mem_byStage he)

/-! ## What the check says -/

/-- The stats block a scenario of a plan will have. -/
def effectiveStats (p : Plan) (s : Scenario) : Option Stats :=
  (s.stats.or (defaultsOf p).stats).or p.stats

/-- The executor a scenario of a plan will have. -/
def effectiveExecutor (p : Plan) (s : Scenario) : Option Executor :=
  s.executor.or (defaultsOf p).executor

/-- The prefixes the check holds against each other, those of one scenario. -/
def checkedPrefixes (p : Plan) (s : Scenario) : List String :=
  match effectiveStats p s with
  | some st =>
    if st.statsd.isSome then
      (executionLabels (inheritTargets (defaultsOf p) s) ((effectiveExecutor p s).getD {})).map
        (executionPrefix st)
    else []
  | none => []

theorem lookup_none {seen : List (String × String)} {key : String} (h : seen.lookup key = none) :
    key ∉ seen.map Prod.fst := by
  intro hmem
  obtain ⟨⟨k, v⟩, hkv, rfl⟩ := List.mem_map.mp hmem
  have := List.lookup_eq_none_iff.mp h ⟨k, v⟩ hkv
  simp at this

theorem claimPrefixes_ok {first : String} : ∀ {labels : List String}
    {seen seen' : List (String × String)}, claimPrefixes first seen labels = .ok seen' →
    (labels.map (statsPrefix first)).Nodup
      ∧ (∀ x ∈ labels.map (statsPrefix first), x ∉ seen.map Prod.fst)
      ∧ ∀ x, x ∈ seen'.map Prod.fst ↔
        x ∈ labels.map (statsPrefix first) ∨ x ∈ seen.map Prod.fst := by
  intro labels
  induction labels with
  | nil =>
    intro seen seen' h
    cases h
    exact ⟨List.nodup_nil, nofun, fun x => by simp⟩
  | cons label labels ih =>
    intro seen seen' h
    unfold claimPrefixes at h
    dsimp only at h
    split at h
    · cases h
    · rename_i hnone
      have hnew := lookup_none hnone
      obtain ⟨hnodup, havoid, hseen⟩ := ih h
      simp only [List.map_cons, List.mem_cons, not_or] at havoid hseen ⊢
      refine ⟨List.nodup_cons.mpr ⟨fun hmem => (havoid _ hmem).1 rfl, hnodup⟩, ?_, ?_⟩
      · rintro x (rfl | hx)
        · exact hnew
        · exact (havoid x hx).2
      · intro x
        rw [hseen x]
        tauto

/-- **The prefixes that were checked are different**, and new. -/
theorem validateStatsPrefixes_ok : ∀ {scenarios : List Scenario}
    {seen : List (String × String)}, validateStatsPrefixes p seen scenarios = .ok () →
    (scenarios.flatMap (checkedPrefixes p)).Nodup
      ∧ ∀ x ∈ scenarios.flatMap (checkedPrefixes p), x ∉ seen.map Prod.fst := by
  intro scenarios
  induction scenarios with
  | nil => exact fun _ => ⟨List.nodup_nil, nofun⟩
  | cons s rest ih =>
    intro seen h
    unfold validateStatsPrefixes at h
    dsimp only at h
    rw [List.flatMap_cons]
    have hskip : checkedPrefixes p s = [] → validateStatsPrefixes p seen rest = .ok () →
        (checkedPrefixes p s ++ rest.flatMap (checkedPrefixes p)).Nodup
          ∧ ∀ x ∈ checkedPrefixes p s ++ rest.flatMap (checkedPrefixes p),
            x ∉ seen.map Prod.fst := by
      intro hnil hrest
      rw [hnil, List.nil_append]
      exact ih hrest
    cases hst : effectiveStats p s with
    | none =>
      have hmatch : (s.stats.or (p.defaults.getD {}).stats).or p.stats = none := hst
      rw [hmatch] at h
      exact hskip (by unfold checkedPrefixes; rw [hst]) h
    | some st =>
      have hmatch : (s.stats.or (p.defaults.getD {}).stats).or p.stats = some st := hst
      rw [hmatch] at h
      dsimp only at h
      split at h
      · rename_i hsd
        obtain ⟨_, -, h⟩ := bind_ok_iff.mp h
        obtain ⟨seen', hclaim, h⟩ := bind_ok_iff.mp h
        have hchecked : checkedPrefixes p s = (executionLabels (inheritTargets (defaultsOf p) s)
            ((effectiveExecutor p s).getD {})).map (executionPrefix st) := by
          unfold checkedPrefixes
          rw [hst]
          exact if_pos hsd
        obtain ⟨hnodup, havoid, hseen⟩ := claimPrefixes_ok hclaim
        obtain ⟨hrest, hravoid⟩ := ih h
        rw [hchecked]
        refine ⟨List.nodup_append.mpr ⟨hnodup, hrest, ?_⟩, ?_⟩
        · rintro x hx y hy rfl
          exact hravoid x hy ((hseen x).mpr (Or.inl hx))
        · intro x hx
          rcases List.mem_append.mp hx with hx | hx
          · exact havoid x hx
          · exact fun hmem => hravoid x hx ((hseen x).mpr (Or.inr hmem))
      · rename_i hsd
        refine hskip ?_ h
        unfold checkedPrefixes
        rw [hst]
        exact if_neg hsd

/-! ## The series of a plan -/

/-- The executions of a scenario; none, if it does not compile. -/
def executionsOf (go : Go F) (s : Scenario) : List Execution := (expand go s).toOption.getD []

/-- The executions of a plan, with its defaults folded in. -/
def planExecutions (go : Go F) (p : Plan) : List Execution := p.scenarios.flatMap (executionsOf go)

/-- The statsd prefixes in the options an execution sends to a pool, if it names backends by their
addresses. -/
def emittedPrefixes (e : Execution) (pool : Pool) : List (Option String) :=
  match e.stats, forPool e pool with
  | some st, .ok (_, opts) =>
    if st.statsd.isSome ∧ st.backend ≠ statsBackendName then opts.map (writtenPrefix st) else []
  | _, _ => []

/-- The statsd prefixes in all the options of a plan, on the pools its scenarios name. -/
def planPrefixes (go : Go F) (p : Plan) (poolOf : String → Pool) : List (Option String) :=
  (planExecutions go p).flatMap fun e => emittedPrefixes e (poolOf e.scenario.pool)

/-- An execution has options on a pool, with a statsd prefix that names backends by address. -/
def emits (e : Execution) (pool : Pool) : Bool :=
  match e.stats, forPool e pool with
  | some st, .ok _ => decide (st.statsd.isSome ∧ st.backend ≠ statsBackendName)
  | _, _ => false

/-- The prefix of an execution, before any backend. -/
def prefixOf (e : Execution) : String := executionPrefix (e.stats.getD {}) e.label

/--
No execution whose options name no backend has for its prefix that of another one followed by
one of the backends named there.
-/
def SeriesApart (execs : List Execution) (poolOf : String → Pool) : Prop :=
  ∀ e ∈ execs, emits e (poolOf e.scenario.pool) = true → LeavesOut (poolOf e.scenario.pool) →
    ∀ e' ∈ execs, emits e' (poolOf e'.scenario.pool) = true →
      ¬ LeavesOut (poolOf e'.scenario.pool) →
      ∀ backend ∈ backendSegments (backendsOf (poolOf e'.scenario.pool)),
        prefixOf e ≠ withBackend (prefixOf e') backend

theorem emits_iff : emits e pool = true ↔
    ∃ st addrs opts, e.stats = some st ∧ forPool e pool = .ok (addrs, opts) ∧ ByAddress st := by
  unfold emits
  cases e.stats with
  | none => simp
  | some st =>
    cases forPool e pool with
    | error f => simp
    | ok sent =>
      obtain ⟨addrs, opts⟩ := sent
      simp [ByAddress]

theorem emittedPrefixes_of_not_emits (h : ¬ emits e pool = true) :
    emittedPrefixes e pool = [] := by
  unfold emits at h
  unfold emittedPrefixes
  split
  · rename_i hst hpool
    rw [hst, hpool] at h
    exact if_neg fun hby => h (decide_eq_true hby)
  · rfl

theorem mem_planExecutions : e ∈ planExecutions go p ↔
    ∃ s ∈ p.scenarios, ∃ execs, expand go s = .ok execs ∧ e ∈ execs := by
  unfold planExecutions executionsOf
  rw [List.mem_flatMap]
  refine exists_congr fun s => and_congr_right fun _ => ?_
  cases expand go s with
  | error f => simp [Except.toOption]
  | ok execs => simp [Except.toOption]

theorem emittedPrefixes_eq (he : e ∈ planExecutions go p)
    (hresolved : unresolved pool = false) (h : emits e pool = true) : emittedPrefixes e pool
      = (Naming.names withBackend (prefixOf e) (namedBackends pool)).map some := by
  obtain ⟨st, addrs, opts, hst, hpool, hby⟩ := emits_iff.mp h
  obtain ⟨s, -, execs, hexpand, hmem⟩ := mem_planExecutions.mp he
  have hwritten := writtenPrefix_forPool hst hby (carriesSinks_of_expand hexpand hmem hst)
    hresolved hpool
  have hfirst : prefixOf e = executionPrefix st e.label := by
    unfold prefixOf
    rw [hst]
    rfl
  rw [hfirst, ← hwritten]
  unfold emittedPrefixes
  rw [hst, hpool]
  exact if_pos hby

/-! ## Prefixes are checked for every execution -/

theorem names_variants (s : Scenario) : (variants s).map Scenario.name
    = if s.targets.isEmpty then [s.name] else s.targets.map fun t => s.name ++ "/" ++ t.name := by
  unfold variants
  split
  · rfl
  · rw [List.map_map]
    rfl

/-- The labels depend on the name and the target list alone. -/
theorem executionLabels_congr {s' : Scenario} (hname : s.name = s'.name)
    (htargets : s.targets = s'.targets) (ex : Executor) :
    executionLabels s ex = executionLabels s' ex := by
  have hform : ∀ s : Scenario, executionLabels s ex
      = ((variants s).map Scenario.name).flatMap fun name => variantLabels name ex := by
    intro s
    rw [executionLabels_eq, List.flatMap_map]
  rw [hform, hform, names_variants, names_variants, hname, htargets]

theorem executionLabels_merged (p : Plan) (s : Scenario) (ex : Executor) :
    executionLabels (merged p s) ex = executionLabels (inheritTargets (defaultsOf p) s) ex := by
  refine executionLabels_congr ?_ (targets_merged p s) ex
  rcases inheritTargets_cases (defaultsOf p) s with h | h <;> rw [h] <;> rfl

theorem stats_merged (p : Plan) (s : Scenario) : (merged p s).stats = effectiveStats p s := by
  unfold merged effectiveStats defaultsOf
  cases p.defaults <;> rfl

/-- The stats block of an execution sends to statsd. -/
def sendsStatsd (e : Execution) : Bool := e.stats.any fun st => st.statsd.isSome

theorem executor_of_compiled (h : Compiled go s e) : ∃ ex, s.executor = some ex := by
  obtain ⟨ex, _, hcompiled, -⟩ := h.carries
  cases ht : e.target with
  | none =>
    rw [ht] at hcompiled
    exact ⟨ex, hcompiled⟩
  | some t =>
    rw [ht] at hcompiled
    obtain ⟨ex₀, hex₀, -⟩ := variant_executor hcompiled
    exact ⟨ex₀, hex₀⟩

/-- A scenario with an execution that sends to statsd was checked, by its own labels. -/
theorem checkedPrefixes_eq (hexpand : expand go (merged p s) = .ok execs)
    (he : e ∈ execs) (hsends : sendsStatsd e = true) :
    ∃ st ex, effectiveStats p s = some st ∧ (merged p s).executor = some ex
      ∧ checkedPrefixes p s = (executionLabels (merged p s) ex).map (executionPrefix st) := by
  have hcompiled := expand_compiled hexpand he
  have hstats : e.stats = effectiveStats p s := by rw [hcompiled.stats, stats_merged]
  obtain ⟨ex, hex⟩ := executor_of_compiled hcompiled
  have hexecutor : effectiveExecutor p s = some ex := hex
  unfold sendsStatsd at hsends
  rw [hstats] at hsends
  cases hst : effectiveStats p s with
  | none => rw [hst] at hsends; exact absurd hsends nofun
  | some st =>
    rw [hst] at hsends
    refine ⟨st, ex, rfl, hex, ?_⟩
    unfold checkedPrefixes
    rw [hst, hexecutor, executionLabels_merged]
    exact if_pos hsends

/-- The prefixes of the executions of one scenario that send to statsd are among those checked. -/
theorem prefixes_executionsOf (hnodup : (checkedPrefixes p s).Nodup) :
    ((executionsOf go (merged p s)).filter sendsStatsd).map prefixOf ⊆ checkedPrefixes p s
      ∧ (((executionsOf go (merged p s)).filter sendsStatsd).map prefixOf).Nodup := by
  cases hkept : (executionsOf go (merged p s)).filter sendsStatsd with
  | nil => exact ⟨List.nil_subset _, List.nodup_nil⟩
  | cons e₀ rest =>
    rw [← hkept]
    obtain ⟨hmem₀, hsends⟩ := List.mem_filter.mp (hkept ▸ List.mem_cons_self :
      e₀ ∈ (executionsOf go (merged p s)).filter sendsStatsd)
    clear hkept
    unfold executionsOf at hmem₀ ⊢
    cases hexpand : expand go (merged p s) with
    | error f => rw [hexpand] at hmem₀; exact absurd hmem₀ List.not_mem_nil
    | ok execs =>
      rw [hexpand] at hmem₀
      obtain ⟨st, ex, hst, hex, hchecked⟩ := checkedPrefixes_eq hexpand hmem₀ hsends
      rw [hchecked] at hnodup ⊢
      obtain ⟨hlabels, hmem⟩ := labels_expand hex hexpand hnodup.of_map
      have hfirst : ∀ e ∈ execs, prefixOf e = executionPrefix st e.label := by
        intro e he
        unfold prefixOf
        rw [(expand_compiled hexpand he).stats, stats_merged, hst]
        rfl
      refine ⟨?_, List.Nodup.sublist (List.filter_sublist.map prefixOf) ?_⟩
      · intro x hx
        obtain ⟨e, he, rfl⟩ := List.mem_map.mp hx
        have he' := (List.mem_filter.mp he).1
        rw [hfirst e he']
        exact List.mem_map_of_mem (hmem e he')
      · refine (List.nodup_map_iff_inj_on hlabels.of_map).mpr ?_
        intro e he e' he' heq
        rw [hfirst e he, hfirst e' he'] at heq
        exact List.inj_on_of_nodup_map hlabels he he'
          (List.inj_on_of_nodup_map hnodup (hmem e he) (hmem e' he') heq)

/-- **The executions of a checked plan that send to statsd have different prefixes.** -/
theorem prefixes_planExecutions (h : validateStatsPrefixes p [] p.scenarios = .ok ()) :
    (((planExecutions go (applyDefaults p)).filter sendsStatsd).map prefixOf).Nodup := by
  have hnodup := (validateStatsPrefixes_ok h).1
  have hform : ((planExecutions go (applyDefaults p)).filter sendsStatsd).map prefixOf
      = p.scenarios.flatMap fun s =>
          ((executionsOf go (merged p s)).filter sendsStatsd).map prefixOf := by
    unfold planExecutions
    rw [scenarios_applyDefaults, List.flatMap_map, List.filter_flatMap, List.map_flatMap]
  rw [hform]
  have heach : ∀ s ∈ p.scenarios, (checkedPrefixes p s).Nodup := (List.nodup_flatMap.mp hnodup).1
  exact Naming.nodup_flatMap_of_subset hnodup
    (fun s hs => (prefixes_executionsOf (heach s hs)).2)
    (fun s hs => (prefixes_executionsOf (heach s hs)).1)

/-! ## The series are apart -/

/-- A backend without a dot can be taken off again. -/
theorem withBackend_inj {first first' backend' : String} (hb : Dotless backend)
    (hb' : Dotless backend') (h : withBackend first backend = withBackend first' backend') :
    first = first' ∧ backend = backend' := by
  have hchars := congrArg (fun s => s.toList.reverse) h
  simp only [withBackend, String.toList_append, List.reverse_append] at hchars
  have hdot : ("." : String).toList.reverse = ['.'] := rfl
  rw [hdot, List.singleton_append, List.singleton_append] at hchars
  have hnot : '.' ∉ backend.toList.reverse := by rw [List.mem_reverse]; exact hb
  have hnot' : '.' ∉ backend'.toList.reverse := by rw [List.mem_reverse]; exact hb'
  obtain ⟨hbackend, hfirst⟩ := Naming.cut_inj hnot hnot' hchars
  exact ⟨String.toList_injective (List.reverse_injective hfirst),
    String.toList_injective (List.reverse_injective hbackend)⟩

/--
**When the series of a plan are different**: exactly when no execution on a distributor with
several targets is named like a backend of another one.
-/
theorem planPrefixes_nodup_iff {p : Plan} {poolOf : String → Pool}
    (h : validateStatsPrefixes p [] p.scenarios = .ok ())
    (hresolved : ∀ name, unresolved (poolOf name) = false) :
    (planPrefixes go (applyDefaults p) poolOf).Nodup ↔
      SeriesApart (planExecutions go (applyDefaults p)) poolOf := by
  generalize hexecs : planExecutions go (applyDefaults p) = execs
  generalize hemitters : (execs.filter fun e => emits e (poolOf e.scenario.pool)) = emitters
  have hmem : ∀ e, e ∈ emitters ↔ e ∈ execs ∧ emits e (poolOf e.scenario.pool) = true := by
    rw [← hemitters]
    exact fun e => List.mem_filter
  -- what the plan emits, by its emitters
  have hform : planPrefixes go (applyDefaults p) poolOf = (emitters.flatMap fun e =>
      Naming.names withBackend (prefixOf e) (namedBackends (poolOf e.scenario.pool))).map some := by
    unfold planPrefixes
    rw [List.map_flatMap, ← hemitters, hexecs]
    refine Naming.flatMap_eq_filter (fun e he hemits => ?_) fun e _ hemits =>
      emittedPrefixes_of_not_emits hemits
    exact emittedPrefixes_eq (hexecs ▸ he) (hresolved _) hemits
  have hbases : (emitters.map prefixOf).Nodup := by
    have hall : ((execs.filter sendsStatsd).map prefixOf).Nodup := by
      rw [← hexecs]
      exact prefixes_planExecutions h
    refine hall.sublist (List.Sublist.map prefixOf ?_)
    rw [← hemitters]
    refine List.monotone_filter_right execs fun e he => ?_
    obtain ⟨st, _, _, hst, -, hby⟩ := emits_iff.mp he
    unfold sendsStatsd
    rw [hst]
    exact hby.1
  have hgood : ∀ {pool : Pool} {names : List String}, namedBackends pool = some names →
      GoodNames names := by
    intro pool names hnames
    rw [← (namedBackends_eq_some.mp hnames).2]
    exact goodNames_backendSegments _
  have hsep : Naming.Separated emitters withBackend prefixOf
      fun e => namedBackends (poolOf e.scenario.pool) := by
    intro e _ e' _ names hnames names' hnames' backend hb backend' hb' heq
    exact withBackend_inj ((hgood hnames).dotless backend hb) ((hgood hnames').dotless backend' hb')
      heq
  rw [hform, List.nodup_map_iff (Option.some_injective String), Naming.nodup_names_iff hsep hbases
    fun e _ names hnames => (hgood hnames).nodup]
  constructor
  · intro hap e he hemits hout e' he' hemits' hnot backend hb
    exact hap e ((hmem e).mpr ⟨he, hemits⟩) (namedBackends_eq_none.mpr hout) e'
      ((hmem e').mpr ⟨he', hemits'⟩) _ (namedBackends_eq_some.mpr ⟨hnot, rfl⟩) backend hb
  · intro hap e he hnone e' he' names hnames backend hb
    obtain ⟨hin, hemits⟩ := (hmem e).mp he
    obtain ⟨hin', hemits'⟩ := (hmem e').mp he'
    obtain ⟨hnot, rfl⟩ := namedBackends_eq_some.mp hnames
    exact hap e hin hemits (namedBackends_eq_none.mp hnone) e' hin' hemits' hnot backend hb

/-- A scenario on a pool, at ten requests per second. -/
def measured (name pool : String) : Scenario :=
  { scenarioOf { type := constantRate, rate := 10, duration := some (.ofMillis 10000) } with
    name, pool }

/-- A plan with a direct pool of one engine and a distributor with two targets. -/
def measuredPlan (first second : String) : Plan :=
  { version := "v1"
    pools := [{ name := "direct", services := ["eu:8443"] },
      { name := "spread", distributor := "distributor:8443", targets := ["a:1", "b:1"] }]
    stats := some { statsd := some { address := "127.0.0.1:8125" } }
    scenarios := [measured first "direct", measured second "spread"] }

/-- The pool of a plan with a name. -/
def poolNamed (p : Plan) (name : String) : Pool :=
  (p.pools.find? fun pool => pool.name == name).getD {}

theorem resolved_measuredPlan (first second name : String) :
    unresolved (poolNamed (measuredPlan first second) name) = false := by
  unfold poolNamed measuredPlan
  simp only [List.find?_cons, List.find?_nil]
  split
  · rfl
  · split <;> rfl

/-- A library that knows one address. -/
def Go.loopback : Go Unit := { Go.bare with parseIP := fun host => host == "127.0.0.1" }

/-- The prefixes of that plan. -/
def measuredPrefixes (first second : String) : List (Option String) :=
  planPrefixes Go.loopback (applyDefaults (measuredPlan first second))
    (poolNamed (measuredPlan first second))

/-- `load` on the engine `eu`, and `soak` on the distributor. -/
theorem planPrefixes_load_soak : measuredPrefixes "load" "soak"
      = [some "sortie.load.eu", some "sortie.soak"] ∧ (measuredPrefixes "load" "soak").Nodup := by
  refine ⟨rfl, (planPrefixes_nodup_iff rfl (resolved_measuredPlan "load" "soak")).mpr ?_⟩
  obtain ⟨a, b, hexecs, ha, hb⟩ : ∃ a b,
      planExecutions Go.loopback (applyDefaults (measuredPlan "load" "soak")) = [a, b]
        ∧ (prefixOf a = "sortie.load" ∧ a.scenario.pool = "direct")
        ∧ prefixOf b = "sortie.soak" ∧ b.scenario.pool = "spread" :=
    ⟨_, _, rfl, ⟨rfl, rfl⟩, rfl, rfl⟩
  rw [hexecs]
  intro e he _ hout e' he' _ hnot backend hbackend
  simp only [List.mem_cons, List.not_mem_nil, or_false] at he he'
  rcases he with rfl | rfl
  · rw [ha.2] at hout
    exact absurd hout (by decide)
  · rcases he' with rfl | rfl
    · rw [ha.2] at hbackend
      obtain rfl : backend = "eu" := List.mem_singleton.mp hbackend
      rw [ha.1, hb.1]
      decide
    · rw [hb.2] at hnot
      exact absurd (by decide) hnot

/-- `load` on the engine `eu`, and `load/eu` on the distributor: the plan is accepted, and both
emit under one prefix. -/
theorem planPrefixes_collide :
    parse Go.loopback (measuredPlan "load" "load/eu")
        = .ok (applyDefaults (measuredPlan "load" "load/eu"))
      ∧ measuredPrefixes "load" "load/eu" = [some "sortie.load.eu", some "sortie.load.eu"] :=
  ⟨rfl, rfl⟩

end Sortie.Proof
