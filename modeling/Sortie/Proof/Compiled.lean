import Sortie.Compile.Execution
import Sortie.Proof.Accepted

/-!
# What a compiled request says, and where it comes from

`options` starts from a template and runs through a dozen steps. Those that can fail
write five fields between them, and `options_ok` sets them apart from the others. Only
seven fields of the request decide how much load a backend generates and for how long:
its `Shape`. Each other step is described by what it does to the shape, and
`options_shape` puts the steps together: which part of the finished shape the scenario
decided and which was left to the template.

`Compiled` does the same for an execution: whichever way `expand` produced it, it is
one executor type of one variant of the scenario.
-/

namespace Sortie.Proof

open Proto Api Plan Compile Checks

variable {F : Type} {go : Go F}
variable {ex : Executor} {e : Execution} {execs : List Execution}

/-- The fields of a request that shape its load. -/
@[ext] structure Shape where
  requestsPerSecond : Option UInt32
  durationOptions : Option DurationOptions
  concurrency : Option String
  timeout : Option Duration
  grpcMode : Option GrpcMode
  websocket : Bool
  rateLimiter : Option TypedExtensionConfig

/-- The shape of a request. -/
def shapeOf (o : CommandLineOptions) : Shape where
  requestsPerSecond := o.requestsPerSecond
  durationOptions := o.durationOptions
  concurrency := o.concurrency
  timeout := o.timeout
  grpcMode := o.grpcMode
  websocket := o.websocket.isSome
  rateLimiter := o.rateLimiterPluginConfig

/-- The template a scenario's requests start from. -/
def template (s : Scenario) : CommandLineOptions := s.nighthawkTemplate.getD {}

/-! ## What `options` writes -/

section Steps

variable {s : Scenario} {id : String} {o o' : CommandLineOptions}

theorem setProtocol_ok (h : setProtocol s o = .ok o') : ∃ p, o' = { o with protocol := p } := by
  unfold setProtocol at h
  split at h
  · exact ⟨o.protocol, (Except.ok.inj h).symm⟩
  · obtain ⟨p, -, hp⟩ := map_ok_iff.mp h
    exact ⟨some (.protocol p), hp.symm⟩

theorem setTls_ok (h : setTls go s o = .ok o') : ∃ c, o' = { o with tlsContext := c } := by
  unfold setTls at h
  split at h
  · exact ⟨o.tlsContext, (Except.ok.inj h).symm⟩
  · obtain ⟨c, -, hc⟩ := bind_ok_iff.mp h
    exact ⟨some c, (Except.ok.inj hc).symm⟩

theorem setRequest_ok (h : setRequest go s o = .ok o') :
    ∃ r, o' = { o with requestOptions := r }
      ∧ (shapesRequest s = true → ∃ ro, r = some (.requestOptions ro)) := by
  unfold setRequest at h
  split at h
  · obtain ⟨ro, -, hro⟩ := bind_ok_iff.mp h
    exact ⟨_, (Except.ok.inj hro).symm, fun _ => ⟨ro, rfl⟩⟩
  · rename_i hno
    exact ⟨o.requestOptions, (Except.ok.inj h).symm, fun hyes => absurd hyes hno⟩

/-- The sinks of a stats block, if there is one. -/
def ownSinks (stats : Option Stats) (label : String) : Except String (List StatsSink) :=
  match stats with
  | none => .ok []
  | some st => statsSinks st label ""

theorem setStats_ok (h : setStats s id o = .ok o') :
    ∃ sinks interval,
      o' = { o with statsSinks := o.statsSinks ++ sinks, statsFlushInterval := interval }
        ∧ ownSinks s.stats id = .ok sinks := by
  unfold setStats at h
  cases hst : s.stats with
  | none =>
    rw [hst] at h
    cases h
    exact ⟨[], o.statsFlushInterval, by rw [List.append_nil], rfl⟩
  | some st =>
    rw [hst] at h
    obtain ⟨sinks, hsinks, happlied⟩ := bind_ok_iff.mp (mapError_ok_iff.mp h)
    exact ⟨sinks, _, (Except.ok.inj happlied).symm, hsinks⟩

theorem statsSinks_setModes :
    (setWebsocket s (setTcp s (setUdp s (setGrpc s o)))).statsSinks = o.statsSinks := by
  have hgrpc (o) : (setGrpc s o).statsSinks = o.statsSinks := by unfold setGrpc; split <;> rfl
  have hudp (o) : (setUdp s o).statsSinks = o.statsSinks := by unfold setUdp; split <;> rfl
  have htcp (o) : (setTcp s o).statsSinks = o.statsSinks := by unfold setTcp; split <;> rfl
  have hsocket (o) : (setWebsocket s o).statsSinks = o.statsSinks := by
    unfold setWebsocket
    split <;> rfl
  rw [hsocket, htcp, hudp, hgrpc]

/-- What the steps of `options` that cannot fail make of the template and a protocol. -/
def plainOptions (s : Scenario) (rate : UInt32) (dur ramp : Span) (id : String)
    (protocol : Option ProtocolChoice) : CommandLineOptions :=
  let o := { setShape s rate dur id (setDefaults (template s)) with protocol }
  setRateLimiter ramp (setLimits s (setWebsocket s (setTcp s (setUdp s (setGrpc s o)))))

/-- **The request `options` makes**: four fields of it, and the protocol, are written by steps that
can fail. -/
theorem options_ok {rate : UInt32} {dur ramp : Span} (h : options go s rate dur ramp id = .ok o) :
    ∃ protocol context request sinks interval,
      o = { plainOptions s rate dur ramp id protocol with
            tlsContext := context
            requestOptions := request
            statsSinks := (template s).statsSinks ++ sinks
            statsFlushInterval := interval }
        ∧ (shapesRequest s = true → ∃ r, request = some (.requestOptions r))
        ∧ ownSinks s.stats id = .ok sinks := by
  obtain ⟨o₁, h₁, h⟩ := bind_ok_iff.mp h
  obtain ⟨o₂, h₂, h⟩ := bind_ok_iff.mp h
  obtain ⟨o₃, h₃, h⟩ := bind_ok_iff.mp h
  obtain ⟨o₄, h₄, h⟩ := bind_ok_iff.mp h
  obtain ⟨protocol, rfl⟩ := setProtocol_ok h₁
  obtain ⟨context, rfl⟩ := setTls_ok h₂
  obtain ⟨request, rfl, hrequest⟩ := setRequest_ok h₃
  obtain ⟨sinks, interval, rfl, hsinks⟩ := setStats_ok h₄
  refine ⟨protocol, context, request, sinks, interval, ?_, hrequest, hsinks⟩
  rw [← Except.ok.inj h]
  exact congrArg (fun before : List StatsSink => { plainOptions s rate dur ramp id protocol with
    tlsContext := context
    requestOptions := request
    statsSinks := before ++ sinks
    statsFlushInterval := interval }) statsSinks_setModes

end Steps

/-! ## What each step does to the shape -/

section

variable (s : Scenario) (o : CommandLineOptions)

theorem shapeOf_setGrpc :
    shapeOf (setGrpc s o) =
      { shapeOf o with
        grpcMode := match s.grpc with
          | some g => some (if g.mode = "bidi-stream" then .bidiStream else .unary)
          | none => (shapeOf o).grpcMode } := by
  unfold setGrpc
  cases s.grpc <;> rfl

theorem shapeOf_setRaw :
    shapeOf (setTcp s (setUdp s o)) =
      { shapeOf o with
        grpcMode := if isRaw s.target then none else (shapeOf o).grpcMode
        websocket := !isRaw s.target && (shapeOf o).websocket } := by
  unfold setTcp setUdp isRaw
  cases isTcpTarget s.target <;> cases isUdpTarget s.target <;> rfl

theorem shapeOf_setWebsocket :
    shapeOf (setWebsocket s o) =
      { shapeOf o with
        grpcMode := if s.websocket.isSome then none else (shapeOf o).grpcMode
        websocket := s.websocket.isSome || (shapeOf o).websocket } := by
  unfold setWebsocket
  cases s.websocket <;> rfl

theorem shapeOf_setLimits :
    shapeOf (setLimits s o) =
      { shapeOf o with
        concurrency := if s.concurrency = "" then (shapeOf o).concurrency else some s.concurrency
        timeout := (s.timeout.map ParsedDuration.toDuration).or (shapeOf o).timeout } := rfl

end

/-- The rate limiter a ramp compiles to. -/
def rampLimiter (ramp : Span) : Option TypedExtensionConfig :=
  if 0 < ramp then
    some { name := linearRampingRateLimiterPlugin
           typedConfig := some (.linearRampingRateLimiter (some (Duration.new ramp))) }
  else none

theorem shapeOf_setRateLimiter (ramp : Span) (o : CommandLineOptions) :
    shapeOf (setRateLimiter ramp o) = { shapeOf o with rateLimiter := rampLimiter ramp } := rfl

/-! ## The finished shape -/

/-- The gRPC mode a scenario compiles to. -/
def compiledGrpcMode (s : Scenario) : Option GrpcMode :=
  if s.websocket.isSome || isRaw s.target then none
  else match s.grpc with
    | some g => some (if g.mode = "bidi-stream" then .bidiStream else .unary)
    | none => (template s).grpcMode

/-- The shape a scenario compiles to at a rate, for a duration, with a ramp. -/
def compiledShape (s : Scenario) (rate : UInt32) (dur ramp : Span) : Shape where
  requestsPerSecond := some rate
  durationOptions := some (.duration (Duration.new dur))
  concurrency := if s.concurrency = "" then (template s).concurrency else some s.concurrency
  timeout := (s.timeout.map ParsedDuration.toDuration).or (template s).timeout
  grpcMode := compiledGrpcMode s
  websocket := s.websocket.isSome || (!isRaw s.target && (template s).websocket.isSome)
  rateLimiter := rampLimiter ramp

variable {s : Scenario}

/-- **What the finished request holds.** -/
theorem options_shape {rate : UInt32} {dur ramp : Span} {id : String}
    {o : CommandLineOptions} (h : options go s rate dur ramp id = .ok o) :
    shapeOf o = compiledShape s rate dur ramp := by
  obtain ⟨protocol, context, request, sinks, interval, rfl, -, -⟩ := options_ok h
  change shapeOf (plainOptions s rate dur ramp id protocol) = _
  -- read the steps back from the last to the first
  unfold plainOptions
  rw [shapeOf_setRateLimiter, shapeOf_setLimits, shapeOf_setWebsocket, shapeOf_setRaw,
    shapeOf_setGrpc]
  ext1
  case grpcMode =>
    simp only [compiledShape, compiledGrpcMode]
    cases s.websocket.isSome <;> cases isRaw s.target <;> rfl
  all_goals rfl

/-! ## The executions of one variant -/

/-- What an executor plans as one execution. -/
structure Planned where
  label : String
  stage : Nat
  rate : UInt32
  duration : Span
  rampTime : Span

/-- The plan of a stage, numbered from 0. -/
def plannedStage (s : Scenario) (st : Stage) (i : Nat) : Planned where
  label := stageLabel s.name (i + 1)
  stage := i + 1
  rate := st.rate
  duration := asDuration st.duration
  rampTime := 0

/-- What an executor plans for a scenario, execution by execution. -/
def planned (s : Scenario) (ex : Executor) : List Planned :=
  if ex.type = staircase then ex.stages.zipIdx.map fun (st, i) => plannedStage s st i
  else
    [{ label := s.name, stage := 0, rate := ex.rate, duration := asDuration ex.duration
       rampTime := if ex.type = rampingRate then asDuration ex.rampTime else 0 }]

/-- The execution `e` carries out the plan `pl` of a variant `v` of a scenario. -/
structure Carries (go : Go F) (v : Scenario) (ex : Executor) (pl : Planned) (e : Execution) :
    Prop where
  label : e.label = pl.label
  stage : e.stage = pl.stage
  rate : e.rate = pl.rate
  duration : e.duration = pl.duration
  rampTime : e.rampTime = pl.rampTime
  perBackend : e.perBackend = ex.perBackend
  options : options go v pl.rate pl.duration pl.rampTime pl.label = .ok e.options

theorem single_ok (pl : Planned)
    (h : single go s ex pl.label pl.stage pl.rate pl.duration pl.rampTime = .ok e) :
    Carries go s ex pl e ∧ e.scenario = s ∧ e.target = none ∧ e.group = "" := by
  obtain ⟨o, ho, h⟩ := bind_ok_iff.mp h
  cases h
  exact ⟨⟨rfl, rfl, rfl, rfl, rfl, rfl, mapError_ok_iff.mp ho⟩, rfl, rfl, rfl⟩

/-- The executions of a variant are its plans, one by one. -/
def Expanded (go : Go F) (s : Scenario) (ex : Executor) (execs : List Execution) : Prop :=
  List.Forall₂ (fun pl e => Carries go s ex pl e ∧ e.scenario = s ∧ e.target = none
    ∧ e.group = "") (planned s ex) execs

theorem stages_ok : ∀ {sts : List Stage} {i : Nat}
    {execs : List Execution}, stages go s ex sts i = .ok execs →
    List.Forall₂ (fun pl e => Carries go s ex pl e ∧ e.scenario = s ∧ e.target = none
      ∧ e.group = "") ((sts.zipIdx i).map fun (st, i) => plannedStage s st i) execs := by
  intro sts
  induction sts with
  | nil =>
    intro i execs h
    cases h
    exact List.Forall₂.nil
  | cons st sts ih =>
    intro i execs h
    obtain ⟨e, he, h⟩ := bind_ok_iff.mp h
    obtain ⟨rest, hrest, h⟩ := bind_ok_iff.mp h
    cases h
    rw [List.zipIdx_cons, List.map_cons]
    exact List.Forall₂.cons (single_ok (plannedStage s st i) he) (ih hrest)

theorem expandOne_ok (h : expandOne go s = .ok execs) :
    ∃ ex, s.executor = some ex ∧ Expanded go s ex execs := by
  unfold expandOne at h
  split at h
  · cases h
  · rename_i ex hex
    refine ⟨ex, hex, ?_⟩
    unfold Expanded planned
    split at h
    · rename_i hc
      obtain ⟨e, he, h⟩ := bind_ok_iff.mp h
      cases h
      rw [if_neg (by rw [hc]; decide), if_neg (by rw [hc]; decide)]
      exact List.Forall₂.cons (single_ok ⟨_, _, _, _, _⟩ he) List.Forall₂.nil
    · split at h
      · rename_i hr
        obtain ⟨e, he, h⟩ := bind_ok_iff.mp h
        cases h
        rw [if_neg (by rw [hr]; decide), if_pos hr]
        exact List.Forall₂.cons (single_ok ⟨_, _, _, _, _⟩ he) List.Forall₂.nil
      · split at h
        · rename_i hst
          rw [if_pos hst]
          exact stages_ok h
        · cases h

/-! ## The executions of a scenario -/

/-- The scenario an execution was compiled from: the variant of its target. -/
def executedAs (s : Scenario) : Option Target → Scenario
  | none => s
  | some t => variant s t

/-- The executions of weighted targets are those of their variants. -/
theorem mem_expandTargets : ∀ {ts : List Target}
    {execs : List Execution}, expandTargets go s ts = .ok execs →
    (e ∈ execs ↔ ∃ t ∈ ts, ∃ part, expandOne go (variant s t) = .ok part
      ∧ ∃ e₀ ∈ part, ofTarget s t e₀ = e) := by
  intro ts
  induction ts with
  | nil =>
    intro execs h
    cases h
    simp
  | cons t ts ih =>
    intro execs h
    obtain ⟨part, hpart, h⟩ := bind_ok_iff.mp h
    obtain ⟨rest, hrest, h⟩ := bind_ok_iff.mp h
    cases h
    rw [List.mem_append, ih hrest, List.mem_map]
    constructor
    · rintro (he | ⟨t', ht', he⟩)
      · exact ⟨t, List.mem_cons_self, part, hpart, he⟩
      · exact ⟨t', List.mem_cons_of_mem _ ht', he⟩
    · rintro ⟨t', ht', part', hpart', he⟩
      rcases List.mem_cons.mp ht' with rfl | ht'
      · obtain rfl : part = part' := Except.ok.inj (hpart.symm.trans hpart')
        exact Or.inl he
      · exact Or.inr ⟨t', ht', part', hpart', he⟩

theorem expandTargets_variant_ok : ∀ {ts : List Target} {execs : List Execution},
    expandTargets go s ts = .ok execs →
    ∀ t ∈ ts, ∃ part, expandOne go (variant s t) = .ok part := by
  intro ts
  induction ts with
  | nil => intro execs _ t ht; exact absurd ht (by simp)
  | cons t ts ih =>
    intro execs h t' ht'
    obtain ⟨part, hpart, h⟩ := bind_ok_iff.mp h
    obtain ⟨rest, hrest, -⟩ := bind_ok_iff.mp h
    rcases List.mem_cons.mp ht' with rfl | ht'
    · exact ⟨part, hpart⟩
    · exact ih hrest t' ht'

theorem mem_of_mem_byStage (h : e ∈ byStage execs) : e ∈ execs := by
  unfold byStage at h
  simp only at h
  split at h
  · exact h
  · obtain ⟨st, -, he⟩ := List.mem_flatMap.mp h
    exact (List.mem_filter.mp he).1

/-- What the largest of a list, and of a number to start from, is bounded by. -/
theorem foldl_max_le_iff (l : List Nat) (m b : Nat) :
    l.foldl max m ≤ b ↔ m ≤ b ∧ ∀ x ∈ l, x ≤ b := by
  induction l generalizing m with
  | nil => simp
  | cons a l ih =>
    rw [List.foldl_cons, ih, Nat.max_le, List.forall_mem_cons, and_assoc]

/-- Reordering by stage drops nothing when every execution is a stage. -/
theorem mem_byStage_of_stage_pos (he : e ∈ execs) (hpos : 0 < e.stage) : e ∈ byStage execs := by
  have hle := ((foldl_max_le_iff (execs.map Execution.stage) 0 _).1 (Nat.le_refl _)).2 e.stage
    (List.mem_map_of_mem he)
  unfold byStage
  rw [if_neg (by omega)]
  refine List.mem_flatMap.mpr ⟨e.stage - 1, List.mem_range.mpr (by omega), ?_⟩
  rw [List.mem_filter]
  refine ⟨he, ?_⟩
  have : e.stage - 1 + 1 = e.stage := by omega
  rw [this]
  exact beq_self_eq_true _

/-- Where an execution comes from. -/
structure Compiled (go : Go F) (s : Scenario) (e : Execution) : Prop where
  scenario : e.scenario = s
  stats : e.stats = s.stats
  variant : executedAs s e.target ∈ variants s
  carries : ∃ ex pl, (executedAs s e.target).executor = some ex
    ∧ pl ∈ planned (executedAs s e.target) ex ∧ Carries go (executedAs s e.target) ex pl e

theorem Expanded.of_mem (h : Expanded go s ex execs) (he : e ∈ execs) :
    ∃ pl ∈ planned s ex, Carries go s ex pl e ∧ e.scenario = s ∧ e.target = none := by
  obtain ⟨i, hi, rfl⟩ := List.mem_iff_getElem.mp he
  have hlen := h.length_eq
  have hc := h.get (i := i) (by omega) hi
  exact ⟨_, List.getElem_mem (by omega), hc.1, hc.2.1, hc.2.2.1⟩

theorem Expanded.of_planned {pl : Planned} (h : Expanded go s ex execs)
    (hpl : pl ∈ planned s ex) : ∃ e ∈ execs, Carries go s ex pl e ∧ e.target = none := by
  obtain ⟨i, hi, rfl⟩ := List.mem_iff_getElem.mp hpl
  have hlen := h.length_eq
  have hc := h.get (i := i) hi (by omega)
  exact ⟨_, List.getElem_mem (by omega), hc.1, hc.2.2.1⟩

/-- **Every execution of a scenario is one plan of one variant of it.** -/
theorem expand_compiled (h : expand go s = .ok execs) (he : e ∈ execs) :
    Compiled go s e := by
  obtain ⟨inner, hinner, h⟩ := bind_ok_iff.mp h
  cases h
  obtain ⟨e₁, he₁, rfl⟩ := List.mem_map.mp he
  unfold expandScenario at hinner
  split at hinner
  · rename_i hempty
    obtain ⟨ex, hex, hall⟩ := expandOne_ok hinner
    obtain ⟨pl, hpl, hc, hscen, htarget⟩ := hall.of_mem he₁
    have hs : executedAs s e₁.target = s := by rw [htarget]; rfl
    have hvar : s ∈ variants s := by
      unfold variants
      rw [if_pos hempty]
      exact List.mem_singleton.mpr rfl
    exact ⟨hscen, rfl, by rw [hs]; exact hvar, ex, pl, by rw [hs]; exact hex,
      by rw [hs]; exact hpl, by rw [hs]; exact ⟨hc.1, hc.2, hc.3, hc.4, hc.5, hc.6, hc.7⟩⟩
  · rename_i hempty
    obtain ⟨raw, hraw, h⟩ := bind_ok_iff.mp hinner
    cases h
    obtain ⟨t, ht, part, hpart, e₀, he₀, rfl⟩ :=
      (mem_expandTargets hraw).mp (mem_of_mem_byStage he₁)
    obtain ⟨ex, hex, hall⟩ := expandOne_ok hpart
    obtain ⟨pl, hpl, hc, -, -⟩ := hall.of_mem he₀
    have hvar : variant s t ∈ variants s := by
      unfold variants
      rw [if_neg hempty]
      exact List.mem_map_of_mem ht
    exact ⟨rfl, rfl, hvar, ex, pl, hex, hpl, ⟨hc.1, hc.2, hc.3, hc.4, hc.5, hc.6, hc.7⟩⟩

/-- Only a staircase plans stages. -/
theorem stage_planned {pl : Planned} (h : pl ∈ planned s ex) :
    0 < pl.stage ↔ ex.type = staircase := by
  unfold planned at h
  split at h
  · rename_i hst
    obtain ⟨⟨st, i⟩, -, rfl⟩ := List.mem_map.mp h
    exact ⟨fun _ => hst, fun _ => Nat.succ_pos i⟩
  · rename_i hst
    obtain rfl := List.mem_singleton.mp h
    exact ⟨fun h0 => absurd h0 (by simp), fun hty => absurd hty hst⟩

/-- The executor of a target's variant is the scenario's, with other rates. -/
theorem variant_executor {t : Target} (h : (variant s t).executor = some ex) :
    ∃ ex₀, s.executor = some ex₀
      ∧ ex = Executor.scaled ex₀ (weightOf t).toUInt64 (totalWeight s.targets) := by
  obtain ⟨ex₀, hex₀, rfl⟩ := Option.map_eq_some_iff.mp h
  exact ⟨ex₀, hex₀, rfl⟩

theorem scaled_type (ex : Executor) (w total : UInt64) :
    (Executor.scaled ex w total).type = ex.type := by
  unfold Executor.scaled
  split <;> rfl

theorem byStage_eq_self (h : ∀ e ∈ execs, e.stage = 0) : byStage execs = execs := by
  unfold byStage
  rw [if_pos]
  refine Nat.le_zero.mp ((foldl_max_le_iff _ _ _).2 ⟨Nat.le_refl 0, ?_⟩)
  intro x hx
  obtain ⟨e, he, rfl⟩ := List.mem_map.mp hx
  exact Nat.le_zero.mpr (h e he)

/-- **Every plan of every variant of a scenario is executed.** -/
theorem expand_covers {v : Scenario} {pl : Planned} (h : expand go s = .ok execs)
    (hv : v ∈ variants s) (hex : v.executor = some ex) (hpl : pl ∈ planned v ex) :
    ∃ e ∈ execs, executedAs s e.target = v ∧ Carries go v ex pl e := by
  obtain ⟨inner, hinner, h⟩ := bind_ok_iff.mp h
  cases h
  unfold expandScenario at hinner
  unfold variants at hv
  split at hinner
  · rename_i hempty
    rw [if_pos hempty] at hv
    obtain rfl := List.mem_singleton.mp hv
    obtain ⟨ex', hex', hall⟩ := expandOne_ok hinner
    obtain rfl := Option.some.inj (hex.symm.trans hex')
    obtain ⟨e, he, hc, htarget⟩ := hall.of_planned hpl
    exact ⟨_, List.mem_map_of_mem he, by simp only [htarget]; rfl,
      ⟨hc.1, hc.2, hc.3, hc.4, hc.5, hc.6, hc.7⟩⟩
  · rename_i hempty
    rw [if_neg hempty] at hv
    obtain ⟨t, ht, rfl⟩ := List.mem_map.mp hv
    obtain ⟨raw, hraw, h⟩ := bind_ok_iff.mp hinner
    cases h
    obtain ⟨part, hpart⟩ := expandTargets_variant_ok hraw t ht
    obtain ⟨ex', hex', hall⟩ := expandOne_ok hpart
    obtain rfl := Option.some.inj (hex.symm.trans hex')
    obtain ⟨e, he, hc, -⟩ := hall.of_planned hpl
    have hmem : ofTarget s t e ∈ raw :=
      (mem_expandTargets hraw).mpr ⟨t, ht, part, hpart, e, he, rfl⟩
    suffices hin : ofTarget s t e ∈ byStage raw from
      ⟨_, List.mem_map_of_mem hin, rfl, ⟨hc.1, hc.2, hc.3, hc.4, hc.5, hc.6, hc.7⟩⟩
    by_cases hty : ex.type = staircase
    · apply mem_byStage_of_stage_pos hmem
      have := (stage_planned hpl).mpr hty
      rw [← hc.stage] at this
      exact this
    · -- no stages anywhere: the variants differ in their rates only
      rw [byStage_eq_self]
      · exact hmem
      · intro e' he'
        obtain ⟨t', ht', part', hpart', e₀, he₀, rfl⟩ := (mem_expandTargets hraw).mp he'
        obtain ⟨ex₁, hex₁, hall₁⟩ := expandOne_ok hpart'
        obtain ⟨pl₁, hpl₁, hc₁, -⟩ := hall₁.of_mem he₀
        obtain ⟨ex₀, hs₀, rfl⟩ := variant_executor hex
        obtain ⟨ex₀', hs₀', rfl⟩ := variant_executor hex₁
        obtain rfl := Option.some.inj (hs₀.symm.trans hs₀')
        have hstage : e₀.stage = pl₁.stage := hc₁.stage
        have hnot := (stage_planned hpl₁).not.mpr (by rw [scaled_type] at hty ⊢; exact hty)
        change e₀.stage = 0
        omega

end Sortie.Proof
