import Sortie.Engine.Options
import Sortie.Proof.Compiled

/-!
# How long the engine runs

A plan writes its times as durations down to the nanosecond, and the compiled request
carries them unchanged. `OptionsImpl` takes the seconds of two of them alone, the
duration and the timeout, into an unsigned 32-bit field. What the engine runs for is
the planned time exactly when that is a whole number of seconds below 2^32
(`keepsTime_iff`).

A ramp that is shorter than the planned duration need not be shorter than what is
left of it, and the engine refuses the configuration then.
-/

namespace Sortie.Proof

open Proto Api Plan Compile Checks Engine

variable {F : Type} {go : Go F}
variable {d : ParsedDuration} {ex : Executor} {p p' : Plan} {s : Scenario} {ramp : Span}
  {execs : List Execution}

/-! ## Whole seconds -/

/-- A whole number of seconds that a `uint32_t` holds. -/
def FitsSeconds (d : ParsedDuration) : Prop := d.nanos = 0 ∧ d.seconds < 2 ^ 32

theorem toNat_toUInt32 (n : Int) : ((toUInt32 n).toNat : Int) = n % 2 ^ 32 := by
  unfold toUInt32
  rw [UInt32.toNat_ofNat_of_lt' (by unfold UInt32.size; omega)]
  omega

/-- The parts of a duration that is greater than zero. -/
theorem parts_of_pos (h : 0 < d.asDuration) : 0 ≤ d.seconds ∧ 0 ≤ d.nanos := by
  have hns := d.asDuration_ns
  have hsign := d.sameSign
  rw [Span.lt_iff, Span.zero_ns, hns] at h
  unfold Duration.total second at h
  split at h
  · omega
  · split at h <;> omega

/-- A span survives the engine's field exactly when the duration it was read from fits. -/
theorem durationSeconds_eq_iff (h : 0 < d.asDuration) :
    ((toUInt32 (Duration.new d.asDuration).seconds).toNat : Int) * second = d.asDuration.ns
      ↔ FitsSeconds d := by
  obtain ⟨hs, hn⟩ := parts_of_pos h
  have hn' := d.nanosInRange
  have hns := d.asDuration_ns
  have hpos : 0 < d.asDuration.ns := h
  have hquot : (Duration.new d.asDuration).seconds = d.asDuration.ns / second :=
    Int.tdiv_eq_ediv_of_nonneg (by omega)
  rw [toNat_toUInt32, hquot]
  unfold FitsSeconds Duration.total second at *
  split at hns
  · omega
  · split at hns <;> omega

theorem timeoutSeconds_eq_iff (h : 0 < d.asDuration) :
    ((toUInt32 d.seconds).toNat : Int) * second = d.total ↔ FitsSeconds d := by
  obtain ⟨hs, hn⟩ := parts_of_pos h
  rw [toNat_toUInt32]
  unfold FitsSeconds Duration.total second
  omega

/-! ## What the schema says about the times of an executor -/

/-- The durations an executor runs for, one for each execution it plans. -/
def durationsOf (ex : Executor) : List ParsedDuration :=
  if ex.type = staircase then ex.stages.filterMap Stage.duration else ex.duration.toList

/-- The times of an executor that fits the schema. -/
structure Timed (ex : Executor) : Prop where
  duration : ex.type ≠ staircase → ∃ d, ex.duration = some d ∧ 0 < d.asDuration
  stages : ∀ st ∈ ex.stages, ∃ d, st.duration = some d ∧ 0 < d.asDuration
  needsStages : ex.type = staircase → ex.stages ≠ []
  ramp : ex.type = rampingRate → ∃ r d, ex.rampTime = some r ∧ ex.duration = some d
    ∧ 0 < r.asDuration ∧ r.asDuration < d.asDuration

theorem rule_eq_nil {field id message : String} {ok : Bool} :
    rule field id ok message = [] ↔ ok = true := by
  unfold rule
  split
  · rename_i h; simp [h]
  · rename_i h; simp [h]

theorem positive_eq_nil {field : String} {d : Option ParsedDuration} :
    positive field d = [] ↔ ∀ x, d = some x → 0 < x.asDuration := by
  unfold positive
  rw [rule_eq_nil]
  cases d <;> simp

theorem Timed.of_stage {st : Stage} (h : st.violations = []) :
    ∃ d, st.duration = some d ∧ 0 < d.asDuration := by
  simp only [Stage.violations, List.append_eq_nil_iff, rule_eq_nil, positive_eq_nil] at h
  obtain ⟨⟨-, hsome⟩, hpos⟩ := h
  obtain ⟨d, hd⟩ := Option.isSome_iff_exists.mp hsome
  exact ⟨d, hd, hpos d hd⟩

theorem Timed.of_violations (h : ex.violations = []) : Timed ex := by
  simp only [Executor.violations, List.append_eq_nil_iff, rule_eq_nil, positive_eq_nil,
    List.flatMap_eq_nil_iff] at h
  obtain ⟨⟨⟨⟨⟨⟨⟨⟨⟨⟨⟨-, -⟩, hneeds⟩, -⟩, -⟩, hdur⟩, hramp⟩, hshort⟩, -⟩, hpos⟩, hrpos⟩, hstages⟩ := h
  have hduration : ex.type ≠ staircase → ∃ d, ex.duration = some d ∧ 0 < d.asDuration := by
    intro hty
    rcases (Bool.or_eq_true _ _).mp hdur with h0 | h0
    · exact absurd (beq_iff_eq.mp h0) hty
    · obtain ⟨d, hd⟩ := Option.isSome_iff_exists.mp h0
      exact ⟨d, hd, hpos d hd⟩
  refine ⟨hduration, fun st hst => Timed.of_stage (hstages st hst), ?_, ?_⟩
  · intro hty h0
    rw [h0] at hneeds
    rcases (Bool.or_eq_true _ _).mp hneeds with h1 | h1
    · exact absurd hty (bne_iff_ne.mp h1)
    · exact absurd h1 (by decide)
  · intro hty
    obtain ⟨d, hd, -⟩ := hduration (by rw [hty]; decide)
    rcases (Bool.or_eq_true _ _).mp hramp with h0 | h0
    · exact absurd hty (bne_iff_ne.mp h0)
    · obtain ⟨r, hr⟩ := Option.isSome_iff_exists.mp h0
      rw [hr, hd] at hshort
      exact ⟨r, d, hr, hd, hrpos r hr, by simpa using hshort⟩

/-- The executor of an accepted scenario fits the schema, and so does its timeout. -/
theorem parse_timed (h : parse go p = .ok p') (hs : s ∈ p'.scenarios) :
    (∀ ex, s.executor = some ex → Timed ex) ∧ ∀ t, s.timeout = some t → 0 < t.asDuration := by
  obtain ⟨s₀, -, rfl, hviol, hdviol, -⟩ := parse_scenario h hs
  have htimes : ∀ s : Scenario, s.violations = [] →
      (∀ ex, s.executor = some ex → Timed ex) ∧ ∀ t, s.timeout = some t → 0 < t.asDuration := by
    intro s hv
    simp only [Scenario.violations, List.append_eq_nil_iff, positive_eq_nil] at hv
    obtain ⟨hhead, htimeout⟩ := hv.1.1.1.1.1.1.1
    refine ⟨fun ex hex => Timed.of_violations ?_, htimeout⟩
    have hexec := hhead.1.1.1.2
    rw [hex] at hexec
    exact hexec
  obtain ⟨hex, htimeout⟩ := htimes s₀ hviol
  obtain ⟨hdex, hdtimeout⟩ := htimes _ hdviol
  -- both are the scenario's own or those of the defaults
  constructor
  · intro ex hmerged
    rcases Option.or_eq_some_iff.mp hmerged with h0 | ⟨-, h0⟩
    · exact hex ex h0
    · exact hdex ex h0
  · intro t hmerged
    rcases Option.or_eq_some_iff.mp hmerged with h0 | ⟨-, h0⟩
    · exact htimeout t h0
    · exact hdtimeout t h0

/-! ## The times of a variant -/

theorem durationsOf_scaled (ex : Executor) (w total : UInt64) :
    durationsOf (Executor.scaled ex w total) = durationsOf ex := by
  unfold durationsOf Executor.scaled
  split
  · simp only [List.filterMap_map]
    rfl
  · rfl

theorem Timed.scaled (h : Timed ex) (w total : UInt64) : Timed (Executor.scaled ex w total) := by
  unfold Executor.scaled
  split
  · refine ⟨h.duration, ?_, ?_, h.ramp⟩
    · intro st hst
      obtain ⟨st₀, hst₀, rfl⟩ := List.mem_map.mp hst
      exact h.stages st₀ hst₀
    · intro hty h0
      exact h.needsStages hty (List.map_eq_nil_iff.mp h0)
  · exact h

/-- A variant runs for the times of its scenario. -/
theorem executedAs_times {t : Option Target} (h : (executedAs s t).executor = some ex) :
    ∃ ex₀, s.executor = some ex₀ ∧ durationsOf ex = durationsOf ex₀ ∧ ex.type = ex₀.type
      ∧ (Timed ex₀ → Timed ex) := by
  cases t with
  | none => exact ⟨ex, h, rfl, rfl, id⟩
  | some t =>
    obtain ⟨ex₀, hex₀, rfl⟩ := variant_executor h
    exact ⟨ex₀, hex₀, durationsOf_scaled _ _ _, scaled_type _ _ _, fun ht => ht.scaled _ _⟩

theorem executedAs_timeout (s : Scenario) (t : Option Target) :
    (executedAs s t).timeout = s.timeout
      ∧ (executedAs s t).nighthawkTemplate = s.nighthawkTemplate := by
  cases t <;> exact ⟨rfl, rfl⟩

theorem duration_of_planned {pl : Planned} (ht : Timed ex) (h : pl ∈ planned s ex) :
    ∃ d ∈ durationsOf ex, pl.duration = d.asDuration ∧ 0 < d.asDuration := by
  unfold planned at h
  unfold durationsOf
  split at h
  · rename_i hst
    obtain ⟨⟨st, i⟩, hmem, rfl⟩ := List.mem_map.mp h
    have hin : st ∈ ex.stages := List.mem_zipIdx' hmem |>.2 ▸ List.getElem_mem _
    obtain ⟨d, hd, hpos⟩ := ht.stages st hin
    rw [if_pos hst]
    refine ⟨d, List.mem_filterMap.mpr ⟨st, hin, hd⟩, ?_, hpos⟩
    simp only [plannedStage, asDuration, hd]
    rfl
  · rename_i hst
    obtain rfl := List.mem_singleton.mp h
    obtain ⟨d, hd, hpos⟩ := ht.duration hst
    rw [if_neg hst]
    refine ⟨d, Option.mem_toList.mpr hd, ?_, hpos⟩
    simp only [asDuration, hd]
    rfl

theorem planned_of_duration (h : d ∈ durationsOf ex) :
    ∃ pl ∈ planned s ex, pl.duration = d.asDuration := by
  unfold durationsOf at h
  unfold planned
  split at h
  · rename_i hst
    rw [if_pos hst]
    obtain ⟨st, hin, hd⟩ := List.mem_filterMap.mp h
    obtain ⟨i, hi, rfl⟩ := List.mem_iff_getElem.mp hin
    refine ⟨plannedStage s ex.stages[i] i, List.mem_map.mpr ⟨(ex.stages[i], i), ?_, rfl⟩, ?_⟩
    · exact List.mk_mem_zipIdx_iff_getElem?.mpr (List.getElem?_eq_getElem hi)
    · simp only [plannedStage, asDuration, hd]
      rfl
  · rename_i hst
    rw [if_neg hst]
    refine ⟨_, List.mem_singleton.mpr rfl, ?_⟩
    simp only [asDuration, Option.mem_toList.mp h]
    rfl

theorem Timed.pos (h : Timed ex) (hd : d ∈ durationsOf ex) : 0 < d.asDuration := by
  unfold durationsOf at hd
  split at hd
  · obtain ⟨st, hin, hst⟩ := List.mem_filterMap.mp hd
    obtain ⟨d', hd', hpos⟩ := h.stages st hin
    obtain rfl := Option.some.inj (hst.symm.trans hd')
    exact hpos
  · rename_i hty
    obtain ⟨d', hd', hpos⟩ := h.duration hty
    obtain rfl := Option.some.inj ((Option.mem_toList.mp hd).symm.trans hd')
    exact hpos

/-- An executor that fits the schema runs for some time. -/
theorem Timed.exists_duration (h : Timed ex) : ∃ d, d ∈ durationsOf ex := by
  unfold durationsOf
  split
  · rename_i hst
    obtain ⟨st, hin⟩ := List.exists_mem_of_ne_nil _ (h.needsStages hst)
    obtain ⟨d, hd, -⟩ := h.stages st hin
    exact ⟨d, List.mem_filterMap.mpr ⟨st, hin, hd⟩⟩
  · rename_i hst
    obtain ⟨d, hd, -⟩ := h.duration hst
    exact ⟨d, Option.mem_toList.mpr hd⟩

/-! ## What the engine makes of a request -/

/-- The engine runs an execution for the planned time, with the planned timeout and ramp. -/
structure KeepsTime (s : Scenario) (e : Execution) (o : OptionsImpl) : Prop where
  duration : o.duration = e.duration.ns
  timeout : ∀ t, s.timeout = some t → o.timeout = t.total
  ramp : ∀ ex, s.executor = some ex → ex.type = rampingRate →
    ∃ r, o.rateLimiterPluginConfig
        = some { name := linearRampingRateLimiterPlugin
                 typedConfig := some (.linearRampingRateLimiter (some r)) }
      ∧ r.total = e.rampTime.ns ∧ checkRampTime r o = .ok ()

/-- The times of a scenario are whole seconds that the engine's fields hold. -/
structure WholeSeconds (s : Scenario) : Prop where
  durations : ∀ ex, s.executor = some ex → ∀ d ∈ durationsOf ex, FitsSeconds d
  timeout : ∀ t, s.timeout = some t → FitsSeconds t

/-- The times the engine reads from a request. -/
structure ReadTimes (timeout : Option ParsedDuration) (dur ramp : Span) (o : OptionsImpl) :
    Prop where
  duration : o.duration = ((toUInt32 (Duration.new dur).seconds).toNat : Int) * second
  noDuration : o.noDuration = false
  timeout : ∀ t, timeout = some t → o.timeout = ((toUInt32 t.seconds).toNat : Int) * second
  rateLimiter : o.rateLimiterPluginConfig = rampLimiter ramp

theorem readTimes {v : Scenario} {rate : UInt32} {dur : Span} {o : CommandLineOptions}
    (h : shapeOf o = compiledShape v rate dur ramp) :
    ReadTimes v.timeout dur ramp (OptionsImpl.ofProto o) := by
  have hdur : o.durationOptions = some (.duration (Duration.new dur)) :=
    congrArg Shape.durationOptions h
  have htimeout : o.timeout = (v.timeout.map ParsedDuration.toDuration).or (template v).timeout :=
    congrArg Shape.timeout h
  have hlimiter : o.rateLimiterPluginConfig = rampLimiter ramp := congrArg Shape.rateLimiter h
  refine ⟨?_, ?_, ?_, hlimiter⟩
  · simp only [OptionsImpl.duration, OptionsImpl.ofProto, hdur]
  · simp only [OptionsImpl.ofProto, hdur]
  · intro t ht
    rw [ht] at htimeout
    simp only [OptionsImpl.timeout, OptionsImpl.ofProto, htimeout]
    rfl

theorem rampLimiter_of_pos (h : 0 < ramp) :
    rampLimiter ramp = some
      { name := linearRampingRateLimiterPlugin
        typedConfig := some (.linearRampingRateLimiter (some (Duration.new ramp))) } :=
  if_pos h

/-- A ramp that is shorter than what the engine runs for is accepted. -/
theorem checkRampTime_ok {o : OptionsImpl} (hpos : 0 < ramp) (hshort : ramp.ns ≤ o.duration) :
    checkRampTime (Duration.new ramp) o = .ok () := by
  unfold checkRampTime
  rw [Duration.total_new]
  rw [Span.lt_iff, Span.zero_ns] at hpos
  rw [if_neg (by omega), if_neg]
  simp only [Bool.and_eq_true, decide_eq_true_eq, not_and]
  intro _
  omega

/-- The one execution that a ramp plans. -/
theorem rampTime_of_planned {pl : Planned} {r : ParsedDuration} (hty : ex.type = rampingRate)
    (hr : ex.rampTime = some r) (hd : ex.duration = some d) (h : pl ∈ planned s ex) :
    pl.rampTime = r.asDuration ∧ pl.duration = d.asDuration := by
  unfold planned at h
  rw [if_neg (by rw [hty]; decide)] at h
  obtain rfl := List.mem_singleton.mp h
  simp only [hty, if_true, asDuration, hr, hd]
  exact ⟨rfl, rfl⟩

/-! ## The property -/

/-- The executions of a scenario, with what the engine reads from their requests. -/
theorem readTimes_of_mem {e : Execution} (hparse : parse go p = .ok p') (hs : s ∈ p'.scenarios)
    (hexpand : expand go s = .ok execs) (he : e ∈ execs) :
    ∃ ex₀ ex pl, s.executor = some ex₀ ∧ durationsOf ex = durationsOf ex₀ ∧ ex.type = ex₀.type
      ∧ Timed ex ∧ pl ∈ planned (executedAs s e.target) ex
      ∧ e.duration = pl.duration ∧ e.rampTime = pl.rampTime
      ∧ ReadTimes s.timeout e.duration e.rampTime (OptionsImpl.ofProto e.options) := by
  obtain ⟨-, -, -, ex, pl, hex, hpl, hcarries⟩ := expand_compiled hexpand he
  obtain ⟨ex₀, hex₀, hdurs, hty, htimed⟩ := executedAs_times hex
  have hread := readTimes (options_shape hcarries.options)
  rw [(executedAs_timeout s e.target).1, ← hcarries.duration, ← hcarries.rampTime] at hread
  exact ⟨ex₀, ex, pl, hex₀, hdurs, hty, htimed ((parse_timed hparse hs).1 ex₀ hex₀), hpl,
    hcarries.duration, hcarries.rampTime, hread⟩

theorem keepsTime_of_wholeSeconds {e : Execution} (hparse : parse go p = .ok p')
    (hs : s ∈ p'.scenarios) (hexpand : expand go s = .ok execs) (hwhole : WholeSeconds s)
    (he : e ∈ execs) : KeepsTime s e (.ofProto e.options) := by
  obtain ⟨ex₀, ex, pl, hex₀, hdurs, hty, htimed, hpl, hdur, hramp, hread⟩ :=
    readTimes_of_mem hparse hs hexpand he
  obtain ⟨d, hd, hpd, hpos⟩ := duration_of_planned htimed hpl
  have hkept : (OptionsImpl.ofProto e.options).duration = e.duration.ns := by
    rw [hread.duration, hdur, hpd]
    exact (durationSeconds_eq_iff hpos).mpr (hwhole.durations ex₀ hex₀ d (hdurs ▸ hd))
  refine ⟨hkept, ?_, ?_⟩
  · intro t ht
    rw [hread.timeout t ht]
    exact (timeoutSeconds_eq_iff ((parse_timed hparse hs).2 t ht)).mpr (hwhole.timeout t ht)
  · intro ex₁ hex₁ hramping
    obtain rfl := Option.some.inj (hex₀.symm.trans hex₁)
    obtain ⟨r, d, hr, hd, hrpos, hshort⟩ := htimed.ramp (hty.trans hramping)
    obtain ⟨hpr, hpd⟩ := rampTime_of_planned (hty.trans hramping) hr hd hpl
    have hpos : 0 < e.rampTime := by rw [hramp, hpr]; exact hrpos
    refine ⟨Duration.new e.rampTime, ?_, Duration.total_new _, checkRampTime_ok hpos ?_⟩
    · rw [hread.rateLimiter, rampLimiter_of_pos hpos]
    · rw [hkept, hdur, hramp, hpr, hpd]
      exact Int.le_of_lt hshort

/-- A scenario that expands has an executor. -/
theorem expand_executor (h : expand go s = .ok execs) : ∃ ex, s.executor = some ex := by
  unfold expand expandScenario at h
  obtain ⟨inner, hinner, -⟩ := bind_ok_iff.mp h
  split at hinner
  · obtain ⟨ex, hex, -⟩ := expandOne_ok hinner
    exact ⟨ex, hex⟩
  · rename_i hts
    obtain ⟨raw, hraw, -⟩ := bind_ok_iff.mp hinner
    obtain ⟨t, ht⟩ := List.exists_mem_of_ne_nil s.targets (by simpa using hts)
    obtain ⟨part, hpart⟩ := expandTargets_variant_ok hraw t ht
    obtain ⟨ex, hex, -⟩ := expandOne_ok hpart
    obtain ⟨ex₀, hex₀, -⟩ := variant_executor hex
    exact ⟨ex₀, hex₀⟩

/-- Every duration of a scenario is that of one of its executions. -/
theorem exists_execution (hexpand : expand go s = .ok execs) (hex : s.executor = some ex)
    (hd : d ∈ durationsOf ex) : ∃ e ∈ execs, e.duration = d.asDuration := by
  obtain ⟨v, ex', hv, hex', hdurs⟩ : ∃ v ex', v ∈ variants s ∧ v.executor = some ex'
      ∧ durationsOf ex' = durationsOf ex := by
    unfold variants
    cases hts : s.targets with
    | nil => exact ⟨s, ex, List.mem_singleton.mpr rfl, hex, rfl⟩
    | cons t ts =>
      have hscaled : (variant s t).executor = some (Executor.scaled ex (weightOf t).toUInt64
          (totalWeight s.targets)) := by
        show s.executor.map _ = _
        rw [hex]
        rfl
      exact ⟨variant s t, _, List.mem_map_of_mem List.mem_cons_self, hscaled,
        durationsOf_scaled _ _ _⟩
  obtain ⟨pl, hpl, hdur⟩ := planned_of_duration (s := v) (hdurs ▸ hd)
  obtain ⟨e, he, -, hcarries⟩ := expand_covers hexpand hv hex' hpl
  exact ⟨e, he, hcarries.duration.trans hdur⟩

theorem wholeSeconds_of_keepsTime (hparse : parse go p = .ok p') (hs : s ∈ p'.scenarios)
    (hexpand : expand go s = .ok execs)
    (hkeeps : ∀ e ∈ execs, KeepsTime s e (.ofProto e.options))
    (hexec : ∃ ex, s.executor = some ex) : WholeSeconds s := by
  obtain ⟨htimed, htimeout⟩ := parse_timed hparse hs
  refine ⟨?_, ?_⟩
  · intro ex hex d hd
    obtain ⟨e, he, hdur⟩ := exists_execution hexpand hex hd
    obtain ⟨-, -, -, -, -, -, -, -, -, -, hread⟩ := readTimes_of_mem hparse hs hexpand he
    rw [← durationSeconds_eq_iff ((htimed ex hex).pos hd), ← hdur, ← hread.duration]
    exact (hkeeps e he).duration
  · -- any execution will do
    intro t ht
    obtain ⟨ex, hex⟩ := hexec
    obtain ⟨d, hd⟩ := (htimed ex hex).exists_duration
    obtain ⟨e, he, -⟩ := exists_execution hexpand hex hd
    obtain ⟨-, -, -, -, -, -, -, -, -, -, hread⟩ := readTimes_of_mem hparse hs hexpand he
    rw [← timeoutSeconds_eq_iff (htimeout t ht), ← hread.timeout t ht]
    exact (hkeeps e he).timeout t ht

/-- **The engine runs the planned times exactly when they are whole seconds below 2^32.** -/
theorem keepsTime_iff {p p' : Plan} {s : Scenario} {execs : List Execution}
    (hparse : parse go p = .ok p') (hs : s ∈ p'.scenarios) (hexpand : expand go s = .ok execs) :
    (∀ e ∈ execs, KeepsTime s e (.ofProto e.options)) ↔ WholeSeconds s := by
  constructor
  · intro hkeeps
    exact wholeSeconds_of_keepsTime hparse hs hexpand hkeeps (expand_executor hexpand)
  · exact fun hwhole e he => keepsTime_of_wholeSeconds hparse hs hexpand hwhole he

/-- A scenario that ramps up to ten requests per second. -/
def rampedFor (duration rampTime : ParsedDuration) : Scenario :=
  scenarioOf
    { type := rampingRate, rate := 10, duration := some duration, rampTime := some rampTime }

/-- Two seconds with a ramp of half a second. -/
theorem keepsTime_twoSeconds : ∃ e,
    expand Go.bare (rampedFor (.ofMillis 2000) (.ofMillis 500)) = .ok [e]
      ∧ KeepsTime (rampedFor (.ofMillis 2000) (.ofMillis 500)) e (.ofProto e.options) := by
  have hparse : parse Go.bare (planOf (rampedFor (.ofMillis 2000) (.ofMillis 500)))
      = .ok (planOf (rampedFor (.ofMillis 2000) (.ofMillis 500))) := rfl
  obtain ⟨e, hexpand⟩ :
      ∃ e, expand Go.bare (rampedFor (.ofMillis 2000) (.ofMillis 500)) = .ok [e] :=
    ⟨_, rfl⟩
  have hwhole : WholeSeconds (rampedFor (.ofMillis 2000) (.ofMillis 500)) := by
    refine ⟨?_, fun t ht => absurd ht (by simp [rampedFor, scenarioOf])⟩
    intro ex hex d hd
    cases hex
    obtain rfl := List.mem_singleton.mp hd
    exact ⟨rfl, by decide⟩
  refine ⟨e, hexpand, ?_⟩
  exact (keepsTime_iff hparse (List.mem_singleton.mpr rfl) hexpand).mpr hwhole e
    (List.mem_singleton.mpr rfl)

/-- 0.9 seconds with a ramp of half a second: the engine runs for 0 seconds and refuses the ramp. -/
theorem not_keepsTime_nineTenths : ∃ e,
    parse Go.bare (planOf (rampedFor (.ofMillis 900) (.ofMillis 500)))
        = .ok (planOf (rampedFor (.ofMillis 900) (.ofMillis 500)))
      ∧ expand Go.bare (rampedFor (.ofMillis 900) (.ofMillis 500)) = .ok [e]
      ∧ e.duration.ns = 900000000 ∧ (OptionsImpl.ofProto e.options).duration = 0
      ∧ checkRampTime (Duration.new e.rampTime) (OptionsImpl.ofProto e.options)
        = .error "ramp_time must be less than or equal to time specified by --duration"
      ∧ ¬ KeepsTime (rampedFor (.ofMillis 900) (.ofMillis 500)) e (.ofProto e.options) := by
  refine ⟨_, rfl, rfl, rfl, rfl, rfl, ?_⟩
  intro h
  exact absurd h.duration (by decide)

end Sortie.Proof
