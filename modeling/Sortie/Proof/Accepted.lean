import Sortie.Plan.Validate

/-!
# What an accepted plan guarantees

The facts about a plan that `parse` accepted which the compiler and the runner rely
on. The checks beyond the schema ran on the plan as written, so each fact is carried
over the folding-in of the defaults.
-/

namespace Sortie.Proof

open Proto Api Plan Checks

variable {F : Type} {go : Go F}

/-- A scenario with everything it inherits folded in. -/
def merged (p : Plan) (s : Scenario) : Scenario :=
  withDefaults (p.defaults.getD {})
    { s with stats := (s.stats.or (p.defaults.bind Scenario.stats)).or p.stats }

/-- A field of its own, or an inherited one that is empty just as the own one is. -/
theorem own_or_empty {α : Type} {own : Bool} {a b : α} (h : own = false → a = b) :
    (if own = true then a else b) = a := by
  cases own with
  | true => rfl
  | false => exact (h rfl).symm

/-- An empty defaults block changes nothing. -/
theorem withDefaults_empty (s : Scenario) : withDefaults {} s = s := by
  have heff : ∀ a : String, effective a "" = a := by
    intro a
    unfold effective
    split
    · rename_i ha; exact ha.symm
    · rfl
  have htarget :
      (s.target != "" || !s.targets.isEmpty) = false → s.target = "" ∧ s.targets = [] := by
    intro h; simpa using h
  have hbody : (s.body != "" || s.bodyFile != "") = false → s.body = "" ∧ s.bodyFile = "" := by
    intro h; simpa using h
  have hheaders : (if s.headers.isEmpty = true then [] else s.headers) = s.headers := by
    split
    · rename_i h; exact (List.isEmpty_iff.mp h).symm
    · rfl
  unfold withDefaults
  simp only [heff, Option.or_none]
  rw [own_or_empty (fun h => (htarget h).1), own_or_empty (fun h => (htarget h).2),
    own_or_empty (fun h => (hbody h).1), own_or_empty (fun h => (hbody h).2), hheaders]

theorem scenarios_applyDefaults (p : Plan) :
    (applyDefaults p).scenarios = p.scenarios.map (merged p) := by
  unfold applyDefaults
  apply List.map_congr_left
  intro s _
  cases hd : p.defaults with
  | none => simp only [merged, hd, Option.getD_none, withDefaults_empty]
  | some d => simp only [merged, hd, Option.getD_some]

/-- **What acceptance means**: no violation, no error, and the defaults folded in. -/
theorem parse_ok {p p' : Plan} (h : parse go p = .ok p') :
    p.violations = [] ∧ validateBeyondSchema go p = .ok ()
      ∧ p'.scenarios = p.scenarios.map (merged p) := by
  unfold parse at h
  split at h
  · rename_i hv
    split at h
    · cases h
    · rename_i hb
      refine ⟨hv, hb, ?_⟩
      rw [← Except.ok.inj h]
      exact scenarios_applyDefaults p
  · cases h

/-- The defaults block of a plan, empty when it has none. -/
def defaultsOf (p : Plan) : Scenario := p.defaults.getD {}

/-- Every scenario of an accepted plan was checked as it was written, and so was its defaults. -/
theorem parse_scenario {p p' : Plan} {s : Scenario} (h : parse go p = .ok p')
    (hs : s ∈ p'.scenarios) :
    ∃ s₀ ∈ p.scenarios, s = merged p s₀ ∧ s₀.violations = [] ∧ (defaultsOf p).violations = []
      ∧ validateScenario go p s₀ = .ok () := by
  obtain ⟨hv, hb, hscen⟩ := parse_ok h
  rw [hscen] at hs
  obtain ⟨s₀, hs₀, rfl⟩ := List.mem_map.mp hs
  simp only [Plan.violations, List.append_eq_nil_iff, List.flatMap_eq_nil_iff] at hv
  obtain ⟨⟨⟨⟨-, hd⟩, -⟩, hall⟩, -⟩ := hv
  simp only [validateBeyondSchema, bind_ok_iff, exists_unit_ok_iff, each_ok_iff] at hb
  obtain ⟨-, -, -, -, -, -, -, -, hchecked⟩ := hb
  refine ⟨s₀, hs₀, rfl, hall s₀ hs₀, ?_, hchecked s₀ hs₀⟩
  unfold defaultsOf
  cases hdef : p.defaults with
  | none => decide
  | some d => rw [hdef] at hd; exact hd

/-- A plan of one scenario, on a pool of one engine. -/
def planOf (s : Scenario) : Plan :=
  { version := "v1", pools := [{ name := "engines", services := ["engine:8443"] }]
    scenarios := [s] }

/-- A scenario of that plan with nothing but a target and an executor. -/
def scenarioOf (ex : Executor) : Scenario :=
  { name := "load", pool := "engines", target := "http://origin:80/", executor := some ex }

/-! ## Raw targets exclude the streaming modes -/

/-- The target selects a mode without HTTP. -/
def isRaw (target : String) : Bool := isUdpTarget target || isTcpTarget target

theorem validateModes_raw {d v : Scenario} (h : validateModes d v = .ok ())
    (hraw : isRaw (effective v.target d.target) = true) :
    (v.grpc = none ∧ d.grpc = none) ∧ v.websocket = none ∧ d.websocket = none := by
  simp only [validateModes, bind_ok_iff, exists_unit_ok_iff] at h
  obtain ⟨-, -, -, htcp, hudp⟩ := h
  rcases Bool.or_eq_true_iff.mp hraw with hu | ht
  · unfold validateUdp at hudp
    simp only [if_pos hu, bind_ok_iff, exists_unit_ok_iff, require_ok_iff, exists_const,
      Bool.and_eq_true, Option.isNone_iff_eq_none] at hudp
    obtain ⟨-, ⟨⟨⟨⟨⟨hg, hdg⟩, hw⟩, hdw⟩, -⟩, -⟩, -⟩ := hudp
    exact ⟨⟨hg, hdg⟩, hw, hdw⟩
  · unfold validateTcp at htcp
    simp only [if_pos ht, bind_ok_iff, exists_unit_ok_iff, require_ok_iff, exists_const,
      Bool.and_eq_true, Option.isNone_iff_eq_none] at htcp
    obtain ⟨-, ⟨⟨⟨hg, hdg⟩, hw⟩, hdw⟩, -⟩ := htcp
    exact ⟨⟨hg, hdg⟩, hw, hdw⟩

/-- The url of a target that fits the schema is not empty, so it is the effective target. -/
theorem effective_url {s : Scenario} {t : Target} (hs : s.violations = []) (ht : t ∈ s.targets)
    (b : String) : effective t.url b = t.url := by
  simp only [Scenario.violations, List.append_eq_nil_iff, List.flatMap_eq_nil_iff] at hs
  have hurl := hs.2 t ht
  simp only [Target.violations, List.append_eq_nil_iff, rule] at hurl
  unfold effective
  rw [if_neg]
  intro hempty
  rw [hempty] at hurl
  exact absurd hurl.1.2 (by decide)

/-- What is inherited before the checks: a target list, or nothing. -/
theorem inheritTargets_cases (d s : Scenario) :
    inheritTargets d s = s ∨ inheritTargets d s = { s with targets := d.targets } := by
  unfold inheritTargets
  split
  · exact Or.inr rfl
  · exact Or.inl rfl

/-- The target list a merged scenario ends up with. -/
theorem targets_merged (p : Plan) (s : Scenario) :
    (merged p s).targets = (inheritTargets (defaultsOf p) s).targets := by
  unfold merged withDefaults inheritTargets defaultsOf
  by_cases ht : s.target = "" <;> by_cases hts : s.targets = [] <;>
    by_cases hdt : (p.defaults.getD {}).targets = [] <;> simp [ht, hts, hdt]

/-- A variant of a merged scenario was checked as the variant it comes from. -/
theorem variant_checked {p : Plan} {s₀ v : Scenario} (hs₀ : s₀.violations = [])
    (hd : (defaultsOf p).violations = []) (hv : v ∈ variants (merged p s₀)) :
    ∃ v₀ ∈ variants (inheritTargets (defaultsOf p) s₀),
      effective v₀.target (defaultsOf p).target = v.target
        ∧ v.grpc = v₀.grpc.or (defaultsOf p).grpc
        ∧ v.websocket = v₀.websocket.or (defaultsOf p).websocket := by
  unfold variants at hv ⊢
  rw [targets_merged] at hv
  split at hv
  · rename_i hempty
    obtain rfl := List.mem_singleton.mp hv
    rw [if_pos hempty]
    refine ⟨_, List.mem_singleton.mpr rfl, ?_, ?_⟩
    · unfold merged withDefaults inheritTargets effective defaultsOf at *
      by_cases ht : s₀.target = "" <;> by_cases hts : s₀.targets = [] <;>
        by_cases hdt : (p.defaults.getD {}).targets = [] <;> simp_all
    · rcases inheritTargets_cases (defaultsOf p) s₀ with h | h <;> rw [h] <;> exact ⟨rfl, rfl⟩
  · rename_i hempty
    obtain ⟨t, ht, rfl⟩ := List.mem_map.mp hv
    rw [if_neg hempty]
    refine ⟨_, List.mem_map_of_mem ht, ?_, ?_⟩
    · -- a target comes from the scenario or from the defaults, and has a url either way
      rcases inheritTargets_cases (defaultsOf p) s₀ with h | h <;> rw [h] at ht
      · exact effective_url hs₀ ht _
      · exact effective_url hd ht _
    · rcases inheritTargets_cases (defaultsOf p) s₀ with h | h <;> rw [h] <;> exact ⟨rfl, rfl⟩

/-- **No accepted scenario streams to a raw target.** -/
theorem parse_raw_excludes_streams {p p' : Plan} {s v : Scenario} (h : parse go p = .ok p')
    (hs : s ∈ p'.scenarios) (hv : v ∈ variants s) (hraw : isRaw v.target = true) :
    v.grpc = none ∧ v.websocket = none := by
  obtain ⟨s₀, -, rfl, hviol, hdviol, hchecked⟩ := parse_scenario h hs
  obtain ⟨v₀, hv₀, htarget, hgrpc, hws⟩ := variant_checked hviol hdviol hv
  simp only [validateScenario, bind_ok_iff, exists_unit_ok_iff, each_ok_iff,
    mapError_ok_iff] at hchecked
  obtain ⟨-, -, -, -, -, -, -, -, hmodes, -⟩ := hchecked
  rw [← htarget] at hraw
  obtain ⟨⟨hg, hdg⟩, hw, hdw⟩ := validateModes_raw (hmodes v₀ hv₀) hraw
  rw [hgrpc, hws, hg, hw]
  exact ⟨hdg, hdw⟩

end Sortie.Proof
