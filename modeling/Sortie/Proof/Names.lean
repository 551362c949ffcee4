import Sortie.Proof.StatsPrefixes

/-!
# What the names of a plan tell apart

The schema has a rule for pool names and one for scenario names, and neither says
anything: each compares the length of a list with the length of the list of its names.
The pass that follows puts the pool names into a set, which forgets repetitions, and
looks scenarios up in nothing. `PoolFor` takes the first pool of a name.

One check does look at scenario names, for another reason: two executions with a
statsd sink may not write under one metric prefix, and the prefix is made from the
scenario's name. So scenarios of one name are refused exactly where two of their
executions would meet in a prefix.
-/

namespace Sortie.Proof

open Proto Api Plan Checks Compile

variable {F : Type} {go : Go F}

/-- Every name of a plan stands for one thing. -/
structure NamesIdentify (p : Plan) : Prop where
  pools : (p.pools.map Pool.name).Nodup
  scenarios : (p.scenarios.map Scenario.name).Nodup
  /-- `PoolFor` returns the only pool of the name -/
  poolFor : ∀ s ∈ p.scenarios,
    (p.pools.filter fun pool => pool.name == s.pool) = [Plan.poolFor p s]

/-- Two scenarios have executions that would write under one metric prefix. -/
def SharePrefix (p : Plan) (s s' : Scenario) : Prop :=
  ∃ emitted ∈ checkedPrefixes p s, emitted ∈ checkedPrefixes p s'

/-- Scenarios of one name are only listed where the check of metric prefixes sees them. -/
def RepeatsSeen (p : Plan) : Prop :=
  p.scenarios.Pairwise fun s s' => s.name = s'.name → SharePrefix p s s'

theorem prefixes_checked {p p' : Plan} (h : parse go p = .ok p') :
    (p.scenarios.flatMap (checkedPrefixes p)).Nodup := by
  obtain ⟨-, hb, -⟩ := parse_ok h
  simp only [validateBeyondSchema, bind_ok_iff, exists_unit_ok_iff, each_ok_iff] at hb
  obtain ⟨-, -, -, -, -, hprefixes, -⟩ := hb
  exact (validateStatsPrefixes_ok hprefixes).1

/-- Accepted scenarios share no prefix. -/
theorem names_of_repeatsSeen {p p' : Plan} (h : parse go p = .ok p') :
    (p.scenarios.map Scenario.name).Nodup ↔ RepeatsSeen p := by
  rw [List.Nodup, List.pairwise_map]
  have hapart := (List.nodup_flatMap.mp (prefixes_checked h)).2
  constructor
  · exact fun hnodup => hnodup.imp fun hne heq => absurd heq hne
  · intro hseen
    refine (hapart.and hseen).imp ?_
    rintro s s' ⟨hdisjoint, hshare⟩ heq
    obtain ⟨emitted, hs, hs'⟩ := hshare heq
    exact hdisjoint hs hs'

theorem names_merged (p : Plan) :
    (p.scenarios.map (merged p)).map Scenario.name = p.scenarios.map Scenario.name := by
  rw [List.map_map]
  rfl

/-- The pool of a scenario of an accepted plan is declared. -/
theorem pool_declared {p p' : Plan} {s : Scenario} (h : parse go p = .ok p')
    (hs : s ∈ p'.scenarios) : s.pool ∈ p.pools.map Pool.name := by
  obtain ⟨s₀, -, rfl, -, -, hchecked⟩ := parse_scenario h hs
  simp only [validateScenario, bind_ok_iff, exists_unit_ok_iff, require_ok_iff, exists_const]
    at hchecked
  obtain ⟨-, -, hpool, -⟩ := hchecked
  exact List.contains_iff_mem.mp hpool

theorem pools_parsed {p p' : Plan} (h : parse go p = .ok p') : p'.pools = p.pools := by
  unfold parse at h
  split at h
  · split at h
    · cases h
    · rw [← Except.ok.inj h]
      rfl
  · cases h

/-- Among pools of different names, the first of a name is the only one. -/
theorem filter_eq_poolFor {p : Plan} {s : Scenario} (hnodup : (p.pools.map Pool.name).Nodup)
    (hmem : s.pool ∈ p.pools.map Pool.name) :
    (p.pools.filter fun pool => pool.name == s.pool) = [Plan.poolFor p s] := by
  unfold Plan.poolFor
  rw [← List.head?_filter]
  obtain ⟨pool, hpool, hname⟩ := List.mem_map.mp hmem
  have hin : pool ∈ p.pools.filter fun pool => pool.name == s.pool :=
    List.mem_filter.mpr ⟨hpool, beq_iff_eq.mpr hname⟩
  cases hfilter : p.pools.filter fun pool => pool.name == s.pool with
  | nil =>
    rw [hfilter] at hin
    exact absurd hin List.not_mem_nil
  | cons first rest =>
    cases rest with
    | nil => rfl
    | cons second rest =>
      -- two pools of one name
      have hsub : [first, second].Sublist p.pools :=
        ((List.nil_sublist rest).cons_cons second |>.cons_cons first).trans
          (hfilter ▸ List.filter_sublist)
      have hpair := hnodup.sublist (hsub.map Pool.name)
      have hboth : ∀ x ∈ [first, second], x.name = s.pool := by
        intro x hx
        have hxf : x ∈ p.pools.filter fun pool => pool.name == s.pool := by
          rw [hfilter]
          rcases List.mem_cons.mp hx with rfl | hx
          · exact List.mem_cons_self
          · exact List.mem_cons_of_mem _ (List.mem_singleton.mp hx ▸ List.mem_cons_self)
        exact beq_iff_eq.mp (List.mem_filter.mp hxf).2
      rw [List.map_cons, List.map_cons, hboth first (by simp), hboth second (by simp)] at hpair
      exact absurd hpair (by simp)

/--
**When the names of an accepted plan identify**: exactly when its pools have different names,
and scenarios of one name occur only where two of their executions share a metric prefix
(where they do not occur, since the plan was accepted).
-/
theorem namesIdentify_iff {p p' : Plan} (h : parse go p = .ok p') :
    NamesIdentify p' ↔ (p.pools.map Pool.name).Nodup ∧ RepeatsSeen p := by
  obtain ⟨-, -, hscenarios⟩ := parse_ok h
  have hpools := pools_parsed h
  have hnames : p'.scenarios.map Scenario.name = p.scenarios.map Scenario.name := by
    rw [hscenarios, names_merged]
  constructor
  · rintro ⟨hp, hs, -⟩
    rw [hpools] at hp
    rw [hnames] at hs
    exact ⟨hp, (names_of_repeatsSeen h).mp hs⟩
  · rintro ⟨hp, hseen⟩
    rw [← hpools] at hp
    refine ⟨hp, hnames ▸ (names_of_repeatsSeen h).mpr hseen, fun s hs => ?_⟩
    exact filter_eq_poolFor hp (hpools ▸ pool_declared h hs)

/-- A plan of two pools and two scenarios at the same rate, by their names. -/
def namedPlan (pool pool' scenario scenario' : String) : Plan where
  version := "v1"
  pools := [{ name := pool, services := ["one:8443"] }, { name := pool', services := ["two:8443"] }]
  scenarios :=
    [{ scenarioOf { type := constantRate, rate := 10, duration := some (.ofMillis 1000) } with
        name := scenario, pool := pool },
      { scenarioOf { type := constantRate, rate := 10, duration := some (.ofMillis 1000) } with
        name := scenario', pool := pool' }]

theorem namesIdentify_namedPlan : ∃ p',
    parse Go.bare (namedPlan "blue" "green" "load" "soak") = .ok p' ∧ NamesIdentify p' := by
  obtain ⟨p', hparse⟩ : ∃ p', parse Go.bare (namedPlan "blue" "green" "load" "soak") = .ok p' :=
    ⟨_, rfl⟩
  refine ⟨p', hparse, (namesIdentify_iff hparse).mpr ⟨by decide, ?_⟩⟩
  refine List.pairwise_cons.mpr ⟨fun s' hs' heq => ?_, List.pairwise_singleton _ _⟩
  obtain rfl := List.mem_singleton.mp hs'
  exact absurd heq (by decide)

/-- Two pools and two scenarios of one name are accepted, and the second pool is never found. -/
theorem names_repeated : ∃ p', parse Go.bare (namedPlan "blue" "blue" "load" "load") = .ok p'
    ∧ p'.pools.map Pool.name = ["blue", "blue"] ∧ p'.scenarios.map Scenario.name = ["load", "load"]
    ∧ p'.scenarios.map (fun s => (Plan.poolFor p' s).services) = [["one:8443"], ["one:8443"]]
    ∧ ¬ NamesIdentify p' := by
  refine ⟨_, rfl, rfl, rfl, rfl, fun h => ?_⟩
  exact absurd h.pools (by decide)

end Sortie.Proof
