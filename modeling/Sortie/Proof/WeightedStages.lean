import Sortie.Lib.HostPort
import Sortie.Proof.Compiled
import Sortie.Run.Runner

/-!
# Weighted stages run whole and in step

`Expand` compiles a weighted scenario target by target and then sorts the executions
by stage; the loop of `Run` cuts the result wherever the group's name changes. Both
are described by the places of the executions: label, stage, group and target. Sorting
turns the list around, one block of places for each stage with the targets in the
order of the plan, and the loop cuts it into exactly these blocks, because a block
shares one name and no two blocks do.

The name of a group is the scenario's, and the empty name is how an execution says
that it runs alone. An unnamed scenario therefore runs its targets one after another
unless it is a staircase; a plan that holds one is refused.
-/

namespace Sortie.Proof

open Proto Api Plan Compile Checks
open Run (groups groupsFrom)

variable {F : Type} {go : Go F}
variable {s : Scenario} {ex : Executor} {ts : List Target} {i j : Nat}

/-- The place of an execution among those of its scenario. -/
structure Place where
  label : String
  stage : Nat
  group : String
  target : Option Target
  deriving DecidableEq, Repr

def placeOf (e : Execution) : Place := ⟨e.label, e.stage, e.group, e.target⟩

/-- How many stages an executor runs in. -/
def stageCount (ex : Executor) : Nat := if ex.type = staircase then ex.stages.length else 1

/-- The place of a target's execution in a stage, counted from 0. -/
def place (s : Scenario) (ex : Executor) (i : Nat) (t : Target) : Place :=
  if ex.type = staircase then
    { label := stageLabel (s.name ++ "/" ++ t.name) (i + 1), stage := i + 1
      group := stageLabel s.name (i + 1), target := some t }
  else { label := s.name ++ "/" ++ t.name, stage := 0, group := s.name, target := some t }

/-! ## Target by target -/

/-- Lists that are related entry by entry, in values that the relation makes equal. -/
theorem map_eq_map_of_forall₂ {α β γ : Type} {R : α → β → Prop} {f : α → γ} {g : β → γ}
    (hR : ∀ a b, R a b → g b = f a) {as : List α} {bs : List β} (h : List.Forall₂ R as bs) :
    bs.map g = as.map f := by
  induction h with
  | nil => rfl
  | cons hab _ ih => rw [List.map_cons, List.map_cons, hR _ _ hab, ih]

/-- The place of a plan of a target's variant. -/
def placePlanned (s : Scenario) (t : Target) (pl : Planned) : Place where
  label := pl.label
  stage := pl.stage
  group := if 0 < pl.stage then stageLabel s.name pl.stage else s.name
  target := some t

theorem places_planned (t : Target) (w total : UInt64) :
    (planned (variant s t) (Executor.scaled ex w total)).map (placePlanned s t)
      = (List.range (stageCount ex)).map fun i => place s ex i t := by
  unfold planned stageCount place
  rw [scaled_type]
  by_cases hst : ex.type = staircase
  · rw [if_pos hst, if_pos hst, List.map_map]
    have hlen : (Executor.scaled ex w total).stages.length = ex.stages.length := by
      unfold Executor.scaled
      split
      · exact List.length_map _
      · rfl
    -- the place of a stage depends on its number alone
    have hsnd : (placePlanned s t ∘ fun (x : Stage × Nat) => plannedStage (variant s t) x.1 x.2)
        = (fun i => placePlanned s t (plannedStage (variant s t) {} i)) ∘ Prod.snd := rfl
    simp only [if_pos hst]
    rw [hsnd, ← List.map_map, List.zipIdx_map_snd, hlen, List.range_eq_range']
    refine List.map_congr_left fun i _ => ?_
    rfl
  · simp only [if_neg hst]
    rfl

theorem places_expandOne {t : Target} {part : List Execution} (hex : s.executor = some ex)
    (h : expandOne go (variant s t) = .ok part) :
    (part.map (ofTarget s t)).map placeOf
      = (List.range (stageCount ex)).map fun i => place s ex i t := by
  obtain ⟨ex', hex', hall⟩ := expandOne_ok h
  obtain ⟨ex₀, hex₀, rfl⟩ := variant_executor hex'
  obtain rfl := Option.some.inj (hex.symm.trans hex₀)
  rw [← places_planned t (weightOf t).toUInt64 (totalWeight s.targets), List.map_map]
  refine map_eq_map_of_forall₂ (fun pl e hc => ?_) hall
  unfold placePlanned
  rw [← hc.1.label, ← hc.1.stage]
  rfl

theorem places_expandTargets (hex : s.executor = some ex) {raw : List Execution}
    (h : expandTargets go s ts = .ok raw) :
    raw.map placeOf
      = ts.flatMap fun t => (List.range (stageCount ex)).map fun i => place s ex i t := by
  induction ts generalizing raw with
  | nil =>
    cases h
    rfl
  | cons t ts ih =>
    obtain ⟨part, hpart, h⟩ := bind_ok_iff.mp h
    obtain ⟨rest, hrest, h⟩ := bind_ok_iff.mp h
    cases h
    rw [List.map_append, places_expandOne hex hpart, ih hrest, List.flatMap_cons]

/-! ## Stage by stage -/

theorem filter_range_beq {n st : Nat} (h : st < n) :
    (List.range n).filter (fun i => i == st) = [st] := by
  rw [List.filter_beq, List.count_eq_one_of_mem List.nodup_range (List.mem_range.mpr h)]
  rfl

/-- The places of one stage, out of those that are listed target by target. -/
theorem filter_places (hst : ex.type = staircase) (ts : List Target) {n st : Nat} (h : st < n) :
    (ts.flatMap fun t => (List.range n).map fun i => place s ex i t).filter
        (fun p => p.stage == st + 1)
      = ts.map (place s ex st) := by
  have hone : ∀ t, ((List.range n).map fun i => place s ex i t).filter
      (fun p => p.stage == st + 1) = [place s ex st t] := by
    intro t
    have hstage : ((fun p : Place => p.stage == st + 1) ∘ fun i => place s ex i t)
        = fun i => i == st := by
      funext i
      unfold place
      simp [hst]
    rw [List.filter_map, hstage, filter_range_beq h]
    rfl
  induction ts with
  | nil => rfl
  | cons t ts ih =>
    rw [List.flatMap_cons, List.filter_append, hone, ih]
    rfl

/-- The last stage there is. -/
theorem last_stage (hst : ex.type = staircase) (hts : ts ≠ []) (n : Nat) :
    ((ts.flatMap fun t => (List.range n).map fun i => place s ex i t).map Place.stage).foldl max 0
      = n := by
  have hstage : ∀ i t, (place s ex i t).stage = i + 1 := by
    intro i t
    unfold place
    rw [if_pos hst]
  refine Nat.le_antisymm ((foldl_max_le_iff _ _ _).2 ⟨Nat.zero_le n, ?_⟩) ?_
  · intro x hx
    obtain ⟨p, hp, rfl⟩ := List.mem_map.mp hx
    obtain ⟨t, -, hp⟩ := List.mem_flatMap.mp hp
    obtain ⟨i, hi, rfl⟩ := List.mem_map.mp hp
    rw [hstage]
    exact List.mem_range.mp hi
  · cases n with
    | zero => exact Nat.zero_le _
    | succ n =>
      obtain ⟨t, ht⟩ := List.exists_mem_of_ne_nil ts hts
      refine ((foldl_max_le_iff _ _ _).1 (Nat.le_refl _)).2 (n + 1) ?_
      refine List.mem_map.mpr ⟨place s ex n t, ?_, hstage n t⟩
      exact List.mem_flatMap.mpr ⟨t, ht, List.mem_map.mpr ⟨n, by simp, rfl⟩⟩

/-- **Sorting by stage puts the targets of a stage next to each other, in their order.** -/
theorem places_byStage (hex : s.executor = some ex) (hts : ts ≠ []) {raw : List Execution}
    (h : expandTargets go s ts = .ok raw) :
    (byStage raw).map placeOf
      = (List.range (stageCount ex)).flatMap fun i => ts.map (place s ex i) := by
  have hraw := places_expandTargets hex h
  by_cases hst : ex.type = staircase
  · have hstages : raw.map Execution.stage = (raw.map placeOf).map Place.stage := by
      rw [List.map_map]
      rfl
    unfold byStage
    dsimp only
    rw [hstages, hraw, last_stage hst hts]
    split
    · rename_i hzero
      rw [hraw, hzero]
      exact List.flatMap_eq_nil_iff.mpr fun _ _ => rfl
    · rw [List.map_flatMap]
      refine List.flatMap_congr fun st hmem => ?_
      have hfilter : (raw.filter fun e => e.stage == st + 1).map placeOf
          = (raw.map placeOf).filter fun p => p.stage == st + 1 := by
        rw [List.filter_map]
        rfl
      rw [hfilter, hraw, filter_places hst ts (List.mem_range.mp hmem)]
  · -- one stage, and nothing to sort
    have hcount : stageCount ex = 1 := if_neg hst
    rw [hcount] at hraw ⊢
    have hone : raw.map placeOf = ts.map (place s ex 0) := by
      rw [hraw, List.map_eq_flatMap]
      rfl
    rw [byStage_eq_self, hone]
    · simp
    · intro e he
      have hmem : placeOf e ∈ ts.map (place s ex 0) := hone ▸ List.mem_map_of_mem he
      obtain ⟨t, -, hplace⟩ := List.mem_map.mp hmem
      have hstage : e.stage = (place s ex 0 t).stage := by rw [hplace]; rfl
      rw [hstage]
      unfold place
      rw [if_neg hst]

/-! ## Cutting the list into groups -/

theorem groupsFrom_append {e : Execution} (hne : e.group ≠ "") {block : List Execution}
    (hblock : ∀ f ∈ block, f.group = e.group) (group rest : List Execution) :
    groupsFrom e group (block ++ rest) = groupsFrom e (group ++ block) rest := by
  induction block generalizing group with
  | nil => rw [List.nil_append, List.append_nil]
  | cons f block ih =>
    rw [List.cons_append, groupsFrom, if_pos ⟨hne, hblock f List.mem_cons_self⟩,
      ih (fun g hg => hblock g (List.mem_cons_of_mem _ hg)), List.append_assoc]
    rfl

theorem groupsFrom_other {e : Execution} {group rest : List Execution}
    (h : ∀ f ∈ rest.head?, f.group ≠ e.group) :
    groupsFrom e group rest = (e :: group) :: groups rest := by
  cases rest with
  | nil => rfl
  | cons f rest =>
    rw [groupsFrom, if_neg fun hc => h f rfl hc.2]
    rfl

/-- A block is a list of executions that share a name, and share it with no other block. -/
structure Blocks (bs : List (List Execution)) : Prop where
  nonempty : ∀ b ∈ bs, b ≠ []
  named : ∀ b ∈ bs, ∀ e ∈ b, e.group ≠ ""
  shared : ∀ b ∈ bs, ∀ e ∈ b, ∀ f ∈ b, f.group = e.group
  apart : bs.Pairwise fun b c => ∀ e ∈ b, ∀ f ∈ c, f.group ≠ e.group

/-- **The loop of `Run` cuts a list of blocks into these blocks.** -/
theorem groups_flatten_blocks {bs : List (List Execution)} (h : Blocks bs) :
    groups bs.flatten = bs := by
  induction bs with
  | nil => rfl
  | cons b bs ih =>
    have hrest : Blocks bs :=
      ⟨fun c hc => h.nonempty c (List.mem_cons_of_mem _ hc),
        fun c hc => h.named c (List.mem_cons_of_mem _ hc),
        fun c hc => h.shared c (List.mem_cons_of_mem _ hc), (List.pairwise_cons.mp h.apart).2⟩
    cases b with
    | nil => exact absurd rfl (h.nonempty [] List.mem_cons_self)
    | cons e b =>
      have hb : (e :: b) ∈ (e :: b) :: bs := List.mem_cons_self
      rw [List.flatten_cons, List.cons_append, groups,
        groupsFrom_append (h.named _ hb e List.mem_cons_self)
          (fun f hf => h.shared _ hb e List.mem_cons_self f (List.mem_cons_of_mem _ hf)),
        List.nil_append, groupsFrom_other, ih hrest]
      -- the next execution is one of another block
      intro f hf
      obtain ⟨c, hc, hfc⟩ := List.mem_flatten.mp (List.mem_of_mem_head? hf)
      exact (List.pairwise_cons.mp h.apart).1 c hc e List.mem_cons_self f hfc

theorem groups_of_ungrouped {es : List Execution} (h : ∀ e ∈ es, e.group = "") :
    groups es = es.map fun e => [e] := by
  induction es with
  | nil => rfl
  | cons e es ih =>
    have hrest := ih fun f hf => h f (List.mem_cons_of_mem _ hf)
    cases es with
    | nil => rfl
    | cons f es =>
      rw [groups, groupsFrom, if_neg fun hc => hc.1 (h e List.mem_cons_self), List.map_cons,
        ← hrest]
      rfl

/-- A list whose image comes in blocks comes in blocks itself. -/
theorem exists_blocks {α β : Type} {f : α → β} {L : List (List β)} {l : List α}
    (h : l.map f = L.flatten) : ∃ bs : List (List α), l = bs.flatten ∧ bs.map (List.map f) = L := by
  induction L generalizing l with
  | nil => exact ⟨[], by simpa using h, rfl⟩
  | cons b L ih =>
    obtain ⟨l₁, l₂, rfl, rfl, h₂⟩ := List.map_eq_append_iff.mp h
    obtain ⟨bs, rfl, rfl⟩ := ih h₂
    exact ⟨l₁ :: bs, rfl, rfl⟩

/-! ## The executions of a weighted scenario -/

/-- The names of the targets tell them apart, in labels too. -/
structure Distinct (ts : List Target) : Prop where
  nodup : (ts.map Target.name).Nodup
  slashless : ∀ t ∈ ts, '/' ∉ t.name.toList

/-- Every stage runs every target once, at the same time, and the stages follow each other. -/
structure InStep (s : Scenario) (ex : Executor) (execs : List Execution) : Prop where
  /-- stage by stage, with the targets in the order of the plan -/
  order : execs.map placeOf
    = (List.range (stageCount ex)).flatMap fun i => s.targets.map (place s ex i)
  labels : (execs.map Execution.label).Nodup
  /-- one group for each stage, with one execution for each target -/
  groups : (groups execs).map (List.map placeOf)
    = (List.range (stageCount ex)).map fun i => s.targets.map (place s ex i)

theorem toList_stageLabel (name : String) (i : Nat) :
    (stageLabel name i).toList = name.toList
      ++ '/' :: ("stage-".toList ++ (toString i).toList) := by
  unfold stageLabel
  simp

theorem stageLabel_inj {name : String} (h : stageLabel name i = stageLabel name j) : i = j := by
  have hchars := congrArg String.toList h
  rw [toList_stageLabel, toList_stageLabel] at hchars
  exact Text.toString_injective (String.toList_injective (by simpa using hchars))

/-- The label of a place tells the target's name and the stage. -/
theorem place_label_inj {t t' : Target} (ht : '/' ∉ t.name.toList) (ht' : '/' ∉ t'.name.toList)
    (h : (place s ex i t).label = (place s ex j t').label) :
    t.name = t'.name ∧ (ex.type = staircase → i = j) := by
  unfold place at h
  by_cases hst : ex.type = staircase
  · rw [if_pos hst, if_pos hst] at h
    have hchars := congrArg String.toList h
    simp only [toList_stageLabel, String.toList_append, List.append_assoc] at hchars
    -- after the scenario's name both go on with a target's name up to the next slash
    obtain ⟨hname, hstage⟩ := Naming.cut_inj ht ht'
      (List.append_cancel_left (List.append_cancel_left hchars))
    have hnum : toString (i + 1) = toString (j + 1) :=
      String.toList_injective (List.append_cancel_left hstage)
    exact ⟨String.toList_injective hname, fun _ => Nat.succ.inj (Text.toString_injective hnum)⟩
  · rw [if_neg hst, if_neg hst] at h
    have hchars := congrArg String.toList h
    simp only [String.toList_append, List.append_assoc] at hchars
    exact ⟨String.toList_injective (List.append_cancel_left (List.append_cancel_left hchars)),
      fun hc => absurd hc hst⟩

theorem nodup_place_labels (ex : Executor) (h : Distinct s.targets) :
    (((List.range (stageCount ex)).flatMap fun i => s.targets.map (place s ex i)).map
      Place.label).Nodup := by
  rw [List.map_flatMap]
  refine List.nodup_flatMap.mpr ⟨fun i _ => ?_, ?_⟩
  · rw [List.map_map]
    refine (List.nodup_map_iff_inj_on (h.nodup.of_map _)).mpr ?_
    intro t ht t' ht' heq
    have hname := (place_label_inj (h.slashless t ht) (h.slashless t' ht') heq).1
    exact List.inj_on_of_nodup_map h.nodup ht ht' hname
  · refine List.nodup_range.imp_of_mem ?_
    intro i j hi hj hne label hli hlj
    obtain ⟨p, hp, rfl⟩ := List.mem_map.mp hli
    obtain ⟨t, ht, rfl⟩ := List.mem_map.mp hp
    obtain ⟨p', hp', heq⟩ := List.mem_map.mp hlj
    obtain ⟨t', ht', rfl⟩ := List.mem_map.mp hp'
    by_cases hst : ex.type = staircase
    · exact hne ((place_label_inj (h.slashless t' ht') (h.slashless t ht) heq).2 hst).symm
    · -- with one stage there are no two of them
      have hcount : stageCount ex = 1 := if_neg hst
      rw [hcount] at hi hj
      rw [List.mem_range] at hi hj
      omega

/-- The name of a stage's group. -/
def groupName (s : Scenario) (ex : Executor) (i : Nat) : String :=
  if ex.type = staircase then stageLabel s.name (i + 1) else s.name

theorem place_group (s : Scenario) (ex : Executor) (i : Nat) (t : Target) :
    (place s ex i t).group = groupName s ex i := by
  unfold place groupName
  split <;> rfl

theorem groupName_ne_empty (hname : s.name ≠ "") (ex : Executor) (i : Nat) :
    groupName s ex i ≠ "" := by
  unfold groupName
  split
  · intro h
    have hchars := congrArg String.toList h
    rw [toList_stageLabel] at hchars
    simp at hchars
  · exact hname

theorem groupName_inj (hi : i < stageCount ex) (hj : j < stageCount ex)
    (h : groupName s ex i = groupName s ex j) : i = j := by
  unfold groupName at h
  unfold stageCount at hi hj
  split at h
  · exact Nat.succ.inj (stageLabel_inj h)
  · rename_i hst
    rw [if_neg hst] at hi hj
    omega

/-- The groups of a list whose places come stage by stage. -/
theorem groups_of_order (hname : s.name ≠ "") (htargets : s.targets ≠ []) {execs : List Execution}
    (h : execs.map placeOf
      = (List.range (stageCount ex)).flatMap fun i => s.targets.map (place s ex i)) :
    (groups execs).map (List.map placeOf)
      = (List.range (stageCount ex)).map fun i => s.targets.map (place s ex i) := by
  rw [List.flatMap_def] at h
  obtain ⟨bs, rfl, hbs⟩ := exists_blocks h
  -- what a block's executions are called
  have hblock : ∀ b ∈ bs, ∃ i < stageCount ex, b.map placeOf = s.targets.map (place s ex i) := by
    intro b hb
    have hmem : b.map placeOf ∈ bs.map (List.map placeOf) := List.mem_map_of_mem hb
    rw [hbs] at hmem
    obtain ⟨i, hi, heq⟩ := List.mem_map.mp hmem
    exact ⟨i, List.mem_range.mp hi, heq.symm⟩
  have hgroup : ∀ {b : List Execution} {i : Nat}, b.map placeOf = s.targets.map (place s ex i) →
      ∀ e ∈ b, e.group = groupName s ex i := by
    intro b i hb e he
    have hmem : placeOf e ∈ s.targets.map (place s ex i) := hb ▸ List.mem_map_of_mem he
    obtain ⟨t, -, hplace⟩ := List.mem_map.mp hmem
    rw [← place_group s ex i t, hplace]
    rfl
  rw [groups_flatten_blocks, hbs]
  refine ⟨?_, ?_, ?_, ?_⟩
  · intro b hb hnil
    obtain ⟨i, -, hmap⟩ := hblock b hb
    rw [hnil] at hmap
    exact htargets (List.map_eq_nil_iff.mp hmap.symm)
  · intro b hb e he
    obtain ⟨i, -, hmap⟩ := hblock b hb
    rw [hgroup hmap e he]
    exact groupName_ne_empty hname ex i
  · intro b hb e he f hf
    obtain ⟨i, -, hmap⟩ := hblock b hb
    rw [hgroup hmap e he, hgroup hmap f hf]
  · -- two blocks are two stages
    have hpair : (bs.map (List.map placeOf)).Pairwise fun p q => ∀ i < stageCount ex,
        ∀ j < stageCount ex, p = s.targets.map (place s ex i) →
          q = s.targets.map (place s ex j) → i ≠ j := by
      rw [hbs, List.pairwise_map]
      refine List.nodup_range.imp_of_mem ?_
      rintro i j hi hj hne k hk l hl hp hq rfl
      obtain ⟨t, ht⟩ := List.exists_mem_of_ne_nil s.targets htargets
      have hgi := congrArg (List.map Place.group) hp
      have hgj := congrArg (List.map Place.group) hq
      simp only [List.map_map, Function.comp_def, place_group, List.map_inj_left] at hgi hgj
      have hik := groupName_inj (List.mem_range.mp hi) hk (hgi t ht)
      have hjk := groupName_inj (List.mem_range.mp hj) hk (hgj t ht)
      exact hne (hik.trans hjk.symm)
    rw [List.pairwise_map] at hpair
    refine hpair.imp_of_mem ?_
    intro b c hb hc hstages e he f hf heq
    obtain ⟨i, hi, hmap⟩ := hblock b hb
    obtain ⟨j, hj, hmap'⟩ := hblock c hc
    rw [hgroup hmap e he, hgroup hmap' f hf] at heq
    exact hstages i hi j hj hmap hmap' (groupName_inj hj hi heq).symm

/--
**Weighted stages run whole and in step.** A named scenario with weighted targets expands
into one execution for each stage and target, stage by stage, and each stage is one group
with one execution for each target. Without targets every execution is a group of its own.
-/
theorem expand_inStep {s : Scenario} {execs : List Execution} (h : expand go s = .ok execs) :
    (s.targets = [] → groups execs = execs.map fun e => [e])
      ∧ (s.targets ≠ [] → Distinct s.targets → s.name ≠ "" →
          ∃ ex, s.executor = some ex ∧ InStep s ex execs) := by
  obtain ⟨inner, hinner, h⟩ := bind_ok_iff.mp h
  cases h
  unfold expandScenario at hinner
  refine ⟨fun hnone => ?_, fun htargets hdistinct hname => ?_⟩
  · rw [if_pos (List.isEmpty_iff.mpr hnone)] at hinner
    obtain ⟨ex, -, hall⟩ := expandOne_ok hinner
    apply groups_of_ungrouped
    intro e he
    obtain ⟨e₀, he₀, rfl⟩ := List.mem_map.mp he
    obtain ⟨i, hi, rfl⟩ := List.mem_iff_getElem.mp he₀
    exact (hall.get (i := i) (by rw [hall.length_eq]; exact hi) hi).2.2.2
  · rw [if_neg (by rwa [List.isEmpty_iff])] at hinner
    obtain ⟨raw, hraw, hinner⟩ := bind_ok_iff.mp hinner
    cases hinner
    obtain ⟨t, ht⟩ := List.exists_mem_of_ne_nil s.targets htargets
    obtain ⟨part, hpart⟩ := expandTargets_variant_ok hraw t ht
    obtain ⟨ex', hex', -⟩ := expandOne_ok hpart
    obtain ⟨ex, hex, -⟩ := variant_executor hex'
    have horder : ((byStage raw).map fun e => { e with stats := s.stats }).map placeOf
        = (List.range (stageCount ex)).flatMap fun i => s.targets.map (place s ex i) := by
      rw [List.map_map]
      exact places_byStage hex htargets hraw
    refine ⟨ex, hex, horder, ?_, groups_of_order hname htargets horder⟩
    have hlabels := nodup_place_labels ex hdistinct
    rw [← horder, List.map_map] at hlabels
    exact hlabels

/-- Two targets at a constant rate. -/
def twoTargets (name : String) : Scenario where
  name := name
  targets := [{ name := "a", url := "http://a/" }, { name := "b", url := "http://b/" }]
  executor := some { type := constantRate, rate := 10, duration := some (.ofMillis 1000) }

theorem expand_inStep_twoTargets : ∃ execs,
    expand Go.bare (twoTargets "mix") = .ok execs ∧ execs.length = 2
      ∧ (groups execs).map List.length = [2]
      ∧ ∃ ex, (twoTargets "mix").executor = some ex ∧ InStep (twoTargets "mix") ex execs := by
  obtain ⟨execs, hexpand, hlen, hgroups⟩ : ∃ execs, expand Go.bare (twoTargets "mix") = .ok execs
      ∧ execs.length = 2 ∧ (groups execs).map List.length = [2] := ⟨_, rfl, rfl, rfl⟩
  have hdistinct : Distinct (twoTargets "mix").targets := ⟨by decide, by decide⟩
  exact ⟨execs, hexpand, hlen, hgroups,
    (expand_inStep hexpand).2 (by decide) hdistinct (by decide)⟩

/-- Without a name for the group the two targets of one stage run one after the other. -/
theorem expand_unnamed_apart : ∃ execs,
    expand Go.bare (twoTargets "") = .ok execs ∧ Distinct (twoTargets "").targets
      ∧ (twoTargets "").executor.map stageCount = some 1
      ∧ (groups execs).map List.length = [1, 1] :=
  ⟨_, rfl, ⟨by decide, by decide⟩, rfl, rfl⟩

end Sortie.Proof
