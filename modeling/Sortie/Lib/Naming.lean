import Mathlib.Data.List.Nodup
import Mathlib.Data.List.Perm.Subperm
import Mathlib.Data.List.Range

/-!
# Names under bases

A thing is named by its base, or has parts that are named by the base joined with each
part. When no two bases are alike, and joining can be undone, the only names that can
meet are a bare base and a joined one.
-/

namespace Naming

variable {ι N P α β : Type}

/-- The names of one thing. -/
def names (join : N → P → N) (base : N) : Option (List P) → List N
  | none => [base]
  | some parts => parts.map (join base)

theorem mem_names {join : N → P → N} {base name : N} {parts : Option (List P)} :
    name ∈ names join base parts ↔
      (parts = none ∧ name = base) ∨ ∃ ps, parts = some ps ∧ ∃ p ∈ ps, join base p = name := by
  cases parts <;> simp [names]

/-- What is chosen from each member of a family without overlaps does not overlap. -/
theorem nodup_flatMap_of_subset {l : List α} {f g : α → List β} (h : (l.flatMap g).Nodup)
    (hnodup : ∀ a ∈ l, (f a).Nodup) (hsub : ∀ a ∈ l, f a ⊆ g a) : (l.flatMap f).Nodup := by
  obtain ⟨-, hdisjoint⟩ := List.nodup_flatMap.mp h
  refine List.nodup_flatMap.mpr ⟨hnodup, ?_⟩
  refine hdisjoint.imp_of_mem ?_
  intro a b ha hb hab name hfa hfb
  exact hab (hsub a ha hfa) (hsub b hb hfb)

/-- Members that contribute nothing can be left out first. -/
theorem flatMap_eq_filter {l : List α} {keep : α → Bool} {f g : α → List β}
    (hkeep : ∀ a ∈ l, keep a = true → f a = g a) (hdrop : ∀ a ∈ l, ¬ keep a = true → f a = []) :
    l.flatMap f = (l.filter keep).flatMap g := by
  induction l with
  | nil => rfl
  | cons a l ih =>
    have hrest := ih (fun b hb => hkeep b (List.mem_cons_of_mem _ hb))
      (fun b hb => hdrop b (List.mem_cons_of_mem _ hb))
    rw [List.flatMap_cons, hrest]
    by_cases ha : keep a = true
    · rw [List.filter_cons_of_pos ha, List.flatMap_cons, hkeep a List.mem_cons_self ha]
    · rw [List.filter_cons_of_neg ha, hdrop a List.mem_cons_self ha, List.nil_append]

/-- What stands before the first separator is determined, and so is what follows. -/
theorem cut_inj {sep : α} {front front' back back' : List α} (hf : sep ∉ front)
    (hf' : sep ∉ front') (h : front ++ sep :: back = front' ++ sep :: back') :
    front = front' ∧ back = back' := by
  induction front generalizing front' with
  | nil =>
    cases front' with
    | nil => exact ⟨rfl, (List.cons.inj h).2⟩
    | cons c front' => exact absurd ((List.cons.inj h).1 ▸ List.mem_cons_self) hf'
  | cons c front ih =>
    cases front' with
    | nil => exact absurd ((List.cons.inj h).1 ▸ List.mem_cons_self) hf
    | cons c' front' =>
      obtain ⟨rfl, hrest⟩ := List.cons.inj h
      obtain ⟨rfl, rfl⟩ := ih (fun hm => hf (List.mem_cons_of_mem _ hm))
        (fun hm => hf' (List.mem_cons_of_mem _ hm)) hrest
      exact ⟨rfl, rfl⟩

section Family

variable {is : List ι} {join : N → P → N} {base : ι → N} {parts : ι → Option (List P)}

/-- Joining can be undone, on the bases and parts of a family. -/
def Separated (is : List ι) (join : N → P → N) (base : ι → N) (parts : ι → Option (List P)) :
    Prop :=
  ∀ i ∈ is, ∀ j ∈ is, ∀ ps, parts i = some ps → ∀ qs, parts j = some qs → ∀ p ∈ ps, ∀ q ∈ qs,
    join (base i) p = join (base j) q → base i = base j ∧ p = q

/-- No bare base is one of the joined names. -/
def Apart (is : List ι) (join : N → P → N) (base : ι → N) (parts : ι → Option (List P)) : Prop :=
  ∀ i ∈ is, parts i = none → ∀ j ∈ is, ∀ ps, parts j = some ps → ∀ p ∈ ps,
    base i ≠ join (base j) p

/-- **The names of a family are different exactly when its bare bases are no joined names.** -/
theorem nodup_names_iff (hsep : Separated is join base parts) (hbase : (is.map base).Nodup)
    (hparts : ∀ i ∈ is, ∀ ps, parts i = some ps → ps.Nodup) :
    (is.flatMap fun i => names join (base i) (parts i)).Nodup ↔ Apart is join base parts := by
  constructor
  · intro h i hi hnone j hj ps hps p hp heq
    obtain ⟨-, hdisjoint⟩ := List.nodup_flatMap.mp h
    have hne : i ≠ j := by
      rintro rfl
      rw [hnone] at hps
      cases hps
    have hi' : base i ∈ names join (base i) (parts i) := mem_names.mpr (Or.inl ⟨hnone, rfl⟩)
    have hj' : base i ∈ names join (base j) (parts j) :=
      mem_names.mpr (Or.inr ⟨ps, hps, p, hp, heq.symm⟩)
    have : Std.Symm (Function.onFun List.Disjoint fun i => names join (base i) (parts i)) :=
      ⟨fun _ _ hab name hb ha => hab ha hb⟩
    exact hdisjoint.forall hi hj hne hi' hj'
  · intro happ
    refine List.nodup_flatMap.mpr ⟨?_, ?_⟩
    · intro i hi
      cases hps : parts i with
      | none => exact List.nodup_singleton _
      | some ps =>
        refine (List.nodup_map_iff_inj_on (hparts i hi ps hps)).mpr ?_
        intro p hp q hq heq
        exact (hsep i hi i hi ps hps ps hps p hp q hq heq).2
    · refine (List.pairwise_map.mp hbase).imp_of_mem ?_
      intro i j hi hj hne name hni hnj
      rcases mem_names.mp hni with ⟨hin, rfl⟩ | ⟨ps, hps, p, hp, rfl⟩
      · rcases mem_names.mp hnj with ⟨-, heq⟩ | ⟨qs, hqs, q, hq, heq⟩
        · exact hne heq
        · exact happ i hi hin j hj qs hqs q hq heq.symm
      · rcases mem_names.mp hnj with ⟨hjn, heq⟩ | ⟨qs, hqs, q, hq, heq⟩
        · exact happ j hj hjn i hi ps hps p hp heq.symm
        · exact hne (hsep i hi j hj ps hps qs hqs p hp q hq heq.symm).1

end Family

/-- Of more candidates than there are names in use, one is free. -/
theorem exists_free {f : Nat → α} (hf : Function.Injective f) (used : List α) :
    ∃ k, k ≤ used.length ∧ f k ∉ used := by
  by_contra hall
  have hsub : (List.range (used.length + 1)).map f ⊆ used := by
    intro name hname
    obtain ⟨k, hk, rfl⟩ := List.mem_map.mp hname
    by_contra hfree
    exact hall ⟨k, Nat.lt_succ_iff.mp (List.mem_range.mp hk), hfree⟩
  have hle := ((List.nodup_range.map hf).subperm hsub).length_le
  rw [List.length_map, List.length_range] at hle
  omega

end Naming
