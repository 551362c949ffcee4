import Sortie.Compile.Stats
import Sortie.Lib.Naming
import Sortie.Proof.BackendName

/-!
# How the backends of a pool are named

`backendSegments` names each backend by its sanitized host, by host and port where hosts
are alike, and by its position where those are. Whatever the addresses are, the names are
different, none is empty, and all are plain: none holds the dot that separates the parts of a
prefix.
-/

namespace Sortie.Proof

open Plan Compile

variable {unique : String → Bool} {name : String}

/-! ## The characters of a name -/

/-- The text has no dot. -/
def Dotless (s : String) : Prop := '.' ∉ s.toList

instance (s : String) : Decidable (Dotless s) := inferInstanceAs (Decidable (_ ∉ _))

theorem Plain.dotless {s : String} (h : Plain s) : Dotless s :=
  fun hdot => absurd (h '.' hdot) (by decide)

theorem plain_toString (i : Nat) : Plain (toString i) := by
  intro c hc
  have hchars : (toString i).toList = Nat.toDigits 10 i := String.toList_ofList
  rw [hchars] at hc
  have hdigit := Nat.isDigit_of_mem_toDigits (by decide) (by decide) hc
  simp only [Char.isDigit, Bool.and_eq_true, decide_eq_true_eq] at hdigit
  exact Or.inr (Or.inl hdigit)

/-! ## A free name -/

/-- The candidates of `freeName`, in the order they are tried. -/
def candidateAt (first : String) (k : Nat) : String :=
  first ++ String.ofList (List.replicate k '_')

theorem candidateAt_zero (first : String) : candidateAt first 0 = first := by
  apply String.toList_injective
  simp [candidateAt]

theorem candidateAt_succ (first : String) (k : Nat) :
    candidateAt first (k + 1) = candidateAt (first ++ "_") k := by
  apply String.toList_injective
  simp [candidateAt, List.replicate_succ]

theorem candidateAt_injective (first : String) : Function.Injective (candidateAt first) := by
  intro j k h
  have hlen := congrArg (fun s => s.toList.length) h
  simpa [candidateAt] using hlen

/-- The search ends at a free candidate, or has seen as many taken ones as it had fuel. -/
theorem freeName_spec (used : List String) : ∀ (fuel : Nat) (first : String),
    (∃ k, freeName used first fuel = candidateAt first k)
      ∧ (freeName used first fuel ∉ used ∨ ∀ k < fuel, candidateAt first k ∈ used) := by
  intro fuel
  induction fuel with
  | zero =>
    intro first
    exact ⟨⟨0, (candidateAt_zero first).symm⟩, Or.inr fun k hk => absurd hk (by omega)⟩
  | succ fuel ih =>
    intro first
    unfold freeName
    split
    · rename_i htaken
      obtain ⟨⟨k, hk⟩, hspec⟩ := ih (first ++ "_")
      refine ⟨⟨k + 1, by rw [hk, candidateAt_succ]⟩, hspec.imp_right ?_⟩
      intro hall j hj
      cases j with
      | zero =>
        rw [candidateAt_zero]
        exact List.contains_iff_mem.mp htaken
      | succ j =>
        rw [candidateAt_succ]
        exact hall j (by omega)
    · rename_i hfree
      exact ⟨⟨0, (candidateAt_zero first).symm⟩,
        Or.inl fun hmem => hfree (List.contains_iff_mem.mpr hmem)⟩

/-- **The fuel is enough**: one more candidate than there are names in use. -/
theorem freeName_notMem (used : List String) (first : String) :
    freeName used first (used.length + 1) ∉ used := by
  rcases (freeName_spec used (used.length + 1) first).2 with hfree | hall
  · exact hfree
  · obtain ⟨k, hk, hfree⟩ := Naming.exists_free (candidateAt_injective first) used
    exact absurd (hall k (by omega)) hfree

/-! ## Names by position -/

/-- A name that `disambiguate` gives: one it kept, or one it found free. -/
theorem mem_disambiguate :
    ∀ {names used : List String} {i : Nat}
    {name : String}, name ∈ disambiguate unique used names i →
    (name ∈ names ∧ unique name = true)
      ∨ (name ∉ used
        ∧ ∃ n ∈ names, ∃ j k : Nat, name = candidateAt (n ++ "_b" ++ toString j) k) := by
  intro names
  induction names with
  | nil => exact fun h => absurd h List.not_mem_nil
  | cons n names ih =>
    intro used i name h
    unfold disambiguate at h
    split at h
    · rename_i hn
      rcases List.mem_cons.mp h with rfl | h
      · exact Or.inl ⟨List.mem_cons_self, hn⟩
      · rcases ih h with ⟨hmem, hu⟩ | ⟨hfree, m, hm, hform⟩
        · exact Or.inl ⟨List.mem_cons_of_mem _ hmem, hu⟩
        · exact Or.inr ⟨hfree, m, List.mem_cons_of_mem _ hm, hform⟩
    · rcases List.mem_cons.mp h with rfl | h
      · obtain ⟨⟨k, hk⟩, -⟩ := freeName_spec used (used.length + 1) (n ++ "_b" ++ toString i)
        exact Or.inr ⟨freeName_notMem used _, n, List.mem_cons_self, i, k, hk⟩
      · rcases ih h with ⟨hmem, hu⟩ | ⟨hfree, m, hm, hform⟩
        · exact Or.inl ⟨List.mem_cons_of_mem _ hmem, hu⟩
        · exact Or.inr ⟨fun hmem => hfree (List.mem_cons_of_mem _ hmem), m,
            List.mem_cons_of_mem _ hm, hform⟩

/--
The names given are different. Those that are kept are reserved from the start, and every
other one avoids them and the ones found before it.
-/
theorem nodup_disambiguate :
    ∀ {names used : List String} {i : Nat},
    (names.filter unique).Nodup → (∀ n ∈ names, unique n = true → n ∈ used) →
    (disambiguate unique used names i).Nodup := by
  intro names
  induction names with
  | nil => exact fun _ _ => List.nodup_nil
  | cons n names ih =>
    intro used i hnodup hused
    have hrest : ∀ m ∈ names, unique m = true → m ∈ used := fun m hm =>
      hused m (List.mem_cons_of_mem _ hm)
    unfold disambiguate
    split
    · rename_i hn
      rw [List.filter_cons_of_pos hn] at hnodup
      obtain ⟨hnew, hnodup⟩ := List.nodup_cons.mp hnodup
      refine List.nodup_cons.mpr ⟨?_, ih hnodup hrest⟩
      intro hmem
      rcases mem_disambiguate hmem with ⟨hin, -⟩ | ⟨hfree, -⟩
      · exact hnew (List.mem_filter.mpr ⟨hin, hn⟩)
      · exact hfree (hused n List.mem_cons_self hn)
    · rename_i hn
      rw [List.filter_cons_of_neg hn] at hnodup
      refine List.nodup_cons.mpr
        ⟨?_, ih hnodup fun m hm hu => List.mem_cons_of_mem _ (hrest m hm hu)⟩
      intro hmem
      rcases mem_disambiguate hmem with ⟨hin, hu⟩ | ⟨hfree, -⟩
      · exact freeName_notMem used _ (hrest _ hin hu)
      · exact hfree List.mem_cons_self

theorem plain_candidateAt {first : String} (h : Plain first) (k : Nat) :
    Plain (candidateAt first k) := by
  refine h.append ?_
  intro c hc
  rw [String.toList_ofList] at hc
  exact Or.inr (Or.inr (List.eq_of_mem_replicate hc))

theorem length_disambiguate (unique : String → Bool) : ∀ (names used : List String) (i : Nat),
    (disambiguate unique used names i).length = names.length := by
  intro names
  induction names with
  | nil => exact fun _ _ => rfl
  | cons name names ih =>
    intro used i
    unfold disambiguate
    split
    · rw [List.length_cons, List.length_cons, ih]
    · rw [List.length_cons, List.length_cons, ih]

/-- A name that is kept stays at its place. -/
theorem getElem?_disambiguate (hu : unique name = true) :
    ∀ {names used : List String} {i k : Nat}, names[k]? = some name →
      (disambiguate unique used names i)[k]? = some name := by
  intro names
  induction names with
  | nil => exact fun h => absurd h (by simp)
  | cons n names ih =>
    intro used i k h
    unfold disambiguate
    cases k with
    | zero =>
      rw [List.getElem?_cons_zero] at h
      rw [Option.some.inj h, if_pos hu, List.getElem?_cons_zero]
    | succ k =>
      rw [List.getElem?_cons_succ] at h
      split <;> exact ih h

/-! ## The names of a pool's backends -/

/-- `sanitize` of `backendSegments`. -/
def sanitized (s : String) : String := Text.join "_" (statsLabel s)

theorem plain_sanitized (s : String) : Plain (sanitized s) := plain_join_statsLabel s

/-- An address by its host, or whole where it has none. -/
def hostSegment (a : String) : String :=
  match Text.splitHostPort a with
  | .ok (host, _) => sanitized host
  | .error _ => sanitized a

/-- The name of an address before any position is added. -/
def portSegment (addrs : List String) (a : String) : String :=
  if 1 < (addrs.map hostSegment).count (hostSegment a) then sanitized a else hostSegment a

theorem portSegment_cases (addrs : List String) (a : String) :
    portSegment addrs a = sanitized a ∨ portSegment addrs a = hostSegment a :=
  ite_eq_or_eq ..

theorem plain_portSegment (addrs : List String) (a : String) : Plain (portSegment addrs a) := by
  rcases portSegment_cases addrs a with h | h
  · exact h ▸ plain_sanitized a
  · rw [h]
    unfold hostSegment
    split <;> exact plain_sanitized _

/-- `unique` of `backendSegments`. -/
def keptName (named : List String) (name : String) : Bool := named.count name == 1 && name != ""

theorem backendSegments_eq (addrs : List String) :
    backendSegments addrs = disambiguate (keptName (addrs.map (portSegment addrs)))
      ((addrs.map (portSegment addrs)).filter (keptName (addrs.map (portSegment addrs))))
      (addrs.map (portSegment addrs)) 0 := by
  have hnamed : ((addrs.zip (addrs.map hostSegment)).map fun p =>
      if 1 < (addrs.map hostSegment).count p.2 then sanitized p.1 else p.2)
        = addrs.map (portSegment addrs) := by
    simp only [List.zip, List.zipWith_map_right, List.zipWith_self, List.map_map]
    rfl
  rw [← hnamed]
  rfl

theorem keptName_iff {named : List String} :
    keptName named name = true ↔ named.count name = 1 ∧ name ≠ "" := by
  simp [keptName]

theorem length_backendSegments (addrs : List String) :
    (backendSegments addrs).length = addrs.length := by
  rw [backendSegments_eq, length_disambiguate, List.length_map]

/-- What the names of backends are good for. -/
structure GoodNames (names : List String) : Prop where
  nodup : names.Nodup
  ne_empty : ∀ name ∈ names, name ≠ ""
  dotless : ∀ name ∈ names, Dotless name

theorem nodup_backendSegments (addrs : List String) : (backendSegments addrs).Nodup := by
  rw [backendSegments_eq]
  refine nodup_disambiguate ?_ fun n hn hu => List.mem_filter.mpr ⟨hn, hu⟩
  refine List.nodup_iff_count_le_one.mpr fun name => ?_
  by_cases hu : keptName (addrs.map (portSegment addrs)) name = true
  · rw [List.count_filter hu]
    exact (keptName_iff.mp hu).1.le
  · rw [List.count_eq_zero_of_not_mem fun hmem => hu (List.mem_filter.mp hmem).2]
    exact Nat.zero_le 1

theorem ne_empty_and_plain_of_mem {addrs : List String} (hname : name ∈ backendSegments addrs) :
    name ≠ "" ∧ Plain name := by
  rw [backendSegments_eq] at hname
  have hplain : ∀ n ∈ addrs.map (portSegment addrs), Plain n := by
    intro n hn
    obtain ⟨a, -, rfl⟩ := List.mem_map.mp hn
    exact plain_portSegment addrs a
  rcases mem_disambiguate hname with ⟨hmem, hu⟩ | ⟨-, n, hn, j, k, rfl⟩
  · exact ⟨(keptName_iff.mp hu).2, hplain name hmem⟩
  · refine ⟨fun hempty => ?_, plain_candidateAt
      (((hplain n hn).append (by decide)).append (plain_toString j)) k⟩
    have hchars := congrArg String.toList hempty
    simp [candidateAt] at hchars

/-- **Whatever the addresses of a pool, its backends have good names.** -/
theorem goodNames_backendSegments (addrs : List String) : GoodNames (backendSegments addrs) where
  nodup := nodup_backendSegments addrs
  ne_empty _ h := (ne_empty_and_plain_of_mem h).1
  dotless _ h := (ne_empty_and_plain_of_mem h).2.dotless

/-- A host like no other host and no other address names its backend alone. -/
theorem backendSegments_keeps {before after : List String} {a : String} (hne : hostSegment a ≠ "")
    (hother : ∀ b ∈ before ++ after, hostSegment b ≠ hostSegment a ∧ sanitized b ≠ hostSegment a) :
    (backendSegments (before ++ a :: after))[before.length]? = some (hostSegment a) := by
  have hcount : ∀ f : String → String, f a = hostSegment a →
      (∀ b ∈ before ++ after, f b ≠ hostSegment a) →
      ((before ++ a :: after).map f).count (hostSegment a) = 1 := by
    intro f ha hf
    have hzero :
        ∀ l : List String, (∀ b ∈ l, f b ≠ hostSegment a) →
          (l.map f).count (hostSegment a) = 0 := by
      intro l hl
      refine List.count_eq_zero_of_not_mem fun hmem => ?_
      obtain ⟨b, hb, heq⟩ := List.mem_map.mp hmem
      exact hl b hb heq
    rw [List.map_append, List.count_append, List.map_cons, ha, List.count_cons_self,
      hzero before fun b hb => hf b (List.mem_append_left _ hb),
      hzero after fun b hb => hf b (List.mem_append_right _ hb)]
  have hhost := hcount hostSegment rfl fun b hb => (hother b hb).1
  have ha : portSegment (before ++ a :: after) a = hostSegment a := by
    unfold portSegment
    rw [hhost, if_neg (by omega)]
  have hport := hcount (portSegment (before ++ a :: after)) ha fun b hb => by
    rcases portSegment_cases (before ++ a :: after) b with heq | heq
    · exact heq ▸ (hother b hb).2
    · exact heq ▸ (hother b hb).1
  rw [backendSegments_eq]
  refine getElem?_disambiguate (keptName_iff.mpr ⟨hport, hne⟩) ?_
  simp [ha]

/--
**Backends are named apart**, whatever the addresses: the search for a free name ends, there is
one name for each address, names are different, and a host that is like no other name is kept.
-/
theorem backendSegments_apart (addrs : List String) :
    (∀ used first, freeName used first (used.length + 1) ∉ used)
      ∧ (backendSegments addrs).length = addrs.length
      ∧ (backendSegments addrs).Nodup
      ∧ (∀ name ∈ backendSegments addrs, name ≠ "" ∧ Plain name)
      ∧ ∀ before a after, addrs = before ++ a :: after → hostSegment a ≠ "" →
        (∀ b ∈ before ++ after, hostSegment b ≠ hostSegment a ∧ sanitized b ≠ hostSegment a) →
        (backendSegments addrs)[before.length]? = some (hostSegment a) := by
  refine ⟨freeName_notMem, length_backendSegments addrs, nodup_backendSegments addrs,
    fun _ => ne_empty_and_plain_of_mem, ?_⟩
  rintro before a after rfl hne hother
  exact backendSegments_keeps hne hother

end Sortie.Proof
