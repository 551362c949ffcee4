import Mathlib.Algebra.BigOperators.Group.List.Basic
import Mathlib.Algebra.Order.Field.Rat
import Mathlib.Data.UInt
import Sortie.ResultSet

/-!
# The order of the backends does not matter to a verdict

`Totals` keeps the counters in the order they were first seen in and takes the
first of the longest durations, so permuting the backends permutes the totals it
builds. What a threshold reads from them is not moved: a counter is found by its
name or by the only suffix that fits, a name stands once among the totals with
the sum of all backends, and the longest duration is the same one wherever it is
positive. Where it is not, no rate is computed either way.

The text of an error may change, since an ambiguous name lists its candidates in
the order of the totals; that there is an error may not.
-/

namespace Sortie

open Proto Api Sortie.Metric

variable {cs cs' sums : List Counter} {c : Counter} {name : String} {ds : List (Option Duration)}
  {longest : Option Duration}

namespace ResultSet

variable {F : Type}

/-! ## Sums by name -/

/-- The sum of the counters of one name. -/
def sumOf (name : String) (cs : List Counter) : UInt64 :=
  ((cs.filter fun c => c.name == name).map Counter.value).sum

/-- What the sums say of the counters that went into them, whatever their order. -/
structure Sums (cs sums : List Counter) : Prop where
  /-- every name stands once -/
  nodup : (sums.map Counter.name).Nodup
  /-- with the sum of the counters of that name -/
  mem_iff : ∀ s, s ∈ sums ↔ s.name ∈ cs.map Counter.name ∧ s.value = sumOf s.name cs

theorem sumOf_append_same (h : c.name = name) :
    sumOf name (cs ++ [c]) = sumOf name cs + c.value := by
  simp [sumOf, h]

theorem sumOf_append_other (h : c.name ≠ name) : sumOf name (cs ++ [c]) = sumOf name cs := by
  simp [sumOf, h]

theorem sumOf_of_not_mem (h : name ∉ cs.map Counter.name) : sumOf name cs = 0 := by
  have hnone : (cs.filter fun c => c.name == name) = [] := by
    rw [List.filter_eq_nil_iff]
    intro c hc heq
    exact h (List.mem_map.2 ⟨c, hc, eq_of_beq heq⟩)
  rw [sumOf, hnone]
  rfl

theorem sumOf_perm (h : cs.Perm cs') (name : String) : sumOf name cs = sumOf name cs' :=
  ((h.filter _).map _).sum_eq

theorem Sums.nil : Sums [] [] where
  nodup := List.nodup_nil
  mem_iff := by simp

/-- A counter whose name was seen before goes into its sum. -/
theorem Sums.add_seen (h : Sums cs sums) (hseen : ∃ s ∈ sums, s.name = c.name) :
    Sums (cs ++ [c])
      (sums.map fun s => if s.name = c.name then { s with value := s.value + c.value } else s) where
  nodup := by
    have hnames : ((fun s : Counter =>
        (if s.name = c.name then { s with value := s.value + c.value } else s).name))
        = Counter.name := by
      funext s
      split <;> rfl
    rw [List.map_map, Function.comp_def, hnames]
    exact h.nodup
  mem_iff := by
    have hold : c.name ∈ cs.map Counter.name := by
      obtain ⟨s, hs, hname⟩ := hseen
      rw [← hname]
      exact ((h.mem_iff s).1 hs).1
    intro t
    rw [List.mem_map, List.map_append, List.mem_append]
    constructor
    · rintro ⟨s, hs, rfl⟩
      obtain ⟨hmem, hval⟩ := (h.mem_iff s).1 hs
      by_cases hn : s.name = c.name
      · rw [if_pos hn]
        exact ⟨.inl hmem, by rw [sumOf_append_same hn.symm, hval]⟩
      · rw [if_neg hn]
        exact ⟨.inl hmem, by rw [sumOf_append_other (Ne.symm hn), hval]⟩
    · rintro ⟨hmem, hval⟩
      by_cases hn : t.name = c.name
      · -- the entry this one replaces
        refine ⟨⟨t.name, sumOf t.name cs⟩, (h.mem_iff _).2 ⟨hn ▸ hold, rfl⟩, ?_⟩
        rw [if_pos hn]
        rw [sumOf_append_same hn.symm] at hval
        exact Counter.mk.injEq .. ▸ ⟨rfl, hval.symm⟩
      · have hmem' : t.name ∈ cs.map Counter.name := by
          rcases hmem with hm | hm
          · exact hm
          · exact absurd (List.mem_singleton.1 hm) hn
        rw [sumOf_append_other (Ne.symm hn)] at hval
        exact ⟨t, (h.mem_iff t).2 ⟨hmem', hval⟩, if_neg hn⟩

/-- A counter of a new name starts a sum. -/
theorem Sums.add_new (h : Sums cs sums) (hnew : ∀ s ∈ sums, s.name ≠ c.name) :
    Sums (cs ++ [c]) (sums ++ [c]) := by
  have hfresh : c.name ∉ cs.map Counter.name := by
    intro hmem
    exact hnew ⟨c.name, sumOf c.name cs⟩ ((h.mem_iff _).2 ⟨hmem, rfl⟩) rfl
  refine ⟨?_, fun t => ?_⟩
  · rw [List.map_append, List.nodup_append]
    refine ⟨h.nodup, by simp, ?_⟩
    intro n hn m hm heq
    obtain ⟨s, hs, rfl⟩ := List.mem_map.1 hn
    exact hnew s hs (heq.trans (by simpa using hm))
  · rw [List.mem_append, List.map_append, List.mem_append, h.mem_iff]
    by_cases hn : t.name = c.name
    · rw [sumOf_append_same hn.symm, hn, sumOf_of_not_mem hfresh]
      simp only [hfresh, false_and, List.mem_singleton, false_or, List.map_cons, List.map_nil,
        true_and, UInt64.zero_add]
      exact ⟨fun ht => by rw [ht], fun hv => by cases t; cases c; simp_all⟩
    · have hne : t ≠ c := fun ht => hn (by rw [ht])
      rw [sumOf_append_other (Ne.symm hn)]
      simp [hn, hne]

theorem Sums.add (h : Sums cs sums) (c : Counter) : Sums (cs ++ [c]) (addCounter sums c) := by
  rw [addCounter]
  by_cases hseen : sums.any (fun s => s.name == c.name) = true
  · rw [if_pos hseen]
    exact h.add_seen (by simpa using hseen)
  · rw [if_neg hseen]
    exact h.add_new (by simpa using hseen)

theorem Sums.foldl (h : Sums cs sums) (more : List Counter) :
    Sums (cs ++ more) (more.foldl addCounter sums) := by
  induction more generalizing cs sums with
  | nil => rwa [List.append_nil]
  | cons c more ih =>
    have hrest := ih (h.add c)
    rwa [List.append_assoc, List.singleton_append] at hrest

/-- The counters of all backends, one after the other. -/
def allCounters (s : ResultSet F) : List Counter := s.backends.flatMap fun b => b.global.counters

theorem sums_totals (s : ResultSet F) : Sums s.allCounters s.totals.counters := by
  have heq : s.totals.counters = s.allCounters.foldl addCounter [] := by
    rw [totals, allCounters, List.foldl_flatMap]
  rw [heq]
  exact Sums.nil.foldl s.allCounters

/-- The same counters in another order give the same sums, in some order. -/
theorem Sums.perm {sums' : List Counter} (h : Sums cs sums) (h' : Sums cs' sums')
    (hp : cs.Perm cs') : sums.Perm sums' := by
  refine (List.perm_ext_iff_of_nodup h.nodup.of_map h'.nodup.of_map).2 fun s => ?_
  rw [h.mem_iff, h'.mem_iff, (hp.map _).mem_iff, sumOf_perm hp]

/-! ## The longest duration -/

/-- `AsDuration` of a duration that may be absent. -/
def spanOf (d : Option Duration) : Span := (d.map Duration.asDuration).getD 0

theorem longer_eq (longest d : Option Duration) :
    longer longest d
      = if longest.isNone || decide (spanOf longest < spanOf d) then d else longest := rfl

theorem took_eq_spanOf (r : Result F) : r.took = spanOf r.executionDuration := by
  rw [Result.took, spanOf]
  cases r.executionDuration <;> rfl

/-- What a total duration says of the durations that went into it, whatever their order. -/
structure Longest (ds : List (Option Duration)) (longest : Option Duration) : Prop where
  /-- none of them that is positive is longer -/
  bound : ∀ d ∈ ds, 0 < (spanOf d).ns → (spanOf d).ns ≤ (spanOf longest).ns
  /-- and a positive one is one of them -/
  attained : 0 < (spanOf longest).ns → ∃ d ∈ ds, spanOf d = spanOf longest

theorem Longest.nil : Longest [] none where
  bound := by simp
  attained := fun h => absurd h (by decide)

variable {d l l' : Option Duration} {r r' : Result F} {go : Go F} {t : Threshold F}

section

variable (h : Longest ds longest)
include h

/-- The new duration replaces one that is absent or shorter. -/
theorem Longest.replace (hle : longest.isNone ∨ (spanOf longest).ns < (spanOf d).ns) :
    Longest (ds ++ [d]) d where
  bound := by
    intro d' hd' hpos
    rcases List.mem_append.1 hd' with hold | hnew
    · have hb := h.bound d' hold hpos
      rcases hle with hnone | hlt
      · -- nothing positive was seen while no duration stood
        rw [Option.isNone_iff_eq_none.1 hnone] at hb
        exact absurd (Int.lt_of_lt_of_le hpos hb) (by decide)
      · omega
    · rw [List.mem_singleton.1 hnew]
  attained := fun _ => ⟨d, by simp, rfl⟩

theorem Longest.keep (hle : (spanOf d).ns ≤ (spanOf longest).ns) :
    Longest (ds ++ [d]) longest where
  bound := by
    intro d' hd' hpos
    rcases List.mem_append.1 hd' with hold | hnew
    · exact h.bound d' hold hpos
    · rwa [List.mem_singleton.1 hnew]
  attained := fun hpos => by
    obtain ⟨d', hd', heq⟩ := h.attained hpos
    exact ⟨d', List.mem_append_left _ hd', heq⟩

theorem Longest.add (d : Option Duration) :
    Longest (ds ++ [d]) (longer longest d) := by
  rw [longer_eq]
  by_cases hc : (longest.isNone || decide (spanOf longest < spanOf d)) = true
  · rw [if_pos hc]
    rw [Bool.or_eq_true, decide_eq_true_iff, Span.lt_iff] at hc
    exact h.replace hc
  · rw [if_neg hc]
    rw [Bool.or_eq_true, decide_eq_true_iff, Span.lt_iff] at hc
    exact h.keep (by omega)

theorem Longest.foldl (more : List (Option Duration)) :
    Longest (ds ++ more) (more.foldl longer longest) := by
  induction more generalizing ds longest with
  | nil => rwa [List.append_nil]
  | cons d more ih =>
    have hrest := ih (h.add d)
    rwa [List.append_assoc, List.singleton_append] at hrest

end

/-- The durations of all backends. -/
def allDurations (s : ResultSet F) : List (Option Duration) :=
  s.backends.map fun b => b.global.executionDuration

theorem longest_totals (s : ResultSet F) : Longest s.allDurations s.totals.executionDuration := by
  have heq : s.totals.executionDuration = s.allDurations.foldl longer none := by
    rw [totals, allDurations, List.foldl_map]
  rw [heq]
  exact Longest.nil.foldl s.allDurations

section

variable {ds' : List (Option Duration)} (h : Longest ds l) (h' : Longest ds' l') (hp : ds.Perm ds')
include h h' hp

theorem Longest.le_of_perm (hpos : 0 < (spanOf l).ns) :
    (spanOf l).ns ≤ (spanOf l').ns := by
  obtain ⟨d, hd, heq⟩ := h.attained hpos
  rw [← heq] at hpos ⊢
  exact h'.bound d (hp.mem_iff.1 hd) hpos

/-- The same durations in another order: the same longest one, unless there is none to rate by. -/
theorem Longest.perm :
    spanOf l = spanOf l' ∨ (spanOf l).ns ≤ 0 ∧ (spanOf l').ns ≤ 0 := by
  have hle := h.le_of_perm h' hp
  have hge := h'.le_of_perm h hp.symm
  by_cases hpos : 0 < (spanOf l).ns ∨ 0 < (spanOf l').ns
  · exact .inl (Span.ext (by omega))
  · exact .inr (by omega)

end

/-! ## Looking a counter up -/

section

variable (hp : cs.Perm cs') (hn : (cs.map Counter.name).Nodup) (name : String)
include hp hn

theorem find?_perm :
    (cs.find? fun c => c.name == name) = cs'.find? fun c => c.name == name := by
  have hn' : (cs'.map Counter.name).Nodup := (hp.map _).nodup_iff.1 hn
  -- both sides are the entry of that name, of which there is at most one
  have hfind : ∀ ds : List Counter, (ds.map Counter.name).Nodup → ∀ c,
      (ds.find? fun c => c.name == name) = some c ↔ c ∈ ds ∧ c.name = name := by
    intro ds hds c
    constructor
    · intro hc
      exact ⟨List.mem_of_find?_eq_some hc, by simpa using List.find?_some hc⟩
    · rintro ⟨hmem, hname⟩
      have hsome : (ds.find? fun c => c.name == name).isSome := by
        rw [List.find?_isSome]
        exact ⟨c, hmem, beq_iff_eq.2 hname⟩
      obtain ⟨d, hd⟩ := Option.isSome_iff_exists.1 hsome
      have hd' : d.name = name := by simpa using List.find?_some hd
      have hsame : d.name = c.name := hd'.trans hname.symm
      rw [hd, List.inj_on_of_nodup_map hds (List.mem_of_find?_eq_some hd) hmem hsame]
  refine Option.ext fun c => ?_
  rw [hfind cs hn, hfind cs' hn', hp.mem_iff]

theorem lookup_perm :
    (lookup Counter.name name cs).Perm (lookup Counter.name name cs') := by
  rw [lookup, lookup, ← find?_perm hp hn]
  cases cs.find? fun c => c.name == name with
  | some c => exact .refl _
  | none => exact hp.filter _

end

/-- Two results of a fallible function that agree but for the text of an error. -/
def Agree {α : Type} (x y : Except String α) : Prop := x.toOption = y.toOption

theorem findCounter_agree (hp : r.counters.Perm r'.counters)
    (hn : (r.counters.map Counter.name).Nodup) (name : String) :
    Agree (findCounter r name) (findCounter r' name) := by
  have hl := lookup_perm hp hn name
  rw [Agree, findCounter, findCounter]
  revert hl
  generalize lookup Counter.name name r.counters = xs
  generalize lookup Counter.name name r'.counters = ys
  intro hl
  match xs, ys, hl with
  | [], ys, hl => rw [List.nil_perm.1 hl]
  | [c], ys, hl => rw [List.singleton_perm.1 hl]
  | c :: d :: xs, ys, hl =>
    -- more than one candidate on either side
    have hlen := hl.length_eq
    match ys, hlen with
    | _ :: _ :: _, _ => rfl

/-! ## Judging a threshold -/

/-- `Seconds` of a span that is not positive is not positive. -/
def RatesNothing (go : Go F) : Prop :=
  ∀ d : Span, d.ns ≤ 0 → go.le (go.seconds d) (go.lit 0) = true

/-- What `Totals` leaves alike for two orders of the backends. -/
structure Alike (r r' : Result F) : Prop where
  counters : r.counters.Perm r'.counters
  nodup : (r.counters.map Counter.name).Nodup
  took : r.took = r'.took ∨ r.took.ns ≤ 0 ∧ r'.took.ns ≤ 0

theorem alike_totals {s s' : ResultSet F} (hp : s.backends.Perm s'.backends) :
    Alike s.totals s'.totals where
  counters := (sums_totals s).perm (sums_totals s') (hp.flatMap_right _)
  nodup := (sums_totals s).nodup
  took := by
    rw [took_eq_spanOf, took_eq_spanOf]
    exact (longest_totals s).perm (longest_totals s') (hp.map _)

theorem Agree.bind {α β : Type} {x y : Except String α} {f g : α → Except String β}
    (h : Agree x y) (hfg : ∀ a, Agree (f a) (g a)) : Agree (x >>= f) (y >>= g) := by
  cases x with
  | error e =>
    cases y with
    | error e' => rfl
    | ok b => cases h
  | ok a =>
    cases y with
    | error e' => cases h
    | ok b =>
      cases h
      exact hfg a

theorem resolve_agree (hgo : RatesNothing go) (h : Alike r r')
    (hpool : scopeOf t = .pool) :
    Agree (resolve go r t.selector) (resolve go r' t.selector) := by
  rw [scopeOf] at hpool
  rw [resolve, resolve]
  cases hk : t.selector.kind with
  | percentile stat p => simp [hk] at hpool
  | aggregate stat a => simp [hk] at hpool
  | counter name => exact (findCounter_agree h.counters h.nodup name).bind fun c => rfl
  | rate name =>
    refine (findCounter_agree h.counters h.nodup name).bind fun c => ?_
    rcases h.took with heq | ⟨hr, hr'⟩
    · rw [heq]
      rfl
    · -- no rate is computed from either duration
      rw [if_pos (hgo _ hr), if_pos (hgo _ hr')]
      rfl

/-- Two outcomes that differ in the text of their error at most. -/
structure SameVerdict (o o' : Threshold.Outcome F) : Prop where
  pass : o'.pass = o.pass
  actual : o'.actual = o.actual
  err : o'.err.isSome = o.err.isSome

theorem evaluate_sameVerdict (hgo : RatesNothing go)
    (h : Alike r r') (hpool : scopeOf t = .pool) :
    SameVerdict (t.evaluate go r) (t.evaluate go r') := by
  have ha := resolve_agree hgo h hpool
  rw [Threshold.evaluate, Threshold.evaluate]
  cases hr : resolve go r t.selector with
  | error e =>
    cases hr' : resolve go r' t.selector with
    | error e' => exact ⟨rfl, rfl, rfl⟩
    | ok v => rw [hr, hr'] at ha; cases ha
  | ok v =>
    cases hr' : resolve go r' t.selector with
    | error e' => rw [hr, hr'] at ha; cases ha
    | ok v' =>
      rw [hr, hr'] at ha
      cases ha
      exact ⟨rfl, rfl, rfl⟩

/-- One threshold's outcome before and after its backends are permuted. -/
structure Outcome.Permuted {n : Nat} (σ : Equiv.Perm (Fin n)) (o o' : Outcome F) : Prop where
  threshold : o'.threshold = o.threshold
  pass : o'.pass = o.pass
  scope : o'.scope = o.scope
  /-- the one verdict on the pool resolves the same value, or fails to either way -/
  pool : o.scope = .pool →
    ∃ po po', o.perBackend = [po] ∧ o'.perBackend = [po'] ∧ SameVerdict po po'
  /-- the verdicts on the backends move with them -/
  perBackend : o.scope = .perBackend →
    ∃ each : Fin n → Threshold.Outcome F,
      o.perBackend = List.ofFn each ∧ o'.perBackend = List.ofFn (each ∘ σ)

theorem judge_pool {s : ResultSet F} (h : scopeOf t = .pool) :
    s.judge go t = { threshold := t, pass := (t.evaluate go s.totals).pass, scope := .pool
                     perBackend := [t.evaluate go s.totals] } := by
  rw [judge, h]

theorem judge_perBackend {s : ResultSet F}
    (h : scopeOf t = .perBackend) :
    s.judge go t
      = { threshold := t, scope := .perBackend
          pass := (s.backends.map fun b => t.evaluate go b.global).all Threshold.Outcome.pass
          perBackend := s.backends.map fun b => t.evaluate go b.global } := by
  rw [judge, h]

/-- The backends in another order. -/
def permute (backends : List (Backend F)) (σ : Equiv.Perm (Fin backends.length)) : ResultSet F where
  backends := List.ofFn (backends.get ∘ σ)

theorem perm_permute (backends : List (Backend F)) (σ : Equiv.Perm (Fin backends.length)) :
    backends.Perm (permute backends σ).backends := by
  have h := σ.ofFn_comp_perm backends.get
  rw [List.ofFn_get] at h
  exact h.symm

theorem judge_permuted (hgo : RatesNothing go) (backends : List (Backend F))
    (σ : Equiv.Perm (Fin backends.length)) (t : Threshold F) :
    Outcome.Permuted σ (judge go ⟨backends⟩ t) (judge go (permute backends σ) t) := by
  have hp := perm_permute backends σ
  cases hs : scopeOf t with
  | pool =>
    have hsame := evaluate_sameVerdict hgo (alike_totals (s := ⟨backends⟩) hp) hs
    rw [judge_pool hs, judge_pool hs]
    exact ⟨rfl, hsame.pass, rfl, fun _ => ⟨_, _, rfl, rfl, hsame⟩, fun h => by cases h⟩
  | perBackend =>
    rw [judge_perBackend hs, judge_perBackend hs]
    refine ⟨rfl, (hp.map _).symm.all_eq, rfl, nofun, fun _ => ?_⟩
    refine ⟨fun i => t.evaluate go (backends.get i).global, ?_, ?_⟩
    · exact List.ext_get (by simp) (by simp)
    · rw [permute, List.map_ofFn]
      rfl

theorem all_pass_permuted {n : Nat} {σ : Equiv.Perm (Fin n)} {os os' : List (Outcome F)}
    (h : List.Forall₂ (Outcome.Permuted σ) os os') :
    os'.all Outcome.pass = os.all Outcome.pass := by
  induction h with
  | nil => rfl
  | cons ho _ ih => rw [List.all_cons, List.all_cons, ho.pass, ih]

/--
**The order of the backends does not matter.** Permuting them leaves the overall verdict
and every threshold's verdict and scope as they were; a threshold on the pool resolves
the same value or fails either way, and the verdicts on the backends are permuted as the
backends are.
-/
theorem evaluate_permuted {go : Go F} (hgo : RatesNothing go) (backends : List (Backend F))
    (σ : Equiv.Perm (Fin backends.length)) (ts : List (Threshold F)) :
    (evaluate go (permute backends σ) ts).2 = (evaluate go ⟨backends⟩ ts).2
      ∧ List.Forall₂ (Outcome.Permuted σ) (evaluate go ⟨backends⟩ ts).1
          (evaluate go (permute backends σ) ts).1 := by
  have hall : List.Forall₂ (Outcome.Permuted σ) (ts.map (judge go ⟨backends⟩))
      (ts.map (judge go (permute backends σ))) := by
    rw [List.forall₂_map_left_iff, List.forall₂_map_right_iff, List.forall₂_same]
    exact fun t _ => judge_permuted hgo backends σ t
  exact ⟨all_pass_permuted hall, hall⟩

/-! ## A pool of one -/

theorem foldl_addCounter_of_nodup (h : ((sums ++ cs).map Counter.name).Nodup) :
    cs.foldl addCounter sums = sums ++ cs := by
  induction cs generalizing sums with
  | nil => rw [List.append_nil, List.foldl_nil]
  | cons c cs ih =>
    rw [List.append_cons] at h
    have hnew : addCounter sums c = sums ++ [c] := by
      refine if_neg fun hseen => ?_
      obtain ⟨s, hs, heq⟩ := List.any_eq_true.mp hseen
      rw [List.map_append, List.map_append, List.append_assoc] at h
      refine (List.nodup_append.mp h).2.2 s.name (List.mem_map_of_mem hs) c.name (by simp) ?_
      exact beq_iff_eq.mp heq
    rw [List.foldl_cons, hnew, ih h]
    exact (List.append_cons sums c cs).symm

/-- The totals of one backend are its counters and its duration. -/
theorem totals_single (b : Backend F) (h : (b.global.counters.map Counter.name).Nodup) :
    totals ⟨[b]⟩ = { b.global with name := "global", statistics := [] } := by
  have hsums : b.global.counters.foldl addCounter [] = b.global.counters :=
    foldl_addCounter_of_nodup h
  exact congrArg (fun counters => { b.global with name := "global", statistics := [], counters })
    hsums

theorem judge_single {b : Backend F} (h : (b.global.counters.map Counter.name).Nodup)
    (t : Threshold F) :
    (judge go ⟨[b]⟩ t).pass = (t.evaluate go b.global).pass
      ∧ (judge go ⟨[b]⟩ t).perBackend = [t.evaluate go b.global] := by
  cases hs : scopeOf t with
  | pool =>
    -- counters and rates read no statistics
    have hresolve : resolve go (totals ⟨[b]⟩) t.selector = resolve go b.global t.selector := by
      rw [totals_single b h]
      unfold scopeOf at hs
      unfold resolve
      split at hs
      · rename_i hk
        rw [hk]
        rfl
      · rename_i hk
        rw [hk]
        rfl
      all_goals cases hs
    have hsame : t.evaluate go (totals ⟨[b]⟩) = t.evaluate go b.global := by
      unfold Threshold.evaluate
      rw [hresolve]
    rw [judge_pool hs, hsame]
    exact ⟨rfl, rfl⟩
  | perBackend =>
    rw [judge_perBackend hs]
    exact ⟨Bool.and_true _, rfl⟩

/-- **A pool of one is judged as its backend is**, threshold by threshold and over all. -/
theorem evaluate_single (go : Go F) (b : Backend F)
    (h : (b.global.counters.map Counter.name).Nodup) (ts : List (Threshold F)) :
    (evaluate go ⟨[b]⟩ ts).2 = (Threshold.evaluateAll go b.global ts).2
      ∧ (evaluate go ⟨[b]⟩ ts).1.map (fun o => (o.pass, o.perBackend))
        = (Threshold.evaluateAll go b.global ts).1.map (fun o => (o.pass, [o])) := by
  unfold evaluate Threshold.evaluateAll
  dsimp only
  rw [List.all_map, List.all_map, List.map_map, List.map_map]
  refine ⟨congrArg ts.all (funext fun t => (judge_single h t).1), List.map_congr_left fun t _ => ?_⟩
  exact Prod.ext (judge_single h t).1 (judge_single h t).2

end ResultSet

/-! ### Two backends swapped -/

/-- Exact arithmetic in place of floats, and no text that is a number. -/
def Go.exact : Go Rat where
  parseFloat := fun _ => none
  isNaN := fun _ => false
  isInf := fun _ => false
  ofInt := fun n => n
  lit := id
  lt := fun a b => a < b
  le := fun a b => a ≤ b
  eq := fun a b => a = b
  sub := fun a b => a - b
  div := fun a b => a / b
  seconds := fun d => d.ns / 1000000000
  formatV := toString
  format4g := toString
  formatSpan := fun s => toString s.ns ++ "ns"
  parseDuration := fun _ => none
  parseIP := fun _ => false
  readFile := fun path => .error ("open " ++ path ++ ": no such file or directory")

namespace ResultSet

theorem ratesNothing_exact : RatesNothing Go.exact := by
  intro d hd
  have hle : (d.ns : Rat) / 1000000000 ≤ 0 :=
    div_nonpos_of_nonpos_of_nonneg (by exact_mod_cast hd) (by norm_num)
  exact decide_eq_true hle

/-- Two backends, of which the first reports no duration. -/
def pair : List (Backend Rat) :=
  [{ addr := "a:1", output := {}, global := { counters := [⟨"x.ok", 12⟩, ⟨"y.err", 1⟩] } },
    { addr := "b:1", output := {}
      global := { counters := [⟨"y.err", 0⟩, ⟨"x.ok", 8⟩]
                  executionDuration := some (.new (.ofSeconds 10)) } }]

/-- The two of them swapped. -/
def swapped : Equiv.Perm (Fin pair.length) := Equiv.swap ⟨0, by decide⟩ ⟨1, by decide⟩

def rateOf (raw name : String) : Threshold Rat where
  raw := raw
  selector := { raw := "rate:" ++ name, kind := .rate name }
  op := .ge
  value := 2
  isDuration := false
  valueText := "2"

theorem evaluate_permuted_pair :
    RatesNothing Go.exact
      ∧ (evaluate Go.exact (permute pair swapped) [rateOf "rate:ok >= 2" "ok"]).2
          = (evaluate Go.exact ⟨pair⟩ [rateOf "rate:ok >= 2" "ok"]).2
      ∧ (evaluate Go.exact ⟨pair⟩ [rateOf "rate:ok >= 2" "ok"]).2 = true :=
  ⟨ratesNothing_exact,
    (evaluate_permuted ratesNothing_exact pair swapped [rateOf "rate:ok >= 2" "ok"]).1,
    by decide +kernel⟩

theorem evaluate_single_last :
    ((pair.get ⟨1, by decide⟩).global.counters.map Counter.name).Nodup
      ∧ (evaluate Go.exact ⟨[pair.get ⟨1, by decide⟩]⟩ [rateOf "rate:ok >= 2" "ok"]).2
          = (Threshold.evaluateAll Go.exact (pair.get ⟨1, by decide⟩).global
              [rateOf "rate:ok >= 2" "ok"]).2
      ∧ (evaluate Go.exact ⟨[pair.get ⟨1, by decide⟩]⟩ [rateOf "rate:ok >= 2" "ok"]).2 = false :=
  ⟨by decide, (evaluate_single Go.exact _ (by decide) _).1, by decide +kernel⟩

end ResultSet

end Sortie
