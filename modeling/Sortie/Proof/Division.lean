import Mathlib.Data.Nat.ModEq
import Sortie.Proof.Load

/-!
# Dividing a rate over the backends of a pool

`Divide` works on `uint32`s and refuses a rate it cannot express. For a worker count
that `workersPerBackend` accepts and fewer than 2^32 backends nothing in it wraps, so
its answer is the arithmetic one: it refuses exactly what has no exact division, and
what it returns is the even split of `Lib/Split` (`divide_exact`).

`uniformShare` multiplies before it divides. There the product of targets and workers
can pass 2^32, and then the rate is tested against what is left of it.
-/

namespace Sortie.Proof

open Proto Api Plan Compile Checks

variable {α : Type} {e : Execution} {n t w : Nat} {o : CommandLineOptions}
  {opts : List CommandLineOptions} {addrs : List String} {pool : Pool}

/-! ## Refusals -/

/-- A call that returned an error; a panic is no error. -/
def Refused {α : Type} (x : Except Failure α) : Prop := ∃ text, x = .error (.error text)

section

variable {x : Except Failure α} (h : Refused x)
include h

theorem Refused.not_ok (a : α) : x ≠ .ok a := by
  obtain ⟨text, rfl⟩ := h
  exact nofun

theorem Refused.not_panic (text : String) :
    x ≠ .error (.panic text) := by
  obtain ⟨text', rfl⟩ := h
  simp

theorem Refused.bind {β : Type} (f : α → Except Failure β) :
    Refused (x >>= f) := by
  obtain ⟨text, rfl⟩ := h
  exact ⟨text, rfl⟩

end

theorem refused_executionError (e : Execution) (text : String) :
    Refused (executionError e text : Except Failure α) := ⟨_, rfl⟩

/-! ## What is refused -/

theorem perBackendShare_cases (e : Execution) (hw : w < 2 ^ 32) :
    (w ∣ e.rate.toNat ∧ ∃ each, perBackendShare e w = .ok each)
      ∨ (¬ w ∣ e.rate.toNat ∧ Refused (perBackendShare e w)) := by
  have hdvd := mod_eq_zero_iff (r := e.rate) (toNat_ofNat_of_lt hw)
  unfold perBackendShare
  split
  · rename_i hmod
    exact Or.inr ⟨fun h => hmod (hdvd.mpr h), refused_executionError e _⟩
  · rename_i hmod
    exact Or.inl ⟨hdvd.mp (not_not.mp hmod), _, rfl⟩

theorem poolShare_cases (e : Execution) (hw : w < 2 ^ 32) (hn : 1 ≤ n) (hlt : n < 2 ^ 32) :
    (w ∣ e.rate.toNat ∧ n ≤ e.rate.toNat / w ∧ ∃ share, poolShare e w n = .ok share)
      ∨ ((¬ w ∣ e.rate.toNat ∨ e.rate.toNat / w < n) ∧ Refused (poolShare e w n)) := by
  have hdvd := mod_eq_zero_iff (r := e.rate) (toNat_ofNat_of_lt hw)
  have hmore : e.rate / UInt32.ofNat w < UInt32.ofNat n ↔ e.rate.toNat / w < n := by
    rw [UInt32.lt_iff_toNat_lt, UInt32.toNat_div, toNat_ofNat_of_lt hw, toNat_ofNat_of_lt hlt]
  unfold poolShare
  split
  · rename_i hmod
    exact Or.inr ⟨Or.inl fun h => hmod (hdvd.mpr h), refused_executionError e _⟩
  · rename_i hmod
    simp only [hmore]
    split
    · rename_i hfew
      exact Or.inr ⟨Or.inr hfew, refused_executionError e _⟩
    · rename_i hfew
      -- a positive count below 2^32 is still positive as a `uint32`
      have hne : UInt32.ofNat n ≠ 0 := by
        intro h
        have := congrArg UInt32.toNat h
        rw [toNat_ofNat_of_lt hlt] at this
        have : n = 0 := this
        omega
      rw [if_neg hne]
      exact Or.inl ⟨hdvd.mp (not_not.mp hmod), by omega, _, rfl⟩

/-- The division of `e` over `n` backends with `w` workers each can be expressed. -/
def Expressible (e : Execution) (w n : Nat) : Prop :=
  w ∣ e.rate.toNat ∧ (e.perBackend = false → n ≤ e.rate.toNat / w)

theorem shareOf_cases (e : Execution) (hw : w < 2 ^ 32) (hn : 1 ≤ n) (hlt : n < 2 ^ 32) :
    (Expressible e w n ∧ ∃ share, shareOf e w n = .ok share)
      ∨ (¬ Expressible e w n ∧ Refused (shareOf e w n)) := by
  unfold shareOf Expressible
  cases hper : e.perBackend with
  | true =>
    rw [if_pos rfl]
    rcases perBackendShare_cases e hw with ⟨hdvd, each, h⟩ | ⟨hdvd, text, h⟩
    · exact Or.inl ⟨⟨hdvd, nofun⟩, fun _ => each, by rw [h]; rfl⟩
    · exact Or.inr ⟨fun h => hdvd h.1, text, by rw [h]; rfl⟩
  | false =>
    rw [if_neg (by simp)]
    rcases poolShare_cases e hw hn hlt with ⟨hdvd, hle, h⟩ | ⟨hbad, h⟩
    · exact Or.inl ⟨⟨hdvd, fun _ => hle⟩, h⟩
    · refine Or.inr ⟨?_, h⟩
      rintro ⟨hdvd, hle⟩
      have := hle rfl
      rcases hbad with hbad | hbad
      · exact hbad hdvd
      · omega

/-- `Divide` answers what can be expressed and refuses the rest. -/
theorem divide_cases (hw : workersPerBackend e.scenario = .ok w) (hn : 1 ≤ n) (hlt : n < 2 ^ 32) :
    (Expressible e w n ∧ ∃ opts, divide e n = .ok opts)
      ∨ (¬ Expressible e w n ∧ Refused (divide e n)) := by
  unfold divide
  rw [if_neg (by omega), workersOf_ok_iff.mpr hw]
  simp only [bind, Except.bind]
  rcases shareOf_cases e (workersPerBackend_bounds hw).2 hn hlt with ⟨hx, share, h⟩ | ⟨hx, h⟩
  · rw [h]
    exact Or.inl ⟨hx, _, rfl⟩
  · exact Or.inr ⟨hx, h.bind _⟩

theorem refused_divide_iff (hw : workersPerBackend e.scenario = .ok w) (hn : 1 ≤ n)
    (hlt : n < 2 ^ 32) : Refused (divide e n) ↔ ¬ Expressible e w n := by
  rcases divide_cases hw hn hlt with ⟨hx, opts, h⟩ | ⟨hx, h⟩
  · exact iff_of_false (fun hr => hr.not_ok opts h) (not_not.mpr hx)
  · exact iff_of_true h hx

/-! ## What a backend is given -/

/-- `GetRequestsPerSecond().GetValue()`. -/
def rps (o : CommandLineOptions) : Nat := (o.requestsPerSecond.map UInt32.toNat).getD 0

/-- The rate of one of a backend's `w` workers: the engine divides an aggregate over them. -/
def workerShare (e : Execution) (w : Nat) (o : CommandLineOptions) : Nat :=
  if aggregateRate e.scenario then rps o / w else rps o

/-- The rate of a backend with `w` workers. -/
def backendTotal (e : Execution) (w : Nat) (o : CommandLineOptions) : Nat :=
  if aggregateRate e.scenario then rps o else rps o * w

/-- A sent rate is read back as the share it was made of, and nothing of it is lost. -/
theorem workerShare_of_rps {share : Nat} (hw : 0 < w)
    (h : rps o = sentRate (aggregateRate e.scenario) w share) :
    workerShare e w o = share ∧ backendTotal e w o = share * w
      ∧ (aggregateRate e.scenario = true → w ∣ rps o) := by
  unfold workerShare backendTotal
  unfold sentRate at h
  cases hagg : aggregateRate e.scenario with
  | true =>
    rw [hagg, if_pos rfl] at h
    rw [if_pos rfl, if_pos rfl, h, Nat.mul_div_cancel _ hw]
    exact ⟨rfl, rfl, fun _ => Nat.dvd_mul_left w share⟩
  | false =>
    rw [hagg, if_neg (by simp)] at h
    rw [if_neg (by simp), if_neg (by simp), h]
    exact ⟨rfl, rfl, nofun⟩

theorem rps_backendOptions {share : Nat → UInt32} (hd : Divided e n w share) (i : Nat) :
    rps (backendOptions e n (backendRate e (share i) w) i)
      = sentRate (aggregateRate e.scenario) w (share i).toNat :=
  backendRate_toNat hd i

/-- The rate of `e` is dealt out evenly and exactly over the workers of `n` backends. -/
structure FairShares (e : Execution) (w n : Nat) (opts : List CommandLineOptions) : Prop where
  length : opts.length = n
  /-- an aggregate is a multiple of the workers, and the product that made it fits -/
  dvd : aggregateRate e.scenario = true → ∀ o ∈ opts, w ∣ rps o
  product : ∀ share, shareOf e w n = .ok share → ∀ i < n, (share i).toNat * w < 2 ^ 32
  pos : ∀ o ∈ opts, 1 ≤ workerShare e w o
  close : ∀ o ∈ opts, ∀ o' ∈ opts, workerShare e w o ≤ workerShare e w o' + 1
  antitone : opts.Pairwise fun o o' => workerShare e w o' ≤ workerShare e w o
  sum : w * (opts.map (workerShare e w)).sum = e.rate.toNat

/-- Every backend is given the whole rate. -/
structure FullRates (e : Execution) (w n : Nat) (opts : List CommandLineOptions) : Prop where
  length : opts.length = n
  dvd : aggregateRate e.scenario = true → ∀ o ∈ opts, w ∣ rps o
  product : ∀ share, shareOf e w n = .ok share → ∀ i < n, (share i).toNat * w < 2 ^ 32
  total : ∀ o ∈ opts, backendTotal e w o = e.rate.toNat

/-- The options of a division, one for each share. -/
theorem divide_shares (hw : workersPerBackend e.scenario = .ok w) (h : divide e n = .ok opts) :
    ∃ share, shareOf e w n = .ok share ∧ Divided e n w share
      ∧ opts = (List.range n).map fun i => backendOptions e n (backendRate e (share i) w) i := by
  obtain ⟨w', share, hd, hshare, rfl⟩ := divide_ok h
  obtain rfl : w' = w := Except.ok.inj (hd.workers.symm.trans hw)
  exact ⟨share, hshare, hd, rfl⟩

theorem Divided.product_lt {share : Nat → UInt32} (hd : Divided e n w share) (i : Nat) :
    (share i).toNat * w < 2 ^ 32 :=
  Nat.lt_of_le_of_lt (hd.mul_le i) e.rate.toNat_lt

theorem fullRates_divide (hw : workersPerBackend e.scenario = .ok w) (hper : e.perBackend = true)
    (h : divide e n = .ok opts) : FullRates e w n opts := by
  obtain ⟨share, -, hd, rfl⟩ := divide_shares hw h
  have hread (i : Nat) := workerShare_of_rps (workersPerBackend_bounds hw).1
    (rps_backendOptions hd i)
  refine ⟨by simp, ?_, fun share' hs i _ => (shareOf_ok hw hs).product_lt i, ?_⟩
  · intro hagg o ho
    obtain ⟨i, -, rfl⟩ := List.mem_map.mp ho
    exact (hread i).2.2 hagg
  · intro o ho
    obtain ⟨i, -, rfl⟩ := List.mem_map.mp ho
    rw [(hread i).2.1, hd.perBackend hper i, Nat.div_mul_cancel hd.dvd]

theorem fairShares_divide (hw : workersPerBackend e.scenario = .ok w) (hper : e.perBackend = false)
    (hn : 1 ≤ n) (hlt : n < 2 ^ 32) (h : divide e n = .ok opts) : FairShares e w n opts := by
  obtain ⟨share, -, hd, rfl⟩ := divide_shares hw h
  obtain ⟨hle, hpart⟩ := hd.pool hper hlt
  have hread (i : Nat) := workerShare_of_rps (workersPerBackend_bounds hw).1
    (rps_backendOptions hd i)
  -- every fact is one of the even split
  have hshare : ∀ i < n, workerShare e w (backendOptions e n (backendRate e (share i) w) i)
      = Split.part (e.rate.toNat / w) n i := by
    intro i hi
    rw [(hread i).1, hpart i hi]
  refine ⟨by simp, ?_, fun share' hs i _ => (shareOf_ok hw hs).product_lt i, ?_, ?_, ?_, ?_⟩
  · intro hagg o ho
    obtain ⟨i, -, rfl⟩ := List.mem_map.mp ho
    exact (hread i).2.2 hagg
  · intro o ho
    obtain ⟨i, hi, rfl⟩ := List.mem_map.mp ho
    rw [hshare i (List.mem_range.mp hi)]
    exact Split.part_pos hn hle i
  · intro o ho o' ho'
    obtain ⟨i, hi, rfl⟩ := List.mem_map.mp ho
    obtain ⟨j, hj, rfl⟩ := List.mem_map.mp ho'
    rw [hshare i (List.mem_range.mp hi), hshare j (List.mem_range.mp hj)]
    exact Split.part_le_succ i j
  · rw [List.pairwise_map]
    refine List.Pairwise.imp_of_mem ?_ (List.pairwise_lt_range (n := n))
    intro i j hi hj hij
    rw [hshare i (List.mem_range.mp hi), hshare j (List.mem_range.mp hj)]
    exact Split.part_antitone hij.le
  · have hmap : ((List.range n).map fun i => backendOptions e n (backendRate e (share i) w) i).map
        (workerShare e w) = (List.range n).map (Split.part (e.rate.toNat / w) n) := by
      rw [List.map_map]
      exact List.map_congr_left fun i hi => hshare i (List.mem_range.mp hi)
    rw [hmap, Split.sum_part hn, Nat.mul_div_cancel' hd.dvd]

/-- **A rate is divided exactly and evenly, or refused because it cannot be.** -/
theorem divide_exact {e : Execution} {w n : Nat}
    (hw : workersPerBackend e.scenario = .ok w) (hn : 1 ≤ n) (hlt : n < 2 ^ 32) :
    (e.perBackend = false →
      (Refused (divide e n) ↔ ¬ w ∣ e.rate.toNat ∨ e.rate.toNat / w < n)
      ∧ (¬ Refused (divide e n) → ∃ opts, divide e n = .ok opts ∧ FairShares e w n opts))
    ∧ (e.perBackend = true →
      (Refused (divide e n) ↔ ¬ w ∣ e.rate.toNat)
      ∧ (¬ Refused (divide e n) → ∃ opts, divide e n = .ok opts ∧ FullRates e w n opts)) := by
  have hiff := refused_divide_iff hw hn hlt
  have hanswer : ¬ Refused (divide e n) → ∃ opts, divide e n = .ok opts := by
    intro h
    rcases divide_cases hw hn hlt with ⟨-, hok⟩ | ⟨-, hr⟩
    · exact hok
    · exact absurd hr h
  unfold Expressible at hiff
  constructor
  · intro hper
    refine ⟨?_, ?_⟩
    · rw [hiff]
      simp only [hper, true_implies]
      omega
    · intro h
      obtain ⟨opts, hopts⟩ := hanswer h
      exact ⟨opts, hopts, fairShares_divide hw hper hn hlt hopts⟩
  · intro hper
    refine ⟨?_, ?_⟩
    · rw [hiff]
      simp [hper]
    · intro h
      obtain ⟨opts, hopts⟩ := hanswer h
      exact ⟨opts, hopts, fullRates_divide hw hper hopts⟩

/-- A rate over backends of four workers that share what they are sent. -/
def streamed (rate : UInt32) : Execution :=
  { scenario := { grpc := some { mode := "bidi-stream" }, concurrency := "4" }
    label := "load", rate, perBackend := false, duration := 0, options := {} }

/-- 300 over two backends with four workers is 152 and 148. -/
theorem divide_threeHundred : ∃ opts, divide (streamed 300) 2 = .ok opts
    ∧ opts.map rps = [152, 148] ∧ FairShares (streamed 300) 4 2 opts := by
  have hw : workersPerBackend (streamed 300).scenario = .ok 4 := rfl
  obtain ⟨opts, h, hfair⟩ := ((divide_exact hw (by decide) (by decide)).1 rfl).2
    (fun hr : Refused (divide (streamed 300) 2) => hr.not_ok _ rfl)
  refine ⟨opts, h, ?_, hfair⟩
  rw [← Except.ok.inj h]
  rfl

/-! ## One request for every target of a distributor -/

/-- The sinks of an execution's stats block can be rebuilt in its options, if they have to be. -/
def StatsFit (e : Execution) (addrs : List String) : Prop :=
  ∀ st, e.stats = some st → st.backend = statsBackendName ∨ addrs.length = 1 →
    ∃ sinks, statsSinks st e.label "" = .ok sinks ∧ sinks.length ≤ e.options.statsSinks.length

/-- One options object is given its sinks exactly when they fit. -/
theorem restatAll_single_iff (ho : o.statsSinks = e.options.statsSinks) :
    (∃ opts, restatAll e.stats e.label addrs [o] = .ok opts) ↔ StatsFit e addrs := by
  unfold restatAll StatsFit
  cases hst : e.stats with
  | none => exact iff_of_true ⟨_, rfl⟩ (fun _ h => absurd h (by simp))
  | some st =>
    -- the one object gets a component by name, or by address when there is one address
    have hcomponents : (∃ c, backendComponents (some st) addrs 1 = [c]
          ∧ (st.backend = statsBackendName ∨ addrs.length = 1))
        ∨ (backendComponents (some st) addrs 1 = []
          ∧ ¬ (st.backend = statsBackendName ∨ addrs.length = 1)) := by
      unfold backendComponents
      by_cases hname : st.backend = statsBackendName
      · exact Or.inl
          ⟨statsBackendToken, by simp only [if_pos hname, List.replicate_one], Or.inl hname⟩
      · by_cases hone : addrs.length = 1
        · obtain ⟨c, hc⟩ := List.length_eq_one_iff.mp ((length_backendSegments addrs).trans hone)
          exact Or.inl ⟨c, by simp only [if_neg hname, if_pos hone.symm, hc], Or.inr hone⟩
        · refine Or.inr ⟨by simp only [if_neg hname, if_neg (Ne.symm hone)], ?_⟩
          exact not_or.mpr ⟨hname, hone⟩
    simp only [Option.some.injEq, forall_eq', List.length_singleton]
    rcases hcomponents with ⟨c, hc, hneeded⟩ | ⟨hc, hnot⟩
    · rw [hc]
      simp only [hneeded, true_implies]
      rw [← ho, ← restat_ok_iff c]
      unfold restatEach restatEach
      constructor
      · rintro ⟨opts, h⟩
        obtain ⟨o', ho', -⟩ := bind_ok_iff.mp h
        exact ⟨o', ho'⟩
      · rintro ⟨o', ho'⟩
        exact ⟨[o'], by rw [ho']; rfl⟩
    · rw [hc]
      exact iff_of_true ⟨_, rfl⟩ fun h => absurd h hnot

section

variable {F : Type} {go : Go F} {s : Scenario} {execs : List Execution}
  (h : expand go s = .ok execs) (he : e ∈ execs)
include h he

/-- The sinks of a compiled request are those of the template and then those of the stats block. -/
theorem sinks_of_expand :
    ∃ own, ownSinks e.stats e.label = .ok own
      ∧ e.options.statsSinks = (template s).statsSinks ++ own := by
  have hc := expand_compiled h he
  obtain ⟨ex, pl, -, -, hcarries⟩ := hc.carries
  obtain ⟨protocol, context, request, own, interval, hopts, -, hown⟩ := options_ok hcarries.options
  have hvariant : (executedAs s e.target).stats = s.stats
      ∧ template (executedAs s e.target) = template s := by
    cases e.target <;> exact ⟨rfl, rfl⟩
  rw [hvariant.1] at hown
  refine ⟨own, by rw [hcarries.label, hc.stats]; exact hown, ?_⟩
  rw [hopts, hvariant.2]

/-- The options of an execution carry the sinks of its stats block last. -/
def CarriesSinks (e : Execution) (st : Stats) : Prop :=
  ∃ before sinks, statsSinks st e.label "" = .ok sinks ∧ e.options.statsSinks = before ++ sinks

theorem carriesSinks_of_expand {st : Stats} (hst : e.stats = some st) :
    CarriesSinks e st := by
  obtain ⟨own, hown, heq⟩ := sinks_of_expand h he
  rw [hst] at hown
  exact ⟨_, own, hown, heq⟩

end

/-- The product a rate is tested against, as it is computed. -/
theorem toNat_divisor (t w : Nat) :
    (UInt32.ofNat t * UInt32.ofNat w).toNat = t * w % 2 ^ 32 := by
  rw [UInt32.toNat_mul, UInt32.toNat_ofNat', UInt32.toNat_ofNat', ← Nat.mul_mod]

/-- What `uniformShare` makes of a rate that the targets share. -/
theorem uniformShare_cases (hper : e.perBackend = false) (hw : workersPerBackend e.scenario = .ok w)
    (ht : 1 ≤ t) :
    (t * w % 2 ^ 32 = 0 ∧ ∃ text, uniformShare e t = .error (.panic text))
      ∨ (t * w % 2 ^ 32 ≠ 0 ∧ ¬ t * w % 2 ^ 32 ∣ e.rate.toNat ∧ Refused (uniformShare e t))
      ∨ (t * w % 2 ^ 32 ≠ 0 ∧ t * w % 2 ^ 32 ∣ e.rate.toNat
        ∧ ∃ share : UInt32, share.toNat = e.rate.toNat / (t * w % 2 ^ 32)
          ∧ uniformShare e t = .ok (atRate e (backendRate e share w))) := by
  have hdivisor := toNat_divisor t w
  have hzero : UInt32.ofNat t * UInt32.ofNat w = 0 ↔ t * w % 2 ^ 32 = 0 := by
    rw [← hdivisor, ← UInt32.toNat_inj]
    rfl
  have hdvd := mod_eq_zero_iff (r := e.rate) hdivisor
  unfold uniformShare
  rw [if_neg (by omega), workersOf_ok_iff.mpr hw]
  simp only [bind, Except.bind]
  rw [if_neg (by rw [hper]; simp)]
  split
  · rename_i h
    exact Or.inl ⟨hzero.mp h, _, rfl⟩
  · rename_i h
    split
    · rename_i hmod
      exact Or.inr (Or.inl ⟨fun h0 => h (hzero.mpr h0), fun h0 => hmod (hdvd.mpr h0),
        refused_executionError e _⟩)
    · rename_i hmod
      refine Or.inr (Or.inr ⟨fun h0 => h (hzero.mpr h0), hdvd.mp (not_not.mp hmod), _, ?_, rfl⟩)
      rw [UInt32.toNat_div, hdivisor]

/-- A rate every target receives is refused or sent, like one that a pool's backends receive. -/
theorem uniformShare_perBackend (hper : e.perBackend = true)
    (hw : workersPerBackend e.scenario = .ok w) (ht : 1 ≤ t) (text : String) :
    uniformShare e t ≠ .error (.panic text) := by
  unfold uniformShare
  rw [if_neg (by omega), workersOf_ok_iff.mpr hw]
  simp only [bind, Except.bind]
  rw [if_pos hper]
  rcases perBackendShare_cases e (workersPerBackend_bounds hw).2 with ⟨-, each, h⟩ | ⟨-, text', h⟩
  · rw [h]
    exact nofun
  · rw [h]
    simp

/-- The options of a distributor's targets are those of `uniformShare`, with their sinks. -/
theorem forPool_distributor (hdist : pool.distributor ≠ "") :
    forPool e pool = uniformShare e pool.targets.length >>= fun opts =>
      orFail (restatAll e.stats e.label pool.targets [opts]) >>= fun shared =>
        .ok (pool.targets, shared) := by
  unfold forPool
  rw [if_pos hdist]
  rfl

theorem orFail_not_panic (x : Except String α) (text : String) :
    orFail x ≠ .error (.panic text) := by
  cases x with
  | error e => simp [orFail, Except.mapError]
  | ok a => exact nofun

/-- The share a request to a pool was made of, and what the rest of the request is. -/
structure Sent (e : Execution) (pool : Pool) (w : Nat) (share : UInt32) (o : CommandLineOptions) :
    Prop where
  options : o = { e.options with
    requestsPerSecond := some (backendRate e share w)
    executionId := o.executionId
    statsSinks := o.statsSinks }
  direct : pool.distributor = "" ∨ e.perBackend = true → share.toNat * w ≤ e.rate.toNat
  shared : pool.distributor ≠ "" → e.perBackend = false →
    share.toNat = e.rate.toNat / (pool.targets.length * w % 2 ^ 32)

theorem Sent.sinks {share : UInt32} {o' : CommandLineOptions} (h : Sent e pool w share o)
    (ho : SameButSinks o o') : Sent e pool w share o' := by
  refine ⟨?_, h.direct, h.shared⟩
  rw [ho, h.options]

theorem uniformShare_ok (h : uniformShare e t = .ok o) :
    1 ≤ t ∧ ∃ w rate, workersPerBackend e.scenario = .ok w ∧ o = atRate e rate := by
  unfold uniformShare at h
  split at h
  · cases h
  · rename_i ht
    obtain ⟨w, hw, h⟩ := bind_ok_iff.mp h
    refine ⟨Nat.one_le_iff_ne_zero.mpr ht, w, ?_⟩
    rw [workersOf_ok_iff.mp hw]
    split at h
    · obtain ⟨each, -, h⟩ := bind_ok_iff.mp h
      exact ⟨_, rfl, (Except.ok.inj h).symm⟩
    · dsimp only [pure_bind] at h
      split at h
      · cases h
      · split at h
        · cases h
        · exact ⟨_, rfl, (Except.ok.inj h).symm⟩

theorem sent_divide (hdist : pool.distributor = "") (hw : workersPerBackend e.scenario = .ok w)
    (h : divide e n = .ok opts) (ho : o ∈ opts) : ∃ share, Sent e pool w share o := by
  obtain ⟨share, -, hd, rfl⟩ := divide_shares hw h
  obtain ⟨i, -, rfl⟩ := List.mem_map.mp ho
  exact ⟨share i, rfl, fun _ => hd.mul_le i, fun hne => absurd hdist hne⟩

theorem sent_uniformShare (hdist : pool.distributor ≠ "")
    (hw : workersPerBackend e.scenario = .ok w) (h : uniformShare e pool.targets.length = .ok o) :
    ∃ share, Sent e pool w share o := by
  have ht := (uniformShare_ok h).1
  cases hper : e.perBackend with
  | true =>
    unfold uniformShare at h
    rw [if_neg (by omega), workersOf_ok_iff.mpr hw] at h
    simp only [bind, Except.bind] at h
    rw [if_pos hper] at h
    obtain ⟨each, heach, h⟩ := bind_ok_iff.mp h
    cases h
    have hshare := (perBackendShare_ok (workersPerBackend_bounds hw).2 heach).2
    refine ⟨each, rfl, fun _ => ?_, fun _ hfalse => nomatch hper.symm.trans hfalse⟩
    rw [hshare]
    exact Nat.div_mul_le_self _ _
  | false =>
    rcases uniformShare_cases hper hw ht with ⟨-, text, hp⟩ | ⟨-, -, hr⟩ | ⟨-, -, share, hs, hok⟩
    · exact absurd (hp.symm.trans h) nofun
    · exact absurd h (hr.not_ok o)
    · obtain rfl := Except.ok.inj (hok.symm.trans h)
      refine ⟨share, rfl, ?_, fun _ _ => hs⟩
      rintro (hempty | htrue)
      · exact absurd hempty hdist
      · exact nomatch hper.symm.trans htrue

/-- Every request to a pool was shared out or divided, and then given its sinks. -/
theorem forPool_ok (h : forPool e pool = .ok (addrs, opts)) (ho : o ∈ opts) :
    ∃ o₀, Restated e.stats e.label o₀ o
      ∧ (pool.distributor ≠ "" ∧ uniformShare e pool.targets.length = .ok o₀
        ∨ pool.distributor = "" ∧ ∃ divided, o₀ ∈ divided
          ∧ divide e (if unresolved pool then 1 else pool.services.length) = .ok divided) := by
  by_cases hdist : pool.distributor = ""
  · unfold forPool at h
    rw [if_neg (not_not.mpr hdist)] at h
    split at h
    all_goals
      rename_i hun
      obtain ⟨divided, hdiv, h⟩ := bind_ok_iff.mp h
      obtain ⟨opts', hopts, h⟩ := bind_ok_iff.mp h
      obtain ⟨-, rfl⟩ := Prod.mk.inj (Except.ok.inj h)
      obtain ⟨o₀, ho₀, hre⟩ := exists_left (restatAll_ok (mapError_ok_iff.mp hopts)) ho
      simp only [hun]
      exact ⟨o₀, hre, .inr ⟨hdist, divided, ho₀, hdiv⟩⟩
  · rw [forPool_distributor hdist] at h
    obtain ⟨shared, hshare, h⟩ := bind_ok_iff.mp h
    obtain ⟨opts', hopts, h⟩ := bind_ok_iff.mp h
    obtain ⟨-, rfl⟩ := Prod.mk.inj (Except.ok.inj h)
    obtain ⟨o₀, ho₀, hre⟩ := exists_left (restatAll_ok (mapError_ok_iff.mp hopts)) ho
    obtain rfl := List.mem_singleton.mp ho₀
    exact ⟨o₀, hre, .inl ⟨hdist, hshare⟩⟩

/-- **Whatever the pool, a request is the execution's at the rate of a share.** -/
theorem forPool_sent (hw : workersPerBackend e.scenario = .ok w)
    (h : forPool e pool = .ok (addrs, opts)) (ho : o ∈ opts) : ∃ share, Sent e pool w share o := by
  obtain ⟨o₀, hre, hbefore⟩ := forPool_ok h ho
  have hsent : ∃ share, Sent e pool w share o₀ := by
    obtain ⟨hdist, hshare⟩ | ⟨hdist, divided, ho₀, hdiv⟩ := hbefore
    · exact sent_uniformShare hdist hw hshare
    · exact sent_divide hdist hw hdiv ho₀
  exact hsent.imp fun share hsent => hsent.sinks hre.sameButSinks

/-! ## What a pool changes -/

/-- The options of an execution with another rate, and another id where `direct` allows one. -/
def Rated (e : Execution) (direct : Prop) (o : CommandLineOptions) : Prop :=
  ∃ rate id, o = { atRate e rate with executionId := id } ∧ (id = e.options.executionId ∨ direct)

theorem rated_divide (h : divide e n = .ok opts) (ho : o ∈ opts) : Rated e (1 < n) o := by
  obtain ⟨w, share, -, -, rfl⟩ := divide_ok h
  obtain ⟨i, -, rfl⟩ := List.mem_map.mp ho
  refine ⟨_, _, rfl, ?_⟩
  split
  · exact .inr ‹_›
  · exact .inl rfl

/-- Sinks that are rebuilt stay where they are, after the same others. -/
theorem Restated.sinks {stats : Option Stats} {label : String} {o' : CommandLineOptions}
    {before own : List StatsSink} (h : Restated stats label o o')
    (hown : ownSinks stats label = .ok own) (ho : o.statsSinks = before ++ own) :
    ∃ own', o'.statsSinks = before ++ own' ∧ List.Forall₂ Reprefixed own own' := by
  obtain rfl | ⟨st, backend, rfl, h⟩ := h
  · exact ⟨own, ho, List.forall₂_same.mpr fun _ _ => .inl rfl⟩
  · obtain ⟨own', hown', rfl⟩ := restat_ok h
    obtain ⟨sinks, hsinks, hall⟩ := statsSinks_backend backend hown
    obtain rfl := Except.ok.inj (hsinks.symm.trans hown')
    refine ⟨sinks, ?_, hall⟩
    rw [ho, List.length_append, hall.length_eq, Nat.add_sub_cancel, List.take_left]

/-- **A pool changes the rate, an id and the prefixes of the stats block's own sinks.** -/
theorem forPool_frame {F : Type} {go : Go F} {s : Scenario} {execs : List Execution}
    {e : Execution} {pool : Pool} {addrs : List String} {opts : List CommandLineOptions}
    (hexpand : expand go s = .ok execs) (he : e ∈ execs)
    (h : forPool e pool = .ok (addrs, opts)) :
    ∃ own, ownSinks e.stats e.label = .ok own
      ∧ e.options.statsSinks = (template s).statsSinks ++ own
      ∧ ∀ o ∈ opts, ∃ rate id own', List.Forall₂ Reprefixed own own'
        ∧ (id = e.options.executionId ∨ pool.distributor = "" ∧ 1 < pool.services.length)
        ∧ o = { e.options with
            requestsPerSecond := some rate
            executionId := id
            statsSinks := (template s).statsSinks ++ own' } := by
  obtain ⟨own, hown, heq⟩ := sinks_of_expand hexpand he
  refine ⟨own, hown, heq, fun o ho => ?_⟩
  obtain ⟨o₀, hre, hbefore⟩ := forPool_ok h ho
  obtain ⟨rate, id, rfl, hid⟩ : Rated e (pool.distributor = "" ∧ 1 < pool.services.length) o₀ := by
    obtain ⟨-, hshare⟩ | ⟨hdist, divided, ho₀, hdiv⟩ := hbefore
    · obtain ⟨-, -, rate, -, rfl⟩ := uniformShare_ok hshare
      exact ⟨rate, _, rfl, .inl rfl⟩
    · obtain ⟨rate, id, rfl, hid⟩ := rated_divide hdiv ho₀
      refine ⟨rate, id, rfl, hid.imp_right fun hmany => ⟨hdist, ?_⟩⟩
      split at hmany
      · omega
      · exact hmany
  obtain ⟨own', hsinks, hall⟩ := hre.sinks hown heq
  refine ⟨rate, id, own', hall, hid, ?_⟩
  rw [hre.sameButSinks, hsinks]
  rfl

/-- A scenario with a sink in its template and one in its stats block. -/
def withSinks : Scenario :=
  { scenarioOf { type := constantRate, rate := 10, duration := some (.ofMillis 10000) } with
    stats := some { statsd := some { address := "127.0.0.1:8125" } }
    nighthawkTemplate := some { statsSinks := [{ name := "file" }] } }

theorem forPool_frame_twoServices : ∃ e a b, expand Go.bare withSinks = .ok [e]
    ∧ forPool e { services := ["a:1", "b:1"] } = .ok (["a:1", "b:1"], [a, b])
    ∧ ∃ own own', a.statsSinks = { name := "file" } :: own' ∧ List.Forall₂ Reprefixed own own' := by
  obtain ⟨e, a, b, hexpand, hpool⟩ : ∃ e a b, expand Go.bare withSinks = .ok [e]
      ∧ forPool e { services := ["a:1", "b:1"] } = .ok (["a:1", "b:1"], [a, b]) :=
    ⟨_, _, _, rfl, rfl⟩
  obtain ⟨own, -, -, hall⟩ := forPool_frame hexpand List.mem_cons_self hpool
  obtain ⟨_, _, own', hown, -, ha⟩ := hall _ List.mem_cons_self
  exact ⟨e, a, b, hexpand, hpool, own, own',
    congrArg (fun o : CommandLineOptions => o.statsSinks) ha, hown⟩

/-- What holds of every request to a distributor, as a direct pool would have it. -/
structure DistributorRate (e : Execution) (pool : Pool) (w : Nat) : Prop where
  noPanic : ∀ text, forPool e pool ≠ .error (.panic text)
  succeeds : e.perBackend = false →
    ((∃ sent, forPool e pool = .ok sent) ↔ pool.targets.length * w ∣ e.rate.toNat)
  total : e.perBackend = false → ∀ addrs opts, forPool e pool = .ok (addrs, opts) →
    ∃ o, opts = [o] ∧ pool.targets.length * backendTotal e w o = e.rate.toNat

/-- The product of targets and workers has passed 2^32 and left a divisor of the rate. -/
def WrapsToDivisor (t w r : Nat) : Prop :=
  2 ^ 32 ≤ t * w ∧ ∃ d, d ∣ r ∧ t * w ≡ d [MOD 2 ^ 32]

theorem wrapsToDivisor_iff {r : Nat} (hr : 1 ≤ r) (hlt : r < 2 ^ 32) :
    WrapsToDivisor t w r ↔ 2 ^ 32 ≤ t * w ∧ t * w % 2 ^ 32 ∣ r := by
  refine and_congr_right fun _ => ⟨?_, fun h => ⟨_, h, (Nat.mod_modEq _ _).symm⟩⟩
  rintro ⟨d, hd, hmod⟩
  -- a divisor of the rate is below 2^32, so it is the remainder itself
  have hle := Nat.le_of_dvd hr hd
  have heq : t * w % 2 ^ 32 = d % 2 ^ 32 := hmod
  rw [heq, Nat.mod_eq_of_lt (by omega)]
  exact hd

/-- The rebuilt options carry the rate they were rebuilt from. -/
theorem rps_restatAll {stats : Option Stats} {label : String}
    (h : restatAll stats label addrs [o] = .ok opts) : ∃ o', opts = [o'] ∧ rps o' = rps o := by
  cases restatAll_sinks h with
  | cons ho hrest =>
    cases hrest
    refine ⟨_, rfl, ?_⟩
    rw [ho]
    rfl

/-- A product that fits gives every target its share of the rate. -/
theorem distributor_total {share : UInt32} (hw : workersPerBackend e.scenario = .ok w) (ht : 1 ≤ t)
    (hdvd : t * w ∣ e.rate.toNat) (hshare : share.toNat = e.rate.toNat / (t * w))
    (ho : rps o = (backendRate e share w).toNat) : t * backendTotal e w o = e.rate.toNat := by
  obtain ⟨hpos, hlt⟩ := workersPerBackend_bounds hw
  obtain ⟨k, hk⟩ := hdvd
  have hprod : 0 < t * w := Nat.mul_pos ht hpos
  rw [hk, Nat.mul_div_cancel_left k hprod] at hshare
  have hle : k * w ≤ e.rate.toNat := by
    rw [hk, Nat.mul_comm k w, Nat.mul_assoc]
    exact Nat.le_mul_of_pos_left _ ht
  have hrate := e.rate.toNat_lt
  have hsent : rps o = sentRate (aggregateRate e.scenario) w k := by
    rw [ho]
    unfold backendRate sentRate
    split
    · rw [UInt32.toNat_mul, toNat_ofNat_of_lt hlt, hshare, Nat.mod_eq_of_lt (by omega)]
    · exact hshare
  rw [(workerShare_of_rps hpos hsent).2.1, hk, Nat.mul_comm k w, Nat.mul_assoc]

section Distributor

variable (hdist : pool.distributor ≠ "") (hper : e.perBackend = false)
  (hw : workersPerBackend e.scenario = .ok w) (ht : 1 ≤ pool.targets.length)
include hdist hper hw ht

theorem forPool_distributor_cases :
    (pool.targets.length * w % 2 ^ 32 = 0 ∧ ∃ text, forPool e pool = .error (.panic text))
      ∨ (pool.targets.length * w % 2 ^ 32 ≠ 0
        ∧ ¬ (pool.targets.length * w % 2 ^ 32 ∣ e.rate.toNat ∧ StatsFit e pool.targets)
        ∧ Refused (forPool e pool))
      ∨ (pool.targets.length * w % 2 ^ 32 ∣ e.rate.toNat ∧ StatsFit e pool.targets
        ∧ pool.targets.length * w % 2 ^ 32 ≠ 0
        ∧ ∃ o, forPool e pool = .ok (pool.targets, [o]) ∧ ∃ share : UInt32,
          share.toNat = e.rate.toNat / (pool.targets.length * w % 2 ^ 32)
            ∧ rps o = (backendRate e share w).toNat) := by
  rw [forPool_distributor hdist]
  rcases uniformShare_cases hper hw ht with ⟨h0, text, h⟩ | ⟨h0, hdvd, hr⟩
    | ⟨h0, hdvd, share, hs, h⟩
  · exact Or.inl ⟨h0, text, by rw [h]; rfl⟩
  · exact Or.inr (Or.inl ⟨h0, fun hx => hdvd hx.1, hr.bind _⟩)
  · right
    rw [h]
    simp only [bind, Except.bind]
    have hfit : (∃ opts, restatAll e.stats e.label pool.targets
        [atRate e (backendRate e share w)] = .ok opts) ↔ StatsFit e pool.targets :=
      restatAll_single_iff rfl
    cases hre : restatAll e.stats e.label pool.targets [atRate e (backendRate e share w)] with
    | error text =>
      refine Or.inl ⟨h0, ?_, _, rfl⟩
      rintro ⟨-, hx⟩
      obtain ⟨opts, hopts⟩ := hfit.mpr hx
      exact absurd (hre.symm.trans hopts) nofun
    | ok opts =>
      obtain ⟨o, rfl, hrps⟩ := rps_restatAll hre
      exact Or.inr ⟨hdvd, hfit.mp ⟨_, hre⟩, h0, o, rfl, share, hs, hrps⟩

/-- The targets' product with the workers is harmless to the rate of `e`, and its sinks fit. -/
def ProductFits (e : Execution) (addrs : List String) (w : Nat) : Prop :=
  ¬ 2 ^ 32 ∣ addrs.length * w
    ∧ (StatsFit e addrs → ¬ WrapsToDivisor addrs.length w e.rate.toNat)
    ∧ (addrs.length * w ∣ e.rate.toNat → StatsFit e addrs)

theorem distributorRate_of_productFits (hr : 1 ≤ e.rate.toNat)
    (hfits : ProductFits e pool.targets w) : DistributorRate e pool w := by
  obtain ⟨hzero, hwraps, hstats⟩ := hfits
  rw [wrapsToDivisor_iff hr e.rate.toNat_lt] at hwraps
  have hrate := e.rate.toNat_lt
  -- a product that divides the rate is below 2^32
  have hsmall : pool.targets.length * w ∣ e.rate.toNat →
      pool.targets.length * w % 2 ^ 32 = pool.targets.length * w := by
    intro hdvd
    have := Nat.le_of_dvd hr hdvd
    exact Nat.mod_eq_of_lt (by omega)
  rcases forPool_distributor_cases hdist hper hw ht with ⟨h0, -⟩ | ⟨-, hnot, hrefused⟩
    | ⟨hdvd, hfit, -, o, hok, share, hshare, ho⟩
  · exact absurd (Nat.dvd_of_mod_eq_zero h0) hzero
  · refine ⟨hrefused.not_panic, fun _ => iff_of_false ?_ ?_, fun _ addrs opts h => ?_⟩
    · rintro ⟨sent, hsent⟩
      exact hrefused.not_ok sent hsent
    · intro hdvd
      exact hnot ⟨by rw [hsmall hdvd]; exact hdvd, hstats hdvd⟩
    · exact absurd h (hrefused.not_ok _)
  · have hlt : pool.targets.length * w < 2 ^ 32 := by
      by_contra hge
      exact hwraps hfit ⟨by omega, hdvd⟩
    rw [Nat.mod_eq_of_lt hlt] at hdvd hshare
    refine ⟨fun text => by rw [hok]; exact nofun, fun _ => iff_of_true ⟨_, hok⟩ hdvd, ?_⟩
    intro _ addrs opts h
    obtain ⟨-, rfl⟩ := Prod.mk.inj (Except.ok.inj (hok.symm.trans h))
    exact ⟨o, rfl, distributor_total hw ht hdvd hshare ho⟩

theorem productFits_of_distributorRate (hr : 1 ≤ e.rate.toNat) (h : DistributorRate e pool w) :
    ProductFits e pool.targets w := by
  unfold ProductFits
  rw [wrapsToDivisor_iff hr e.rate.toNat_lt]
  have hrate := e.rate.toNat_lt
  have hsucceeds := h.succeeds hper
  rcases forPool_distributor_cases hdist hper hw ht with ⟨-, text, hpanic⟩ | ⟨h0, hnot, hrefused⟩
    | ⟨-, hfit, h0, o, hok, -⟩
  · exact absurd hpanic (h.noPanic text)
  · refine ⟨fun hx => h0 (Nat.mod_eq_zero_of_dvd hx), fun hfit hx => hnot ⟨hx.2, hfit⟩, ?_⟩
    intro hdvd
    obtain ⟨sent, hsent⟩ := hsucceeds.mpr hdvd
    exact absurd hsent (hrefused.not_ok sent)
  · refine ⟨fun hx => h0 (Nat.mod_eq_zero_of_dvd hx), ?_, fun _ => hfit⟩
    rintro - ⟨hge, -⟩
    have := Nat.le_of_dvd hr (hsucceeds.mp ⟨_, hok⟩)
    omega

end Distributor

/-- **A distributor's targets receive the rate** unless their product with the workers wraps. -/
theorem distributorRate_iff {e : Execution} {pool : Pool} {w : Nat}
    (hdist : pool.distributor ≠ "") (hw : workersPerBackend e.scenario = .ok w)
    (ht : 1 ≤ pool.targets.length) (hr : 1 ≤ e.rate.toNat) :
    DistributorRate e pool w ↔ e.perBackend = true ∨ ProductFits e pool.targets w := by
  cases hper : e.perBackend with
  | true =>
    refine iff_of_true ⟨?_, fun h => absurd (hper.symm.trans h) (by simp),
      fun h => absurd (hper.symm.trans h) (by simp)⟩ (Or.inl rfl)
    intro text hpanic
    rw [forPool_distributor hdist] at hpanic
    cases hshare : uniformShare e pool.targets.length with
    | error failure =>
      rw [hshare] at hpanic
      obtain rfl : failure = .panic text := Except.error.inj hpanic
      exact uniformShare_perBackend hper hw ht text hshare
    | ok opts =>
      rw [hshare] at hpanic
      simp only [bind, Except.bind] at hpanic
      cases hre : orFail (restatAll e.stats e.label pool.targets [opts]) with
      | error failure =>
        rw [hre] at hpanic
        obtain rfl : failure = .panic text := Except.error.inj hpanic
        exact orFail_not_panic _ text hre
      | ok shared =>
        rw [hre] at hpanic
        cases hpanic
  | false =>
    rw [or_iff_right (by simp)]
    exact ⟨productFits_of_distributorRate hdist hper hw ht hr,
      distributorRate_of_productFits hdist hper hw ht hr⟩

/-- A plain execution, and a distributor for it. -/
def distributed (concurrency : String) (rate : UInt32) : Execution :=
  { scenario := { concurrency }, label := "load", rate, perBackend := false, duration := 0
    options := {} }

def distributorOf (targets : List String) : Pool :=
  { name := "engines", distributor := "distributor:8443", targets }

/-- 24 over three targets with four workers is 2 for each worker. -/
theorem distributorRate_twentyFour :
    DistributorRate (distributed "4" 24) (distributorOf ["a:1", "b:1", "c:1"]) 4
      ∧ ∃ o, forPool (distributed "4" 24) (distributorOf ["a:1", "b:1", "c:1"])
        = .ok (["a:1", "b:1", "c:1"], [o]) ∧ rps o = 2 := by
  refine ⟨(distributorRate_iff (by decide) rfl (by decide) (by decide)).mpr (Or.inr ⟨?_, ?_, ?_⟩),
    _, rfl, rfl⟩
  · decide
  · rintro - ⟨hge, -⟩
    exact absurd hge (by decide)
  · intro _ st hst
    exact absurd hst (by simp [distributed])

/-- Two targets with 2^31 workers divide by zero; three with 2863311531 divide by one, and each
of them is sent the whole rate for each of its workers. -/
theorem distributor_product_wraps :
    (∃ text, forPool (distributed "2147483648" 10) (distributorOf ["a:1", "b:1"])
        = .error (.panic text))
      ∧ ∃ o, forPool (distributed "2863311531" 10) (distributorOf ["a:1", "b:1", "c:1"])
          = .ok (["a:1", "b:1", "c:1"], [o])
        ∧ rps o = 10 ∧ ¬ 3 * 2863311531 ∣ 10
        ∧ ¬ DistributorRate (distributed "2863311531" 10)
            (distributorOf ["a:1", "b:1", "c:1"]) 2863311531 := by
  refine ⟨⟨_, rfl⟩, _, rfl, rfl, by decide, ?_⟩
  intro h
  have hdvd : 3 * 2863311531 ∣ 10 := (h.succeeds rfl).mp ⟨_, rfl⟩
  exact absurd hdvd (by decide)

end Sortie.Proof
