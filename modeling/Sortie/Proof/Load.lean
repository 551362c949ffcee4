import Mathlib.Algebra.BigOperators.Ring.List
import Mathlib.Data.List.TakeWhile
import Sortie.Engine.Options
import Sortie.Lib.Split
import Sortie.Proof.Compiled
import Sortie.Proof.StatsSinks

/-!
# The load engines generate is the load that was planned

sortie divides an execution's rate by the workers *it* believes a backend runs and
sends the share; the engine multiplies what it receives by the workers *it* runs,
after dividing it again in the streaming modes. The two agree when both sides mean
the same number of workers and the same mode.

sortie reads both off the scenario. The engine reads them off the request, where a
template may have put them: `options` overwrites the concurrency only when the
scenario sets one, and the streaming modes only when the scenario or a raw target
does. `EngineAgrees` says exactly when that makes no difference to the load.
-/

namespace Sortie.Proof

open Proto Api Plan Compile Engine Checks

variable {F : Type} {go : Go F}

/-! ## What the engine makes of a compiled request -/

/-- The concurrency a scenario's requests carry, as the engine reads it. -/
def engineConcurrency (s : Scenario) : String :=
  if s.concurrency = "" then (template s).concurrency.getD "1" else s.concurrency

/-- The engine divides the rate of a scenario's requests over its workers. -/
def engineStreams (s : Scenario) : Bool :=
  compiledGrpcMode s == some .bidiStream || s.websocket.isSome
    || (!isRaw s.target && (template s).websocket.isSome)

/-- A positive number of workers. -/
def numericWorkers (concurrency : String) : Option Nat :=
  match stoi concurrency with
  | .ok n => if 0 < n then some n.toNat else none
  | .error _ => none

/-- The workers an engine runs for a scenario; in a streaming mode `auto` is no number. -/
def engineWorkers (cpus : UInt32) (s : Scenario) : Option Nat :=
  if engineConcurrency s = "auto" then if engineStreams s then none else some cpus.toNat
  else numericWorkers (engineConcurrency s)

/-- The load of a backend with `workers` workers that is sent the rate `r`. -/
def loadAt (streams : Bool) (workers r : Nat) : Nat :=
  if streams then workers * (r / workers) else workers * r

theorem toInt_ok {m n : Int} (h : toInt m = .ok n) : n = m ∧ n < 2 ^ 31 := by
  unfold toInt at h
  split at h
  · rename_i hlt
    rw [← Except.ok.inj h]
    exact ⟨rfl, hlt.2⟩
  · cases h

theorem stoi_lt {text : String} {n : Int} (h : stoi text = .ok n) : n < 2 ^ 31 := by
  unfold stoi at h
  simp only at h
  split at h
  · cases h
  · exact (toInt_ok h).2

theorem toUInt32_pos {n : Int} (hpos : 0 < n) (hlt : n < 2 ^ 31) :
    (toUInt32 n).toNat = n.toNat := by
  unfold toUInt32
  rw [UInt32.toNat_ofNat']
  omega

variable {cpus r : UInt32} {s v : Scenario} {n w w' t : Nat} {e : Execution} {share : Nat → UInt32}
variable {opts : List CommandLineOptions} {streams aggregate : Bool}

/-- **The engine's side**: its load depends on the workers, the mode and the rate it is sent. -/
theorem backendLoad_compiled {o : CommandLineOptions}
    {rate : UInt32} {dur ramp : Span}
    (h : shapeOf o = { compiledShape s rate dur ramp with requestsPerSecond := some r }) :
    backendLoad cpus o =
      (engineWorkers cpus s).map fun w => loadAt (engineStreams s) w r.toNat := by
  have hrps : (OptionsImpl.ofProto o).requestsPerSecond = r := by
    have := congrArg Shape.requestsPerSecond h
    simp only [shapeOf] at this
    simp [OptionsImpl.ofProto, this]
  have hconc : (OptionsImpl.ofProto o).concurrency = engineConcurrency s := by
    have := congrArg Shape.concurrency h
    simp only [shapeOf, compiledShape] at this
    simp only [OptionsImpl.ofProto, this, engineConcurrency]
    split <;> rfl
  have hdiv : (OptionsImpl.ofProto o).dividesRate = engineStreams s := by
    have hmode := congrArg Shape.grpcMode h
    have hws := congrArg Shape.websocket h
    simp only [shapeOf, compiledShape] at hmode hws
    simp only
      [OptionsImpl.dividesRate, OptionsImpl.ofProto, hmode, hws, engineStreams, Bool.or_assoc]
    cases compiledGrpcMode s with
    | none => rfl
    | some m => cases m <;> rfl
  unfold backendLoad OptionsImpl.load checkConcurrency determineConcurrency
    perWorkerRequestsPerSecond engineWorkers loadAt numericWorkers
  simp only [hrps, hconc, hdiv]
  by_cases ha : engineConcurrency s = "auto"
  · have hauto : stoi "auto" = .error .invalidArgument := by decide
    cases engineStreams s <;> simp [ha, hauto, Except.toOption]
  · cases hn : stoi (engineConcurrency s) with
    | error e => cases e <;> simp [ha, Except.toOption]
    | ok n =>
      by_cases hpos : 0 < n
      · have hw := toUInt32_pos hpos (stoi_lt hn)
        have hz : toUInt32 n ≠ 0 := by
          intro h0
          rw [h0] at hw
          have : (0 : UInt32).toNat = 0 := rfl
          omega
        have hneg : ¬ n ≤ 0 := by omega
        cases engineStreams s <;> simp [ha, hpos, hneg, hz, Except.toOption, hw]
      · have hneg : n ≤ 0 := by omega
        simp [ha, hpos, hneg, Except.toOption]

/-! ## The workers the two sides count -/

theorem isCSpace_of_isDigit {c : Char} (h : c.isDigit = true) : isCSpace c = false := by
  have hd : 48 ≤ c.toNat := by
    unfold Char.isDigit at h
    simp only [Bool.and_eq_true, decide_eq_true_eq] at h
    exact UInt32.le_iff_toNat_le.mp h.1
  have hs : c ≠ ' ' := by
    rintro rfl
    exact absurd h (by decide)
  simp only [isCSpace, Bool.or_eq_false_iff, beq_eq_false_iff_ne, Bool.and_eq_false_iff,
    decide_eq_false_iff_not]
  exact ⟨hs, Or.inr (by omega)⟩

theorem signed_of_isDigit {c : Char} {cs : List Char} (h : c.isDigit = true) :
    signed (c :: cs) = (1, c :: cs) := by
  unfold signed
  split
  · rename_i heq
    rw [(List.cons.inj heq).1] at h
    exact absurd h (by decide)
  · rename_i heq
    rw [(List.cons.inj heq).1] at h
    exact absurd h (by decide)
  · rfl

/-- On a text of digits `std::stoi` reads their value, as far as an `int` goes. -/
theorem stoi_digits {text : String} {bits : Nat} (h : Text.parseUint text bits = some n) :
    stoi text = toInt n := by
  unfold Text.parseUint at h
  split at h
  · cases h
  · rename_i hdigits
    split at h
    · cases h
      simp only [Bool.or_eq_true, Bool.not_eq_true', not_or, Bool.not_eq_false,
        List.all_eq_true] at hdigits
      obtain ⟨hne, hall⟩ := hdigits
      unfold stoi
      -- nothing is skipped: the first character is a digit already
      cases htext : text.toList with
      | nil => rw [htext] at hne; exact absurd rfl hne
      | cons c cs =>
        rw [htext] at hall
        have hc := hall c List.mem_cons_self
        have htake : (c :: cs).takeWhile Char.isDigit = c :: cs := by
          rw [List.takeWhile_eq_self_iff]
          exact hall
        rw [List.dropWhile_cons_of_neg (by rw [isCSpace_of_isDigit hc]; simp),
          signed_of_isDigit hc]
        simp only [htake, List.isEmpty_cons, Bool.false_eq_true, if_false, one_mul]
    · cases h

theorem workersPerBackend_ok (h : workersPerBackend s = .ok w) :
    (s.concurrency = "" ∧ w = 1) ∨
      (s.concurrency ≠ "" ∧ s.concurrency ≠ "auto" ∧ 1 ≤ w
        ∧ Text.parseUint s.concurrency 32 = some w) := by
  unfold workersPerBackend at h
  split at h
  · rename_i hempty
    exact Or.inl ⟨hempty, (Except.ok.inj h).symm⟩
  · rename_i hempty
    split at h
    · cases h
    · rename_i hauto
      split at h
      · rename_i n hn
        cases h
        obtain ⟨hp, hpos⟩ := Option.filter_eq_some_iff.mp hn
        exact Or.inr ⟨hempty, hauto, by simpa using hpos, hp⟩
      · cases h

theorem workersPerBackend_bounds (h : workersPerBackend s = .ok w) :
    1 ≤ w ∧ w < 2 ^ 32 := by
  rcases workersPerBackend_ok h with ⟨-, rfl⟩ | ⟨-, -, hpos, hp⟩
  · omega
  · have hlt := Text.parseUint_lt hp
    omega

/-- The two sides can only disagree about workers that the scenario left to the template. -/
theorem workers_agree_or_one (hconc : v.concurrency = s.concurrency)
    (h : workersPerBackend s = .ok w) (h' : engineWorkers cpus v = some w') : w' = w ∨ w = 1 := by
  rcases workersPerBackend_ok h with ⟨-, rfl⟩ | ⟨hempty, hauto, hpos, hp⟩
  · exact Or.inr rfl
  · left
    rw [← hconc] at hempty hauto hp
    unfold engineWorkers engineConcurrency at h'
    rw [if_neg hempty, if_neg hauto] at h'
    unfold numericWorkers at h'
    rw [stoi_digits hp] at h'
    cases hn : toInt w with
    | error e => rw [hn] at h'; exact absurd h' (by simp)
    | ok n =>
      obtain rfl := (toInt_ok hn).1
      rw [hn] at h'
      simp only at h'
      rw [if_pos (by omega)] at h'
      exact (Option.some.inj h').symm

/-! ## What sortie sends -/

/-- How the rate of an execution is divided: the `share` of each worker of a backend. -/
structure Divided (e : Execution) (n w : Nat) (share : Nat → UInt32) : Prop where
  workers : workersPerBackend e.scenario = .ok w
  dvd : w ∣ e.rate.toNat
  le : ∀ i, (share i).toNat ≤ e.rate.toNat / w
  perBackend : e.perBackend = true → ∀ i, (share i).toNat = e.rate.toNat / w
  pos : e.perBackend = false → ∀ i, 0 < (share i).toNat
  pool : e.perBackend = false → n < 2 ^ 32 →
    n ≤ e.rate.toNat / w ∧ ∀ i < n, (share i).toNat = Split.part (e.rate.toNat / w) n i

theorem toNat_ofNat_of_lt (h : n < 2 ^ 32) : (UInt32.ofNat n).toNat = n := by
  rw [UInt32.toNat_ofNat']
  omega

/-- Divisibility as the code tests it. -/
theorem mod_eq_zero_iff {d : UInt32} {m : Nat} (hd : d.toNat = m) : r % d = 0 ↔ m ∣ r.toNat := by
  rw [← UInt32.toNat_inj, UInt32.toNat_mod, hd, Nat.dvd_iff_mod_eq_zero]
  rfl

theorem perBackendShare_ok {each : UInt32} (hw : w < 2 ^ 32)
    (h : perBackendShare e w = .ok each) :
    w ∣ e.rate.toNat ∧ each.toNat = e.rate.toNat / w := by
  unfold perBackendShare at h
  split at h
  · exact absurd h (by simp [executionError])
  · rename_i hmod
    rw [← Except.ok.inj h, UInt32.toNat_div, toNat_ofNat_of_lt hw]
    exact ⟨(mod_eq_zero_iff (toNat_ofNat_of_lt hw)).mp (not_not.mp hmod), rfl⟩

/-- The share of backend `i`, computed on `uint32`s that may have wrapped around. -/
theorem poolShare_ok (hw : w < 2 ^ 32)
    (h : poolShare e w n = .ok share) :
    w ∣ e.rate.toNat ∧ 0 < n % 2 ^ 32 ∧ n % 2 ^ 32 ≤ e.rate.toNat / w
      ∧ ∀ i, (share i).toNat =
        e.rate.toNat / w / (n % 2 ^ 32)
          + if i % 2 ^ 32 < e.rate.toNat / w % (n % 2 ^ 32) then 1 else 0 := by
  unfold poolShare at h
  split at h
  · exact absurd h (by simp [executionError])
  · rename_i hmod
    simp only at h
    split at h
    · exact absurd h (by simp [executionError])
    · rename_i hlt
      split at h
      · exact absurd h (by simp [divideByZero])
      · rename_i hz
        have htotal : (e.rate / UInt32.ofNat w).toNat = e.rate.toNat / w := by
          rw [UInt32.toNat_div, toNat_ofNat_of_lt hw]
        have hn : (UInt32.ofNat n).toNat = n % 2 ^ 32 := UInt32.toNat_ofNat'
        have hpos : 0 < n % 2 ^ 32 := by
          rcases Nat.eq_zero_or_pos (n % 2 ^ 32) with h0 | h0
          · exact absurd (UInt32.toNat.inj (b := 0) (hn.trans h0)) hz
          · exact h0
        have hle : n % 2 ^ 32 ≤ e.rate.toNat / w := by
          rw [UInt32.lt_iff_toNat_lt, htotal, hn] at hlt
          omega
        have hdvd := (mod_eq_zero_iff (toNat_ofNat_of_lt hw)).mp (not_not.mp hmod)
        refine ⟨hdvd, hpos, hle, ?_⟩
        intro i
        rw [← Except.ok.inj h]
        have hbound := (e.rate / UInt32.ofNat w).toNat_lt
        rw [htotal] at hbound
        have hi : (UInt32.ofNat i).toNat = i % 2 ^ 32 := UInt32.toNat_ofNat'
        have hcond : UInt32.ofNat i < e.rate / UInt32.ofNat w % UInt32.ofNat n ↔
            i % 2 ^ 32 < e.rate.toNat / w % (n % 2 ^ 32) := by
          rw [UInt32.lt_iff_toNat_lt, UInt32.toNat_mod, htotal, hn, hi]
        have hbase : (e.rate / UInt32.ofNat w / UInt32.ofNat n).toNat
            = e.rate.toNat / w / (n % 2 ^ 32) := by
          rw [UInt32.toNat_div, htotal, hn]
        simp only [hcond]
        split
        · rename_i hrem
          -- a remainder leaves room for one more
          have hmul := Nat.div_add_mod (e.rate.toNat / w) (n % 2 ^ 32)
          have hbase_le : e.rate.toNat / w / (n % 2 ^ 32)
              ≤ n % 2 ^ 32 * (e.rate.toNat / w / (n % 2 ^ 32)) := Nat.le_mul_of_pos_left _ hpos
          rw [UInt32.toNat_add, hbase, Nat.mod_eq_of_lt]
          · rfl
          · have : (1 : UInt32).toNat = 1 := rfl
            omega
        · rw [hbase, Nat.add_zero]

theorem share_le {total m : Nat} (hm : 0 < m) (i : Nat) :
    (total / m + if i < total % m then 1 else 0) ≤ total := by
  have hmul := Nat.div_add_mod total m
  have := Nat.le_mul_of_pos_left (total / m) hm
  split <;> omega

theorem shareOf_ok (hworkers : workersPerBackend e.scenario = .ok w)
    (hshare : shareOf e w n = .ok share) : Divided e n w share := by
  have hlt := (workersPerBackend_bounds hworkers).2
  unfold shareOf at hshare
  cases hper : e.perBackend with
  | true =>
    rw [if_pos hper] at hshare
    obtain ⟨each, heach, hs⟩ := map_ok_iff.mp hshare
    obtain ⟨hdvd, heq⟩ := perBackendShare_ok hlt heach
    have hshare_eq : ∀ i, (share i).toNat = e.rate.toNat / w := by
      intro i
      rw [← hs]
      exact heq
    exact ⟨hworkers, hdvd, fun i => (hshare_eq i).le, fun _ => hshare_eq,
      fun h0 => absurd (hper.symm.trans h0) (by simp),
      fun h0 => absurd (hper.symm.trans h0) (by simp)⟩
  | false =>
    rw [if_neg (by rw [hper]; simp)] at hshare
    obtain ⟨hdvd, hpos, hle, heq⟩ := poolShare_ok hlt hshare
    refine ⟨hworkers, hdvd, ?_, fun h0 => absurd (hper.symm.trans h0) (by simp), ?_, ?_⟩
    · intro i
      rw [heq]
      exact share_le hpos _
    · intro _ i
      have := Nat.div_pos hle hpos
      rw [heq]
      omega
    · intro _ hn
      rw [Nat.mod_eq_of_lt hn] at hle heq
      refine ⟨hle, ?_⟩
      intro i hi
      rw [heq, Nat.mod_eq_of_lt (Nat.lt_trans hi hn)]
      rfl

theorem workersOf_ok_iff : workersOf e = .ok w ↔ workersPerBackend e.scenario = .ok w := by
  unfold workersOf
  split
  · rename_i hn
    rw [hn, Except.ok.injEq, Except.ok.injEq]
  · rename_i hn
    rw [hn]
    exact ⟨nofun, nofun⟩

/-- **sortie's side**: every worker of a backend gets a share, and the shares are the rate. -/
theorem divide_ok (h : divide e n = .ok opts) :
    ∃ w share, Divided e n w share ∧ shareOf e w n = .ok share
      ∧ opts = (List.range n).map fun i => backendOptions e n (backendRate e (share i) w) i := by
  unfold divide at h
  split at h
  · exact absurd h (by simp [executionError])
  · obtain ⟨w, hw, h⟩ := bind_ok_iff.mp h
    obtain ⟨share, hshare, h⟩ := bind_ok_iff.mp h
    exact ⟨w, share, shareOf_ok (workersOf_ok_iff.mp hw) hshare, hshare, (Except.ok.inj h).symm⟩

/-- The rate a backend is sent: of all its workers when they share it, else of each. -/
def sentRate (aggregate : Bool) (w share : Nat) : Nat := if aggregate then share * w else share

theorem Divided.mul_le (hd : Divided e n w share) (i : Nat) :
    (share i).toNat * w ≤ e.rate.toNat :=
  Nat.le_trans (Nat.mul_le_mul_right w (hd.le i)) (Nat.div_mul_le_self _ _)

theorem backendRate_toNat (hd : Divided e n w share) (i : Nat) :
    (backendRate e (share i) w).toNat
      = sentRate (aggregateRate e.scenario) w (share i).toNat := by
  unfold backendRate sentRate
  split
  · have hle := hd.mul_le i
    have hlt := e.rate.toNat_lt
    rw [UInt32.toNat_mul, toNat_ofNat_of_lt (workersPerBackend_bounds hd.workers).2,
      Nat.mod_eq_of_lt (by omega)]
  · rfl

/-! ## The sinks of an execution do not change its load -/

theorem shapeOf_restatAll {stats : Option Stats} {label : String} {addrs : List String}
    {opts' : List CommandLineOptions} (h : restatAll stats label addrs opts = .ok opts') :
    opts'.map shapeOf = opts.map shapeOf := by
  have hsinks := restatAll_sinks h
  clear h
  induction hsinks with
  | nil => rfl
  | cons ho _ ih =>
    rw [List.map_cons, List.map_cons, ih, ho]
    rfl

theorem forPool_services {pool : Pool} {addrs : List String}
    (hdist : pool.distributor = "") (hserv : pool.services ≠ [])
    (h : forPool e pool = .ok (addrs, opts)) :
    ∃ divided, divide e pool.services.length = .ok divided
      ∧ opts.map shapeOf = divided.map shapeOf := by
  unfold forPool at h
  rw [if_neg (not_not.mpr hdist), if_neg (by simp [unresolved, hserv])] at h
  obtain ⟨divided, hdiv, h⟩ := bind_ok_iff.mp h
  obtain ⟨opts', hopts, h⟩ := bind_ok_iff.mp h
  obtain ⟨-, rfl⟩ := Prod.mk.inj (Except.ok.inj h)
  refine ⟨divided, hdiv, ?_⟩
  exact shapeOf_restatAll (mapError_ok_iff.mp hopts)

/-! ## The load of the backends -/

/-- Every backend generates some load, and all of them together what was planned. -/
def MakeUp (e : Execution) (generated : List (Option Nat)) : Prop :=
  ∃ loads : List Nat, generated = loads.map some
    ∧ if e.perBackend then ∀ l ∈ loads, l = e.rate.toNat else loads.sum = e.rate.toNat

/-- The engines together generate what was planned; backend `i` has `cpus i` processors. -/
def GeneratesPlan (cpus : Nat → UInt32) (e : Execution) (opts : List CommandLineOptions) : Prop :=
  MakeUp e (opts.mapIdx fun i o => backendLoad (cpus i) o)

theorem exists_values_iff {L : Nat → Option Nat} {P : List Nat → Prop} :
    (∃ values, (List.range n).map L = values.map some ∧ P values) ↔
      ∃ f : Nat → Nat, (∀ i < n, L i = some (f i)) ∧ P ((List.range n).map f) := by
  constructor
  · rintro ⟨values, hL, hP⟩
    have hvalues : values = (List.range n).map fun i => (L i).getD 0 := by
      have := congrArg (List.map fun x : Option Nat => x.getD 0) hL
      simpa [Function.comp_def] using this.symm
    refine ⟨fun i => (L i).getD 0, ?_, by rw [← hvalues]; exact hP⟩
    intro i hi
    have hmem : L i ∈ (List.range n).map L := List.mem_map_of_mem (List.mem_range.mpr hi)
    rw [hL] at hmem
    obtain ⟨x, -, hx⟩ := List.mem_map.mp hmem
    show L i = some ((L i).getD 0)
    rw [← hx]
    rfl
  · rintro ⟨f, hf, hP⟩
    refine ⟨_, ?_, hP⟩
    rw [List.map_map]
    exact List.map_congr_left fun i hi => hf i (List.mem_range.mp hi)

/-- What backend `i` generates when its engine is sent the share of its workers. -/
def generated (cpus : Nat → UInt32) (e : Execution) (v : Scenario) (w : Nat)
    (share : Nat → UInt32) (i : Nat) : Option Nat :=
  (engineWorkers (cpus i) v).map fun w' =>
    loadAt (engineStreams v) w' (sentRate (aggregateRate e.scenario) w (share i).toNat)

theorem backendLoad_divided {cpus : Nat → UInt32} {rate : UInt32} {dur ramp : Span}
    (hd : Divided e n w share)
    (hshape : shapeOf e.options = compiledShape v rate dur ramp)
    (hopts : opts.map shapeOf = ((List.range n).map fun i =>
      backendOptions e n (backendRate e (share i) w) i).map shapeOf) :
    opts.mapIdx (fun i o => backendLoad (cpus i) o)
      = (List.range n).map (generated cpus e v w share) := by
  have hlen : opts.length = n := by
    have := congrArg List.length hopts
    simpa using this
  apply List.ext_getElem (by simp [hlen])
  intro i hi _
  have hi' : i < opts.length := by simpa using hi
  have hget : shapeOf opts[i]
      = { compiledShape v rate dur ramp with
          requestsPerSecond := some (backendRate e (share i) w) } := by
    have hi2 : i < (opts.map shapeOf).length := by simpa using hi'
    have : (opts.map shapeOf)[i] = shapeOf opts[i] := List.getElem_map _
    rw [← this, List.getElem_of_eq hopts, ← hshape]
    simp only [List.getElem_map, List.getElem_range]
    rfl
  rw [List.getElem_mapIdx, backendLoad_compiled hget, List.getElem_map, List.getElem_range,
    generated, backendRate_toNat hd]

/-! ## One backend -/

theorem engineWorkers_pos (hcpus : 0 < cpus.toNat)
    (h : engineWorkers cpus s = some w) : 0 < w := by
  unfold engineWorkers numericWorkers at h
  split at h
  · split at h
    · cases h
    · rw [← Option.some.inj h]; exact hcpus
  · split at h
    · split at h
      · rename_i hpos
        rw [← Option.some.inj h]
        omega
      · cases h
    · cases h

/-- When the workers of a backend generate their shares of the plan. -/
theorem loadAt_eq_iff (hw : 0 < w)
    (hworkers : w' = w ∨ w = 1) (hmode : aggregate = true → streams = true) :
    loadAt streams w' (sentRate aggregate w t) = w * t ↔
      if streams then (aggregate = true ∨ w = 1 ∨ t = 0) ∧ (w' = w ∨ w' ∣ t)
      else w' = w ∨ t = 0 := by
  unfold loadAt sentRate
  cases streams with
  | false =>
    cases aggregate with
    | true => exact absurd (hmode rfl) (by simp)
    | false =>
      simp only [Bool.false_eq_true, if_false]
      rcases Nat.eq_zero_or_pos t with rfl | ht
      · exact iff_of_true (by rw [Nat.mul_zero, Nat.mul_zero]) (Or.inr rfl)
      · rw [Nat.mul_left_inj (by omega)]
        exact ⟨Or.inl, fun h => h.elim id fun h0 => absurd h0 (by omega)⟩
  | true =>
    simp only [if_true]
    cases aggregate with
    | true =>
      simp only [if_true, true_or, true_and]
      rw [Nat.mul_comm w t, Nat.mul_div_eq_iff_dvd]
      rcases hworkers with rfl | rfl
      · exact iff_of_true (Nat.dvd_mul_left _ _) (Or.inl rfl)
      · rw [Nat.mul_one]
        exact ⟨Or.inr, fun h => h.elim (fun h1 => h1 ▸ one_dvd t) id⟩
    | false =>
      simp only [Bool.false_eq_true, if_false, false_or]
      rcases hworkers with rfl | rfl
      · -- the same workers twice: the share is cut down to whole multiples of them
        rw [Nat.mul_right_inj (by omega)]
        constructor
        · intro h
          refine ⟨?_, Or.inl rfl⟩
          rcases Nat.lt_or_ge 1 w' with h1 | h1
          · right
            by_contra h0
            exact absurd h (Nat.ne_of_lt (Nat.div_lt_self (Nat.pos_of_ne_zero h0) h1))
          · left; omega
        · rintro ⟨rfl | rfl, -⟩
          · exact Nat.div_one t
          · exact Nat.zero_div w'
      · rw [Nat.one_mul, Nat.mul_div_eq_iff_dvd]
        exact ⟨fun h => ⟨Or.inl rfl, Or.inr h⟩,
          fun h => h.2.elim (fun h1 => h1 ▸ one_dvd t) id⟩

/-- A mode that divides again can only lose load. -/
theorem loadAt_streams_le (hw : 0 < w) :
    loadAt true w' (sentRate aggregate w t) ≤ w * t := by
  unfold loadAt sentRate
  refine Nat.le_trans (Nat.mul_div_le _ _) ?_
  split
  · rw [Nat.mul_comm]
  · exact Nat.le_mul_of_pos_left t hw

/-! ## All backends -/

/-- The terms of two sums lie on one side of each other, so equal sums have equal terms. -/
theorem sum_loads_eq_iff {t f w' : Nat → Nat} (hw : 0 < w)
    (hworkers : ∀ i < n, w ≤ w' i) (hmode : aggregate = true → streams = true)
    (hf : ∀ i < n, f i = loadAt streams (w' i) (sentRate aggregate w (t i))) :
    ((List.range n).map f).sum = ((List.range n).map fun i => w * t i).sum ↔
      ∀ i < n, f i = w * t i := by
  cases streams with
  | true =>
    rw [Split.sum_map_eq_iff_of_le]
    · simp only [List.mem_range]
    · intro i hi
      rw [hf i (List.mem_range.mp hi)]
      exact loadAt_streams_le hw
  | false =>
    rw [eq_comm, Split.sum_map_eq_iff_of_le]
    · simp only [List.mem_range, eq_comm]
    · intro i hi
      have hi := List.mem_range.mp hi
      rw [hf i hi]
      cases aggregate with
      | true => exact absurd (hmode rfl) (by simp)
      | false => exact Nat.mul_le_mul_right (t i) (hworkers i hi)

section Agreement

variable {cpus : Nat → UInt32} {e : Execution} {v : Scenario} {n w : Nat} {share : Nat → UInt32}
  {opts : List CommandLineOptions}

/-- What the two sides of one execution have in common. -/
structure Shared (cpus : Nat → UInt32) (e : Execution) (v : Scenario) : Prop where
  processors : ∀ i, 0 < (cpus i).toNat
  concurrency : v.concurrency = e.scenario.concurrency
  /-- a scenario that sends a backend's whole rate compiles to a mode that divides it -/
  mode : aggregateRate e.scenario = true → engineStreams v = true

theorem Shared.workers_le (hs : Shared cpus e v) (hd : Divided e n w share) {i : Nat}
    (h : engineWorkers (cpus i) v = some w') : w ≤ w' := by
  have hpos := engineWorkers_pos (hs.processors i) h
  rcases workers_agree_or_one hs.concurrency hd.workers h with rfl | rfl
  · exact Nat.le_refl _
  · exact hpos

/-- Every backend generates what its workers' shares come to. -/
def EachAgrees (cpus : Nat → UInt32) (e : Execution) (v : Scenario) (n w : Nat)
    (share : Nat → UInt32) : Prop :=
  ∀ i < n, generated cpus e v w share i = some (w * (share i).toNat)

theorem generatesPlan_iff_eachAgrees (hs : Shared cpus e v) (hd : Divided e n w share)
    (hfits : n < 2 ^ 32 ∨ e.perBackend = true) (hn : 0 < n)
    (hloads : opts.mapIdx (fun i o => backendLoad (cpus i) o)
      = (List.range n).map (generated cpus e v w share)) :
    GeneratesPlan cpus e opts ↔ EachAgrees cpus e v n w share := by
  have hw := (workersPerBackend_bounds hd.workers).1
  have hrate : w * (e.rate.toNat / w) = e.rate.toNat := Nat.mul_div_cancel' hd.dvd
  unfold GeneratesPlan MakeUp
  rw [hloads, exists_values_iff]
  -- the planned total is the shares', for each backend or summed up
  have hsums : ∀ f : Nat → Nat, (∀ i < n, generated cpus e v w share i = some (f i)) →
      ((if e.perBackend = true then ∀ l ∈ (List.range n).map f, l = e.rate.toNat
        else ((List.range n).map f).sum = e.rate.toNat) ↔ ∀ i < n, f i = w * (share i).toNat) := by
    intro f hf
    cases hper : e.perBackend with
    | true =>
      rw [if_pos rfl]
      simp only [List.forall_mem_map, List.mem_range, hd.perBackend hper, hrate]
    | false =>
      rw [if_neg (by simp)]
      rcases hfits with hlt | h0
      · have hshares := (hd.pool hper hlt).2
        have htotal : ((List.range n).map fun i => w * (share i).toNat).sum = e.rate.toNat := by
          have hcongr : ((List.range n).map fun i => w * (share i).toNat)
              = (List.range n).map fun i => w * Split.part (e.rate.toNat / w) n i :=
            List.map_congr_left fun i hi => by rw [hshares i (List.mem_range.mp hi)]
          rw [hcongr, List.sum_map_mul_left, Split.sum_part hn, hrate]
        rw [← htotal]
        simp only [generated, Option.map_eq_some_iff] at hf
        choose! w' hw' hload using hf
        exact sum_loads_eq_iff hw (fun i hi => hs.workers_le hd (hw' i hi)) hs.mode
          fun i hi => (hload i hi).symm
      · exact nomatch hper.symm.trans h0
  constructor
  · rintro ⟨f, hf, hplan⟩ i hi
    rw [hf i hi, (hsums f hf).mp hplan i hi]
  · exact fun heach => ⟨_, heach, (hsums _ heach).mpr fun _ _ => rfl⟩

theorem share_eq_zero_iff (hd : Divided e n w share) (i : Nat) :
    (share i).toNat = 0 ↔ e.rate = 0 := by
  have hrate : w * (e.rate.toNat / w) = e.rate.toNat := Nat.mul_div_cancel' hd.dvd
  have hzero : e.rate = 0 ↔ e.rate.toNat / w = 0 := by
    constructor
    · rintro h
      rw [h]
      exact Nat.zero_div w
    · intro h
      rw [h, Nat.mul_zero] at hrate
      exact UInt32.toNat.inj (b := 0) hrate.symm
  rw [hzero]
  cases hper : e.perBackend with
  | true => rw [hd.perBackend hper]
  | false =>
    have hpos := hd.pos hper i
    have hle := hd.le i
    omega

theorem generated_eq_iff (hs : Shared cpus e v) (hd : Divided e n w share) (i : Nat) :
    generated cpus e v w share i = some (w * (share i).toNat) ↔
      ∃ w', engineWorkers (cpus i) v = some w' ∧
        if engineStreams v then (aggregateRate e.scenario = true ∨ w = 1 ∨ e.rate = 0)
          ∧ (w' = w ∨ w' ∣ (share i).toNat)
        else w' = w ∨ e.rate = 0 := by
  unfold generated
  rw [Option.map_eq_some_iff]
  refine exists_congr fun w' => and_congr_right fun hw' => ?_
  rw [loadAt_eq_iff (workersPerBackend_bounds hd.workers).1
    (workers_agree_or_one hs.concurrency hd.workers hw') hs.mode, share_eq_zero_iff hd]

/-- Workers the template chose must divide every share, and so the whole rate. -/
theorem dvd_shares_iff (hd : Divided e n w share) (hfits : n < 2 ^ 32 ∨ e.perBackend = true)
    (hn : 0 < n) (hworkers : w' = w ∨ w = 1) :
    (∀ i < n, w' = w ∨ w' ∣ (share i).toNat) ↔
      w' = w ∨ (if e.perBackend then 1 else n) * w' ∣ e.rate.toNat := by
  rcases hworkers with rfl | rfl
  · exact iff_of_true (fun _ _ => Or.inl rfl) (Or.inl rfl)
  · cases hper : e.perBackend with
    | true =>
      have hshare : ∀ i, (share i).toNat = e.rate.toNat := by
        intro i
        rw [hd.perBackend hper, Nat.div_one]
      rw [if_pos rfl, Nat.one_mul]
      simp only [hshare]
      exact ⟨fun h => h 0 hn, fun h _ _ => h⟩
    | false =>
      rw [if_neg (by simp)]
      rcases hfits with hlt | h0
      · have hshare := (hd.pool hper hlt).2
        rw [Nat.div_one] at hshare
        have hdvd := @Split.dvd_parts_iff e.rate.toNat n w' hn
        constructor
        · intro h
          apply hdvd.mp
          intro i hi
          rw [← hshare i hi]
          exact (h i hi).elim (fun h1 => h1 ▸ one_dvd _) id
        · intro h i hi
          right
          rw [hshare i hi]
          exact hdvd.mpr h i hi
      · exact nomatch hper.symm.trans h0

end Agreement

/--
The engines run the workers and the mode sortie divided the rate by, or the
difference does not show: in a streaming mode the workers the template chose may
divide what every backend receives.
-/
def EngineAgrees (cpus : Nat → UInt32) (e : Execution) (n : Nat) : Prop :=
  ∃ w, workersPerBackend e.scenario = .ok w ∧ ∀ i < n,
    ∃ w', engineWorkers (cpus i) (executedAs e.scenario e.target) = some w' ∧
      if engineStreams (executedAs e.scenario e.target) then
        (aggregateRate e.scenario = true ∨ w = 1 ∨ e.rate = 0)
          ∧ (w' = w ∨ (if e.perBackend then 1 else n) * w' ∣ e.rate.toNat)
      else w' = w ∨ e.rate = 0

/-- In a streaming mode the number of workers does not depend on the machine. -/
theorem engineWorkers_streams (h : engineStreams s = true) (c c' : UInt32) :
    engineWorkers c s = engineWorkers c' s := by
  unfold engineWorkers
  rw [if_pos h, if_pos h]

section

variable {cpus : Nat → UInt32} (hs : Shared cpus e (executedAs e.scenario e.target))
  (hd : Divided e n w share)
include hs hd

theorem eachAgrees_iff_engineAgrees (hfits : n < 2 ^ 32 ∨ e.perBackend = true) (hn : 0 < n) :
    EachAgrees cpus e (executedAs e.scenario e.target) n w share ↔ EngineAgrees cpus e n := by
  unfold EachAgrees EngineAgrees
  simp only [generated_eq_iff hs hd, hd.workers, Except.ok.injEq, exists_eq_left']
  cases hst : engineStreams (executedAs e.scenario e.target) with
  | false => simp only [Bool.false_eq_true, if_false]
  | true =>
    simp only [if_true]
    constructor
    · intro h i hi
      obtain ⟨w', hw', hmode, -⟩ := h i hi
      have hagree := workers_agree_or_one hs.concurrency hd.workers hw'
      refine ⟨w', hw', hmode, (dvd_shares_iff hd hfits hn hagree).mp fun j hj => ?_⟩
      obtain ⟨w'', hw'', -, hdvd⟩ := h j hj
      rw [engineWorkers_streams hst (cpus j) (cpus i)] at hw''
      obtain rfl := Option.some.inj (hw''.symm.trans hw')
      exact hdvd
    · intro h i hi
      obtain ⟨w', hw', hmode, hdvd⟩ := h i hi
      have hagree := workers_agree_or_one hs.concurrency hd.workers hw'
      exact ⟨w', hw', hmode, (dvd_shares_iff hd hfits hn hagree).mpr hdvd i hi⟩

/-- The number of backends is a `uint32`, or nothing is divided by it. -/
def BackendsFit (e : Execution) (n : Nat) : Prop := n < 2 ^ 32 ∨ e.perBackend = true

/-- Past that number even the share of one request per second is too much. -/
theorem not_generatesPlan_of_not_fits (hfits : ¬ BackendsFit e n) (hagrees : EngineAgrees cpus e n)
    (hloads : opts.mapIdx (fun i o => backendLoad (cpus i) o)
      = (List.range n).map (generated cpus e (executedAs e.scenario e.target) w share)) :
    ¬ GeneratesPlan cpus e opts := by
  obtain ⟨hbig, hper⟩ : 2 ^ 32 ≤ n ∧ e.perBackend = false := by
    unfold BackendsFit at hfits
    simpa using hfits
  have hw := (workersPerBackend_bounds hd.workers).1
  have hlt := e.rate.toNat_lt
  have hrate : e.rate ≠ 0 := by
    intro h0
    have := hd.pos hper 0
    have := (share_eq_zero_iff hd 0).mpr h0
    omega
  have hrate' : e.rate.toNat ≠ 0 := fun h0 => hrate (UInt32.toNat.inj (b := 0) h0)
  -- the workers are the same: there is no multiple of so many backends below the rate
  have hterm : EachAgrees cpus e (executedAs e.scenario e.target) n w share := by
    intro i hi
    obtain ⟨w₁, hw₁, hall⟩ := hagrees
    obtain rfl := Except.ok.inj (hd.workers.symm.trans hw₁)
    obtain ⟨w', hw', hmode⟩ := hall i hi
    have hpos := engineWorkers_pos (hs.processors i) hw'
    rw [generated_eq_iff hs hd]
    refine ⟨w', hw', ?_⟩
    simp only [hper, Bool.false_eq_true, if_false] at hmode
    split at hmode
    · rename_i hst
      rw [if_pos hst]
      refine ⟨hmode.1, Or.inl (hmode.2.resolve_right ?_)⟩
      intro hdvd
      have := Nat.le_of_dvd (Nat.pos_of_ne_zero hrate') hdvd
      have := Nat.le_mul_of_pos_right n hpos
      omega
    · rename_i hst
      rw [if_neg hst]
      exact hmode
  unfold GeneratesPlan MakeUp
  rw [hloads, exists_values_iff]
  rintro ⟨f, hf, hsum⟩
  rw [if_neg (by rw [hper]; simp)] at hsum
  have hge : ∀ x ∈ (List.range n).map f, 1 ≤ x := by
    intro x hx
    obtain ⟨i, hi, rfl⟩ := List.mem_map.mp hx
    have hi := List.mem_range.mp hi
    rw [Option.some.inj ((hf i hi).symm.trans (hterm i hi))]
    exact Nat.mul_pos hw (hd.pos hper i)
  have hlen := List.length_le_sum_of_one_le _ hge
  rw [List.length_map, List.length_range, hsum] at hlen
  omega

end

/-- A scenario that sends a backend its whole rate compiles to a mode that divides it. -/
theorem aggregate_streams {p p' : Plan} (hparse : parse go p = .ok p')
    (hs : s ∈ p'.scenarios) (hv : v ∈ variants s) (hgrpc : v.grpc = s.grpc)
    (hws : v.websocket = s.websocket) (h : aggregateRate s = true) : engineStreams v = true := by
  unfold aggregateRate at h
  rw [← hgrpc, ← hws] at h
  cases hraw : isRaw v.target with
  | true =>
    obtain ⟨hg, hw⟩ := parse_raw_excludes_streams hparse hs hv hraw
    rw [hg, hw] at h
    cases h
  | false =>
    unfold engineStreams compiledGrpcMode
    cases hw : v.websocket with
    | some w => simp
    | none =>
      rw [hw] at h
      cases hg : v.grpc with
      | none => rw [hg] at h; exact absurd h (by simp)
      | some g =>
        rw [hg] at h
        simp only [Option.any_some, Option.isSome_none, Bool.or_false, beq_iff_eq] at h
        simp [hraw, h]

theorem executedAs_keeps (s : Scenario) (t : Option Target) :
    (executedAs s t).concurrency = s.concurrency ∧ (executedAs s t).grpc = s.grpc
      ∧ (executedAs s t).websocket = s.websocket := by
  cases t with
  | none => exact ⟨rfl, rfl, rfl⟩
  | some t => exact ⟨rfl, rfl, rfl⟩

/--
**The load that engines generate.** The two sides agree when the template leaves the
workers and the mode alone, and for fewer than 2^32 backends only when the workers and
the mode it chose make no difference.
-/
theorem generatesPlan_iff_engineAgrees {p p' : Plan} {s : Scenario} {execs : List Execution}
    {e : Execution} {pool : Pool} {addrs : List String} {opts : List CommandLineOptions}
    {cpus : Nat → UInt32} (hcpus : ∀ i, 0 < (cpus i).toNat) (hparse : parse go p = .ok p')
    (hs : s ∈ p'.scenarios) (hexpand : expand go s = .ok execs) (he : e ∈ execs)
    (hdist : pool.distributor = "") (hserv : pool.services ≠ [])
    (hpool : forPool e pool = .ok (addrs, opts)) :
    (BackendsFit e pool.services.length →
      (GeneratesPlan cpus e opts ↔ EngineAgrees cpus e pool.services.length))
      ∧ (EngineAgrees cpus e pool.services.length →
        (GeneratesPlan cpus e opts ↔ BackendsFit e pool.services.length)) := by
  have hcomp := expand_compiled hexpand he
  obtain ⟨ex, pl, -, -, hcarries⟩ := hcomp.carries
  have hshape := options_shape hcarries.options
  obtain ⟨hconc, hgrpc, hws⟩ := executedAs_keeps s e.target
  have hshared : Shared cpus e (executedAs e.scenario e.target) := by
    rw [hcomp.scenario]
    refine ⟨hcpus, ?_, ?_⟩
    · rw [hcomp.scenario]; exact hconc
    · rw [hcomp.scenario]
      exact aggregate_streams hparse hs hcomp.variant hgrpc hws
  obtain ⟨divided, hdiv, hshapes⟩ := forPool_services hdist hserv hpool
  obtain ⟨w, share, hd, -, rfl⟩ := divide_ok hdiv
  have hn : 0 < pool.services.length := List.length_pos_iff.mpr hserv
  rw [← hcomp.scenario] at hshape
  have hloads : opts.mapIdx (fun i o => backendLoad (cpus i) o) = _ :=
    backendLoad_divided hd hshape hshapes
  have hiff : BackendsFit e pool.services.length →
      (GeneratesPlan cpus e opts ↔ EngineAgrees cpus e pool.services.length) := by
    intro hfits
    rw [generatesPlan_iff_eachAgrees hshared hd hfits hn hloads,
      eachAgrees_iff_engineAgrees hshared hd hfits hn]
  refine ⟨hiff, ?_⟩
  intro hagrees
  constructor
  · intro hplan
    by_contra hfits
    exact not_generatesPlan_of_not_fits hshared hd hfits hagrees hloads hplan
  · exact fun hfits => (hiff hfits).mpr hagrees

/-- Ten requests per second for ten seconds, over a template. -/
def tenPerSecond (template : CommandLineOptions) : Scenario :=
  { scenarioOf { type := constantRate, rate := 10, duration := some (.ofMillis 10000) } with
    nighthawkTemplate := some template }

def oneEngine : Pool := { name := "engines", services := ["engine:8443"] }

/-- A template that leaves the workers alone: ten planned, ten generated. -/
theorem generatesPlan_tenPerSecond : ∃ e opts,
    expand Go.bare (tenPerSecond {}) = .ok [e]
      ∧ forPool e oneEngine = .ok (["engine:8443"], opts) ∧ GeneratesPlan (fun _ => 8) e opts := by
  have hparse : parse Go.bare (planOf (tenPerSecond {})) = .ok (planOf (tenPerSecond {})) := rfl
  obtain ⟨e, opts, hexpand, hpool, hagrees⟩ : ∃ e opts,
      expand Go.bare (tenPerSecond {}) = .ok [e]
        ∧ forPool e oneEngine = .ok (["engine:8443"], opts)
        ∧ EngineAgrees (fun _ => 8) e oneEngine.services.length :=
    ⟨_, _, rfl, rfl, 1, rfl, fun i _ => ⟨1, rfl, Or.inl rfl⟩⟩
  have hcpus : ∀ i : Nat, 0 < ((fun _ => 8 : Nat → UInt32) i).toNat :=
    fun _ => (by decide : 0 < (8 : UInt32).toNat)
  have hload := generatesPlan_iff_engineAgrees hcpus hparse
    (List.mem_singleton.mpr rfl) hexpand (List.mem_singleton.mpr rfl) rfl (by decide) hpool
  exact ⟨e, opts, hexpand, hpool, (hload.1 (Or.inl (by decide))).mpr hagrees⟩

/-- A template that sets two workers: ten planned, twenty generated. -/
theorem generatesPlan_doubled_by_template : ∃ e opts,
    parse Go.bare (planOf (tenPerSecond { concurrency := some "2" }))
        = .ok (planOf (tenPerSecond { concurrency := some "2" }))
      ∧ expand Go.bare (tenPerSecond { concurrency := some "2" }) = .ok [e]
      ∧ forPool e oneEngine = .ok (["engine:8443"], opts)
      ∧ e.rate = 10 ∧ opts.map (backendLoad 8) = [some 20]
      ∧ ¬ GeneratesPlan (fun _ => 8) e opts := by
  refine ⟨_, _, rfl, rfl, rfl, rfl, rfl, ?_⟩
  rintro ⟨loads, hloads, hsum⟩
  change [some 20] = loads.map some at hloads
  cases loads with
  | nil => exact absurd hloads (by simp)
  | cons l ls =>
    simp only [List.map_cons, List.cons.injEq, Option.some.injEq, List.nil_eq, List.map_eq_nil_iff]
      at hloads
    obtain ⟨rfl, rfl⟩ := hloads
    exact absurd hsum (by decide)

end Sortie.Proof
