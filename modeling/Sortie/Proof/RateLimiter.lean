import Sortie.Engine.RateLimiter

/-!
# How long a limiter says to wait

`timeUntilNextRelease` promises that nothing is released sooner. For the two
limiters at the core this is an inversion: the schedule counts the acquisitions
that are due by some time, and the answer is the first time at which the schedule
has counted one more. Both limiters are handled by one argument about a schedule
and its inverse; what is particular to each is the arithmetic that inverts it,
which for the ramp has to get across the end of the ramp.
-/

namespace Sortie.Engine

open Rounding

/-! ## A schedule and its inverse -/

/-- A schedule starts at nothing and never takes anything back. -/
structure IsSchedule (total : Int → Int) : Prop where
  start : total 0 = 0
  mono : ∀ {e e' : Int}, 0 ≤ e → e ≤ e' → total e ≤ total e'

/-- `dueNs a` is the first time by which the schedule has more than `a` acquisitions. -/
def Inverts (total dueNs : Int → Int) : Prop :=
  ∀ a e : Int, 0 ≤ e → (a < total e ↔ dueNs a ≤ e)

namespace BaseState

/-- What a limiter has counted stays within its schedule. -/
structure OnSchedule (total : Int → Int) (t : Int) (s : BaseState) : Prop where
  nonneg : 0 ≤ s.acquireableCount
  unstarted : s.startTime = none → s.acquireableCount + s.acquiredCount ≤ 0
  begun : ∀ {start}, s.startTime = some start → start ≤ t
  reached : ∀ {start}, s.startTime = some start →
    s.acquireableCount + s.acquiredCount ≤ total (t - start)

/-- A count that never goes below zero is positive when it is not zero, so the two limiters make
the same first test. -/
def tryAcquire (total : Int → Int) (now : Int) (s : BaseState) : Bool × BaseState :=
  if s.acquireableCount ≠ 0 then (true, s.take) else s.recount total now

variable {total dueNs : Int → Int} {t t' : Int} {s : BaseState}

theorem recount_fst (total : Int → Int) (now : Int) (s : BaseState) :
    (s.recount total now).1 = decide (s.acquiredCount < total (s.elapsed now).1) := by
  unfold recount elapsed
  cases s.startTime with
  | none =>
    dsimp only
    split <;> simp_all
  | some start =>
    dsimp only
    split <;> simp_all

theorem onSchedule_initial (t : Int) : OnSchedule total t {} where
  nonneg := le_rfl
  unstarted := fun _ => le_rfl
  begun := nofun
  reached := nofun

section

variable (h : OnSchedule total t s)
include h

/-- Time alone does no harm, because the schedule only grows. -/
theorem OnSchedule.later (hm : IsSchedule total) (ht : t ≤ t') :
    OnSchedule total t' s where
  nonneg := h.nonneg
  unstarted := h.unstarted
  begun := fun hs => (h.begun hs).trans ht
  reached := fun hs => by
    have hb := h.begun hs
    exact (h.reached hs).trans (hm.mono (by omega) (by omega))

theorem OnSchedule.elapsed (hm : IsSchedule total) :
    OnSchedule total t (s.elapsed t).2 := by
  unfold BaseState.elapsed
  cases hs : s.startTime with
  | some start => exact h
  | none =>
    refine ⟨h.nonneg, nofun, fun hc => ?_, fun hc => ?_⟩
    · cases hc
      exact le_rfl
    · cases hc
      rw [Int.sub_self, hm.start]
      exact h.unstarted hs

/-- Handing out and giving back move an acquisition between the two counts. -/
theorem OnSchedule.move {a : Int} (ha : 0 ≤ s.acquireableCount + a) :
    OnSchedule total t
      { s with
        acquireableCount := s.acquireableCount + a
        acquiredCount := s.acquiredCount - a } where
  nonneg := ha
  unstarted := fun hs => by
    have := h.unstarted hs
    dsimp only
    omega
  begun := h.begun
  reached := fun hs => by
    have := h.reached hs
    dsimp only
    omega

theorem OnSchedule.take (ha : 0 < s.acquireableCount) :
    OnSchedule total t s.take := by
  have := h.move (a := -1) (by omega)
  rwa [sub_neg_eq_add, ← sub_eq_add_neg] at this

theorem OnSchedule.releaseOne : OnSchedule total t s.releaseOne :=
  h.move (a := 1) (by have := h.nonneg; omega)

end

/-- After `elapsed` the clock runs, and shows what it returned. -/
theorem elapsed_started (now : Int) (s : BaseState) :
    ∃ start, (s.elapsed now).2.startTime = some start ∧ (s.elapsed now).1 = now - start
      ∧ (s.elapsed now).2.acquiredCount = s.acquiredCount
      ∧ (s.startTime = some start ∨ s.startTime = none ∧ start = now) := by
  unfold BaseState.elapsed
  cases hs : s.startTime with
  | none => exact ⟨now, rfl, by simp, rfl, Or.inr ⟨rfl, rfl⟩⟩
  | some start => exact ⟨start, hs, rfl, rfl, Or.inl rfl⟩

/-- What was handed out is within the schedule, so what counting anew finds is not negative. -/
theorem OnSchedule.recount (hm : IsSchedule total) (h : OnSchedule total t s) :
    OnSchedule total t (s.recount total t).2 := by
  obtain ⟨start, hstart, he, hacq, -⟩ := elapsed_started t s
  have hon := h.elapsed hm
  have hle : (s.elapsed t).2.acquiredCount ≤ total (t - start) := by
    have hr := hon.reached hstart
    have hn := hon.nonneg
    omega
  -- the state with the new count, whether or not one of it is handed out
  have hnew : OnSchedule total t
      { (s.elapsed t).2 with
        acquireableCount := total (s.elapsed t).1 - (s.elapsed t).2.acquiredCount } := by
    refine ⟨?_, fun hc => ?_, hon.begun, fun hc => ?_⟩
    · dsimp only
      rw [he]
      omega
    · dsimp only at hc
      rw [hstart] at hc
      cases hc
    · dsimp only at hc ⊢
      rw [hstart] at hc
      cases hc
      rw [he]
      omega
  unfold BaseState.recount
  dsimp only
  split
  · rename_i hpos
    exact hnew.take hpos
  · exact hnew

theorem OnSchedule.tryAcquire (hm : IsSchedule total) (h : OnSchedule total t s) :
    OnSchedule total t (s.tryAcquire total t).2 := by
  unfold BaseState.tryAcquire
  split
  · rename_i h0
    have hn := h.nonneg
    exact h.take (by omega)
  · exact h.recount hm

end BaseState

/-! ## What the limiters share -/

/-- An invariant that every call on a limiter keeps, and time too. -/
structure RateLimiter.Keeps (L : RateLimiter) (I : Int → L.State → Prop) : Prop where
  initial : ∀ t, I t L.initial
  later : ∀ {t t' s}, t ≤ t' → I t s → I t' s
  acquire : ∀ {t s}, I t s → I t (L.tryAcquireOne t s).2
  release : ∀ {t s s'}, I t s → L.releaseOne t s = .ok s' → I t s'
  elapsed : ∀ {t s}, I t s → I t (L.elapsed t s).2

/-- While the invariant holds, nothing is released before the time that was promised. -/
def RateLimiter.Waits (L : RateLimiter) (I : Int → L.State → Prop) : Prop :=
  ∀ {t t' d s}, I t s → L.timeUntilNextRelease t s = some d → t ≤ t' → t' < t + d →
    (L.tryAcquireOne t' s).1 = false

theorem RateLimiter.Use.step_releaseOne {L : RateLimiter} {u v : L.Use} {now : Int}
    (h : u.step now .releaseOne = some v) :
    u.net ≠ 0 ∧ ∃ s, L.releaseOne now u.state = .ok s ∧ v = ⟨s, now, u.net - 1⟩ := by
  rw [RateLimiter.Use.step] at h
  by_cases h0 : u.net = 0
  · rw [if_pos h0] at h
    cases h
  · rw [if_neg h0] at h
    cases hr : L.releaseOne now u.state with
    | error f =>
      rw [hr] at h
      cases h
    | ok s =>
      rw [hr] at h
      exact ⟨h0, s, rfl, (Option.some.inj h).symm⟩

/-- The invariant holds wherever calls can lead. -/
theorem RateLimiter.Keeps.reaches {L : RateLimiter} {I : Int → L.State → Prop} (h : L.Keeps I)
    {t₀ : Int} {calls : List (Int × RateLimiter.Call)} {u : L.Use} (hu : L.Reaches t₀ calls u) :
    I u.now u.state := by
  refine hu.invariant (P := fun u => I u.now u.state) (h.initial t₀) ?_
  rintro a ⟨now, call⟩ b ha ⟨hnow, hb⟩
  have hat : I now a.state := h.later hnow ha
  cases call with
  | tryAcquireOne =>
    cases hb
    exact h.acquire hat
  | elapsed =>
    cases hb
    exact h.elapsed hat
  | releaseOne =>
    obtain ⟨-, s, hs, rfl⟩ := RateLimiter.Use.step_releaseOne hb
    exact h.release hat hs

/-! ## The two limiters with a schedule -/

section Base

variable {L : RateLimiter} {total dueNs : Int → Int} {t t' d : Int} {s : BaseState}

namespace BaseState

/-- The answer of both limiters, once there is nothing to hand out and the clock runs. -/
def wait (dueNs : Int → Int) (now : Int) (s : BaseState) : Option Int :=
  if 0 < s.acquireableCount ∨ s.started = false then some 0
  else some (max 0 (dueNs s.acquiredCount - (s.elapsed now).1))

/-- A wait that is not over at once is the time to the next acquisition on the schedule. -/
theorem wait_pos (h : s.wait dueNs t = some d) (hd : 0 < d) :
    s.acquireableCount ≤ 0 ∧ ∃ start, s.startTime = some start
      ∧ d = dueNs s.acquiredCount - (t - start) := by
  unfold wait at h
  split at h
  · cases h
    omega
  · rename_i hc
    rw [not_or, Bool.not_eq_false] at hc
    obtain ⟨start, hstart⟩ := Option.isSome_iff_exists.mp hc.2
    have he : (s.elapsed t).1 = t - start := by
      unfold elapsed
      rw [hstart]
    have hd' := Option.some.inj h
    rw [he] at hd'
    exact ⟨by omega, start, hstart, by omega⟩

/-- **No acquisition before the promised time.** -/
theorem tryAcquire_before (hi : Inverts total dueNs) (h : OnSchedule total t s)
    (hw : s.wait dueNs t = some d) (ht : t ≤ t') (ht' : t' < t + d) :
    (s.tryAcquire total t').1 = false := by
  obtain ⟨hle, start, hstart, hd⟩ := wait_pos hw (by omega)
  have hn := h.nonneg
  have hb := h.begun hstart
  have h0 : s.acquireableCount = 0 := by omega
  unfold tryAcquire
  rw [if_neg (by simpa using h0), recount_fst]
  have he : (s.elapsed t').1 = t' - start := by
    unfold elapsed
    rw [hstart]
  rw [he, decide_eq_false_iff_not, hi _ _ (by omega)]
  omega

/-- **An acquisition at the promised time**, once the clock runs. -/
theorem tryAcquire_at (hi : Inverts total dueNs) (h : OnSchedule total t s)
    (hs : s.started = true) (hw : s.wait dueNs t = some d) :
    (s.tryAcquire total (t + d)).1 = true := by
  unfold tryAcquire
  by_cases h0 : s.acquireableCount = 0
  · rw [if_neg (by simpa using h0), recount_fst]
    obtain ⟨start, hstart⟩ := Option.isSome_iff_exists.mp hs
    have hb := h.begun hstart
    have he : ∀ now, (s.elapsed now).1 = now - start := by
      intro now
      unfold elapsed
      rw [hstart]
    unfold wait at hw
    rw [if_neg (by rw [h0, hs]; simp), he] at hw
    have hd := Option.some.inj hw
    rw [he, decide_eq_true_eq, hi _ _ (by omega)]
    omega
  · rw [if_pos h0]

end BaseState

end Base

namespace LinearRateLimiter

variable (l : LinearRateLimiter)

theorem frequency_pos : (0 : ℚ) < l.frequency.value := by
  exact_mod_cast l.positive

theorem due_eq (e : Int) : l.due e = ⌊(e : ℚ) * l.frequency.value / 10 ^ 9 + 1 / 2⌋ := by
  have hf := l.frequency_pos
  unfold due Frequency.interval
  field_simp

theorem due_mono {e e' : Int} (h : e ≤ e') : l.due e ≤ l.due e' := by
  have hq : (e : ℚ) ≤ e' := by exact_mod_cast h
  have hmul : (e : ℚ) * l.frequency.value ≤ e' * l.frequency.value :=
    mul_le_mul_of_nonneg_right hq l.frequency_pos.le
  rw [due_eq, due_eq]
  apply Int.floor_le_floor
  linarith

theorem isSchedule_due : IsSchedule l.due where
  start := by
    rw [due_eq]
    norm_num
  mono := fun _ h => l.due_mono h

/-- When acquisition number `a + 1` is due, in whole nanoseconds. -/
def dueNs (a : Int) : Int :=
  ⌈(l.frequency.interval * (a + 1) - l.frequency.interval / 2) * 10 ^ 9⌉

theorem inverts : Inverts l.due l.dueNs := by
  intro a e _
  have hf := l.frequency_pos
  have hstep : a < l.due e ↔ a + 1 ≤ l.due e := Iff.rfl
  rw [hstep, due_eq, Int.le_floor, dueNs, Int.ceil_le]
  unfold Frequency.interval
  push_cast
  have hl : (1 / (l.frequency.value : ℚ) * (a + 1) - 1 / l.frequency.value / 2) * 10 ^ 9
      = ((a : ℚ) + 1 / 2) * 10 ^ 9 / l.frequency.value := by
    field_simp
    ring
  rw [hl, div_le_iff₀ hf]
  constructor
  · intro h
    linarith
  · intro h
    linarith

theorem timeUntilNextRelease_eq (now : Int) (s : BaseState) :
    l.timeUntilNextRelease now s = s.wait l.dueNs now := by
  unfold timeUntilNextRelease BaseState.wait dueNs
  dsimp only
  rw [Int.ceil_sub_intCast]

/-- Its first test asks for more than zero, which is the same while the count is not negative. -/
theorem tryAcquireOne_eq {now : Int} {s : BaseState} (h : 0 ≤ s.acquireableCount) :
    l.tryAcquireOne now s = s.tryAcquire l.due now := by
  unfold tryAcquireOne BaseState.tryAcquire
  by_cases h0 : s.acquireableCount = 0
  · rw [if_neg (by omega), if_neg (by simpa using h0)]
  · rw [if_pos (by omega), if_pos h0]

theorem keeps : l.limiter.Keeps (BaseState.OnSchedule l.due) where
  initial := BaseState.onSchedule_initial
  later := fun ht h => h.later l.isSchedule_due ht
  acquire := fun {t s} h => by
    show BaseState.OnSchedule l.due t (l.tryAcquireOne t s).2
    rw [l.tryAcquireOne_eq h.nonneg]
    exact h.tryAcquire l.isSchedule_due
  release := fun h hr => by
    cases hr
    exact h.releaseOne
  elapsed := fun h => h.elapsed l.isSchedule_due

theorem waits : l.limiter.Waits (BaseState.OnSchedule l.due) := by
  intro t t' d s h hd ht ht'
  show (l.tryAcquireOne t' s).1 = false
  rw [l.tryAcquireOne_eq h.nonneg]
  exact BaseState.tryAcquire_before l.inverts h ((l.timeUntilNextRelease_eq t s).symm.trans hd)
    ht ht'

end LinearRateLimiter

namespace LinearRampingRateLimiterImpl

variable (l : LinearRampingRateLimiterImpl)

theorem targetFreqNs_pos : 0 < l.targetFreqNs := by
  have hf : (0 : ℚ) < l.frequency.value := by exact_mod_cast l.positive
  unfold targetFreqNs
  positivity

theorem rampTime_pos : (0 : ℚ) < l.rampTime := by
  exact_mod_cast l.rampPositive

/-- The unrounded number of acquisitions of the ramp. -/
def onRamp (e : Int) : ℚ := (e : ℚ) ^ 2 * l.targetFreqNs / (2 * l.rampTime)

theorem onRamp_nonneg (e : Int) : 0 ≤ l.onRamp e := by
  have hf := l.targetFreqNs_pos
  have hr := l.rampTime_pos
  unfold onRamp
  positivity

/-- At the end of the ramp it is the number that `totalRampRequests` rounds. -/
theorem onRamp_rampTime : l.onRamp l.rampTime = l.rampTime * l.targetFreqNs / 2 := by
  unfold onRamp
  field_simp

theorem total_ramping {e : Int} (he : e < l.rampTime) :
    l.total e = roundHalfAway (l.onRamp e) := by
  have hr := l.rampTime_pos
  have hx : (e : ℚ) / 10 ^ 9 * ((1 - (l.rampTime - e) / l.rampTime) * l.frequency.value) / 2
      = l.onRamp e := by
    unfold onRamp targetFreqNs
    field_simp
    ring
  unfold total
  rw [if_pos he]
  exact congrArg roundHalfAway hx

theorem total_ramped {e : Int} (he : l.rampTime ≤ e) :
    l.total e = l.totalRampRequests + roundHalfAway ((e - l.rampTime) * l.targetFreqNs) := by
  unfold total
  rw [if_neg (by omega)]

theorem totalRampRequests_eq : l.totalRampRequests = roundHalfAway (l.onRamp l.rampTime) := by
  rw [onRamp_rampTime, totalRampRequests]

theorem onRamp_mono {e e' : Int} (he : 0 ≤ e) (hee : e ≤ e') : l.onRamp e ≤ l.onRamp e' := by
  have hf := l.targetFreqNs_pos
  have hr := l.rampTime_pos
  unfold onRamp
  gcongr

theorem past_nonneg {e : Int} (he : l.rampTime ≤ e) :
    (0 : ℚ) ≤ ((e : ℚ) - l.rampTime) * l.targetFreqNs := by
  have h : (l.rampTime : ℚ) ≤ e := by exact_mod_cast he
  exact mul_nonneg (by linarith) l.targetFreqNs_pos.le

/-- The schedule does not drop at the end of the ramp, where its formula changes. -/
theorem isSchedule_total : IsSchedule l.total where
  start := by
    rw [l.total_ramping l.rampPositive]
    unfold onRamp
    norm_num [roundHalfAway]
  mono := by
    intro e e' he hee
    by_cases h' : e' < l.rampTime
    · rw [l.total_ramping (by omega), l.total_ramping h']
      exact roundHalfAway_mono (l.onRamp_nonneg e) (l.onRamp_mono he hee)
    · have hpast := l.past_nonneg (not_lt.mp h')
      rw [l.total_ramped (not_lt.mp h')]
      by_cases h : e < l.rampTime
      · rw [l.total_ramping h, totalRampRequests_eq]
        have h1 := roundHalfAway_mono (l.onRamp_nonneg e) (l.onRamp_mono he h.le)
        have h2 := roundHalfAway_nonneg hpast
        omega
      · rw [l.total_ramped (not_lt.mp h)]
        have hq : (e : ℚ) ≤ e' := by exact_mod_cast hee
        have h1 : ((e : ℚ) - l.rampTime) * l.targetFreqNs
            ≤ ((e' : ℚ) - l.rampTime) * l.targetFreqNs :=
          mul_le_mul_of_nonneg_right (by linarith) l.targetFreqNs_pos.le
        have h2 := roundHalfAway_mono (l.past_nonneg (not_lt.mp h)) h1
        omega

/-- The unrounded number reaches `target` when the square of the time reaches `dueSquared`. -/
theorem le_onRamp {target : ℚ} {e : Int} :
    target ≤ l.onRamp e ↔ l.dueSquared target ≤ (e : ℚ) ^ 2 := by
  have hf := l.targetFreqNs_pos
  have hr := l.rampTime_pos
  unfold onRamp dueSquared
  rw [le_div_iff₀ (by positivity), div_le_iff₀ hf]
  constructor <;> intro h <;> linarith

/-- **The inversion**, on the ramp, past it, and where the two meet. -/
theorem inverts : Inverts l.total l.dueNs := by
  intro a e he
  have hstep : a < l.total e ↔ a + 1 ≤ l.total e := Iff.rfl
  have htarget : ((a + 1 : Int) : ℚ) - 1 / 2 = a + 1 / 2 := by
    push_cast
    ring
  rw [hstep, dueNs]
  by_cases hq : (l.rampTime : ℚ) ^ 2 ≤ l.dueSquared (a + 1 / 2)
  · -- the ramp is over before the acquisition is due
    rw [if_pos hq, max_le_iff, Int.ceil_le]
    by_cases hr : e < l.rampTime
    · rw [l.total_ramping hr, le_roundHalfAway (l.onRamp_nonneg e), htarget, l.le_onRamp]
      have h2 : (e : ℚ) ^ 2 < (l.rampTime : ℚ) ^ 2 := by gcongr
      constructor
      · intro h
        linarith
      · intro h
        omega
    · have hr' := not_lt.mp hr
      have hround : a + 1 ≤ l.total e
          ↔ a + 1 - l.totalRampRequests
            ≤ roundHalfAway (((e : ℚ) - l.rampTime) * l.targetFreqNs) := by
        rw [l.total_ramped hr']
        omega
      rw [hround, le_roundHalfAway (l.past_nonneg hr')]
      push_cast
      have hdiv : (l.rampTime : ℚ) + (a + 1 / 2 - l.totalRampRequests) / l.targetFreqNs ≤ e
          ↔ ((a : ℚ) + 1 / 2 - l.totalRampRequests) / l.targetFreqNs ≤ e - l.rampTime := by
        constructor <;> intro h <;> linarith
      rw [hdiv, div_le_iff₀ l.targetFreqNs_pos]
      constructor
      · intro h
        exact ⟨hr', by linarith⟩
      · rintro ⟨-, h⟩
        linarith
  · -- the acquisition is due while ramping, or at the very end of the ramp
    rw [if_neg hq]
    obtain ⟨n, rfl⟩ := Int.eq_ofNat_of_zero_le he
    rw [Int.ofNat_le, ceilSqrt_le]
    by_cases hr : (n : Int) < l.rampTime
    · rw [l.total_ramping hr, le_roundHalfAway (l.onRamp_nonneg _), htarget, l.le_onRamp]
      rfl
    · have hr' := not_lt.mp hr
      have hreach : a + 1 ≤ l.totalRampRequests := by
        rw [totalRampRequests_eq, le_roundHalfAway (l.onRamp_nonneg _), htarget, l.le_onRamp]
        exact (not_le.mp hq).le
      have hpast := roundHalfAway_nonneg (l.past_nonneg hr')
      have hn : (l.rampTime : ℚ) ≤ n := by exact_mod_cast hr'
      have hsq : (l.rampTime : ℚ) ^ 2 ≤ (n : ℚ) ^ 2 := by
        have := l.rampTime_pos
        gcongr
      constructor
      · intro _
        linarith
      · intro _
        rw [l.total_ramped hr']
        omega

theorem keeps : l.limiter.Keeps (BaseState.OnSchedule l.total) where
  initial := BaseState.onSchedule_initial
  later := fun ht h => h.later l.isSchedule_total ht
  acquire := fun h => h.tryAcquire l.isSchedule_total
  release := fun h hr => by
    cases hr
    exact h.releaseOne
  elapsed := fun h => h.elapsed l.isSchedule_total

theorem waits : l.limiter.Waits (BaseState.OnSchedule l.total) :=
  fun h hd ht ht' => BaseState.tryAcquire_before l.inverts h hd ht ht'

/-- The due time is the one the source writes with a real square root. -/
theorem dueNs_eq_real (a : Int) :
    l.dueNs a =
      let target : ℚ := a + 1 / 2
      let root := Real.sqrt (l.dueSquared target : ℝ)
      ⌈if (l.rampTime : ℝ) ≤ root then
          max (l.rampTime : ℝ)
            ((l.rampTime + (target - l.totalRampRequests) / l.targetFreqNs : ℚ) : ℝ)
        else root⌉ := by
  have hr := l.rampPositive
  have hcond : (l.rampTime : ℝ) ≤ Real.sqrt (l.dueSquared (a + 1 / 2) : ℝ)
      ↔ (l.rampTime : ℚ) ^ 2 ≤ l.dueSquared (a + 1 / 2) := by
    rw [Real.le_sqrt' (by exact_mod_cast hr)]
    exact_mod_cast Iff.rfl
  dsimp only
  unfold dueNs
  by_cases h : (l.rampTime : ℚ) ^ 2 ≤ l.dueSquared (a + 1 / 2)
  · rw [if_pos h, if_pos (hcond.mpr h), Int.ceil_mono.map_max, Int.ceil_intCast, Rat.ceil_cast]
  · rw [if_neg h, if_neg (mt hcond.mp h), ceilSqrt_eq]

end LinearRampingRateLimiterImpl

end Sortie.Engine
