import Sortie.Proof.Composition

/-!
# Schedules are followed exactly

A limiter with a schedule keeps two counts, and `OnSchedule` says that together
they never pass the schedule. The number of acquisitions that are out is one of the
two counts. So what is out never passes the schedule either, and once a question is
answered with no, nothing is left over: what is out is what the schedule allows.

Both limiters are covered by one argument. What it needs of a limiter is that its
answers are those of `BaseState.tryAcquire` on some schedule.
-/

namespace Sortie.Engine

open Rounding

namespace RateLimiter

/-- The time since the first of the calls, and before there is one none has passed. That call is no
`releaseOne`, as nothing is out to be given back, so it is the one that starts the clock. -/
def sinceFirst (calls : List (Int × Call)) (t : Int) : Int :=
  (calls.head?.map fun call => t - call.1).getD 0

/-- When `e` nanoseconds have passed since the first call, `bound e` acquisitions may be out, never
more; and asking until the answer is no gets every one of them out. -/
structure KeepsTo (L : RateLimiter) (acquireable : L.State → Int) (bound : Int → Int) : Prop where
  nonneg : ∀ {t₀ calls} {u : L.Use}, L.Reaches t₀ calls u → 0 ≤ acquireable u.state
  within : ∀ {t₀ calls} {u : L.Use}, L.Reaches t₀ calls u → ∀ {t}, u.now ≤ t →
    (u.net : Int) ≤ bound (sinceFirst calls t)
  refused : ∀ {t₀ calls} {u : L.Use}, L.Reaches t₀ calls u → ∀ {t}, u.now ≤ t →
    (L.tryAcquireOne t u.state).1 = false → (u.net : Int) = bound (sinceFirst calls t)
  asked : ∀ {t₀ calls} {u : L.Use}, L.Reaches t₀ calls u → ∀ {t}, u.now ≤ t →
    ∃ n w, Lts.Run Use.Leads u (List.replicate n (t, Call.tryAcquireOne)) w
      ∧ w.net = u.net + n ∧ (L.tryAcquireOne t w.state).1 = false
      ∧ (w.net : Int) = bound (sinceFirst calls t)

end RateLimiter

namespace BaseState

variable {total : Int → Int} {t : Int} {s : BaseState}

theorem OnSchedule.elapsed_nonneg (h : OnSchedule total t s) : 0 ≤ (s.elapsed t).1 := by
  unfold BaseState.elapsed
  cases hs : s.startTime with
  | none => exact le_rfl
  | some start =>
    have := h.begun hs
    dsimp only
    omega

/-- Both counts together are within the schedule, before the clock runs too. -/
theorem OnSchedule.counted (hm : IsSchedule total) (h : OnSchedule total t s) :
    s.acquireableCount + s.acquiredCount ≤ total (s.elapsed t).1 := by
  unfold BaseState.elapsed
  cases hs : s.startTime with
  | none =>
    rw [hm.start]
    exact h.unstarted hs
  | some start => exact h.reached hs

theorem startTime_elapsed (t : Int) (s : BaseState) :
    (s.elapsed t).2.startTime = some (s.startTime.getD t) := by
  unfold BaseState.elapsed
  cases hs : s.startTime with
  | none => rfl
  | some start => exact hs

theorem elapsed_of_startTime {s' : BaseState} (h : s'.startTime = some (s.startTime.getD t)) :
    (s'.elapsed t).1 = (s.elapsed t).1 := by
  unfold BaseState.elapsed
  rw [h]
  cases s.startTime with
  | none => exact Int.sub_self t
  | some start => rfl

/-- A question starts the clock unless it runs; before that there is nothing to hand out. -/
theorem OnSchedule.startTime_tryAcquire (h : OnSchedule total t s) (ha : 0 ≤ s.acquiredCount) :
    (s.tryAcquire total t).2.startTime = some (s.startTime.getD t) := by
  unfold BaseState.tryAcquire
  split
  · rename_i hready
    cases hs : s.startTime with
    | some start => exact hs
    | none =>
      have hnone := h.unstarted hs
      have hnonneg := h.nonneg
      omega
  · rw [← startTime_elapsed]
    unfold BaseState.recount
    dsimp only
    split <;> rfl

/-- **No means that nothing is left over.** -/
theorem OnSchedule.refused (hm : IsSchedule total) (h : OnSchedule total t s)
    (hno : (s.tryAcquire total t).1 = false) : s.acquiredCount = total (s.elapsed t).1 := by
  have hle := h.counted hm
  unfold BaseState.tryAcquire at hno
  split at hno
  · cases hno
  · rw [recount_fst, decide_eq_false_iff_not] at hno
    omega

end BaseState

/-- The answers of `L` are those of the schedule `total`, and `L` keeps its counts in `base`. -/
structure RateLimiter.OnSchedule (L : RateLimiter) (base : L.State → BaseState)
    (total : Int → Int) : Prop where
  schedule : IsSchedule total
  initial : base L.initial = {}
  keeps : L.Keeps (fun t s => (base s).OnSchedule total t)
  accounts : L.Accounts (fun n s => (base s).Counts n)
  elapsed : ∀ t s, (L.elapsed t s).1 = ((base s).elapsed t).1
    ∧ base (L.elapsed t s).2 = ((base s).elapsed t).2
  released : ∀ {t s s'}, L.releaseOne t s = .ok s' → (base s').startTime = (base s).startTime
  answers : ∀ {t s}, (base s).OnSchedule total t →
    (L.tryAcquireOne t s).1 = ((base s).tryAcquire total t).1
      ∧ base (L.tryAcquireOne t s).2 = ((base s).tryAcquire total t).2

namespace RateLimiter.OnSchedule

variable {L : RateLimiter} {base : L.State → BaseState} {total : Int → Int}
  {t₀ t : Int} {calls : List (Int × RateLimiter.Call)} {u : L.Use}

section

variable (h : L.OnSchedule base total)
include h

section

variable (hu : L.Reaches t₀ calls u)
include hu

theorem at_later (ht : u.now ≤ t) :
    (base u.state).OnSchedule total t :=
  h.keeps.later ht (h.keeps.reaches hu)

theorem net_eq :
    (u.net : Int) = (base u.state).acquiredCount :=
  (h.accounts.reaches hu).symm

theorem within (ht : u.now ≤ t) :
    (u.net : Int) ≤ total (L.elapsed t u.state).1 := by
  have hon := h.at_later hu ht
  have hle := hon.counted h.schedule
  have hn := hon.nonneg
  rw [(h.elapsed _ _).1, h.net_eq hu]
  omega

theorem refused (ht : u.now ≤ t) (hno : (L.tryAcquireOne t u.state).1 = false) :
    (u.net : Int) = total (L.elapsed t u.state).1 := by
  have hon := h.at_later hu ht
  rw [(h.answers hon).1] at hno
  rw [(h.elapsed _ _).1, h.net_eq hu]
  exact hon.refused h.schedule hno

/-- A yes puts one more out, and the time since the start is what it was. -/
theorem answered (ht : u.now ≤ t) (hyes : (L.tryAcquireOne t u.state).1 = true) :
    Use.Leads u (t, Call.tryAcquireOne) ⟨(L.tryAcquireOne t u.state).2, t, u.net + 1⟩
      ∧ (L.elapsed t (L.tryAcquireOne t u.state).2).1 = (L.elapsed t u.state).1 := by
  have hon := h.at_later hu ht
  refine ⟨⟨ht, ?_⟩, ?_⟩
  · show some _ = some _
    rw [if_pos hyes]
  · have hnet := h.net_eq hu
    rw [(h.elapsed _ _).1, (h.answers hon).2, (h.elapsed _ _).1]
    exact BaseState.elapsed_of_startTime (hon.startTime_tryAcquire (by omega))

end

/-- The clock runs since the first call. -/
theorem startTime_eq (hu : L.Reaches t₀ calls u) :
    (base u.state).startTime = calls.head?.map (·.1) := by
  induction hu with
  | nil => exact congrArg BaseState.startTime h.initial
  | @snoc calls call u v hrun hlead ih =>
    obtain ⟨now, call⟩ := call
    have hon := h.at_later hrun hlead.1
    have hnet := h.net_eq hrun
    -- the time of the new call counts unless there was one before
    have hfirst : (calls ++ [(now, call)]).head?.map (·.1)
        = some ((base u.state).startTime.getD now) := by
      rw [ih]
      cases calls <;> rfl
    rw [hfirst]
    obtain ⟨-, hstep⟩ := hlead
    cases call with
    | tryAcquireOne =>
      cases hstep
      show (base (L.tryAcquireOne now u.state).2).startTime = _
      rw [(h.answers hon).2]
      exact hon.startTime_tryAcquire (by omega)
    | elapsed =>
      cases hstep
      show (base (L.elapsed now u.state).2).startTime = _
      rw [(h.elapsed _ _).2]
      exact BaseState.startTime_elapsed _ _
    | releaseOne =>
      obtain ⟨hout, s, hs, rfl⟩ := Use.step_releaseOne hstep
      show (base s).startTime = _
      rw [h.released hs]
      cases hstart : (base u.state).startTime with
      | some start => rfl
      | none =>
        have hnone := hon.unstarted hstart
        have hnonneg := hon.nonneg
        omega

theorem elapsed_eq (hu : L.Reaches t₀ calls u) (t : Int) :
    (L.elapsed t u.state).1 = sinceFirst calls t := by
  rw [(h.elapsed _ _).1, BaseState.elapsed, h.startTime_eq hu, sinceFirst]
  cases calls.head? <;> rfl

/-- Every yes brings what is out one closer to what the schedule allows, so a no is near. -/
theorem asked (left : Nat) :
    ∀ {t₀ t : Int} {calls : List (Int × RateLimiter.Call)} {u : L.Use},
      L.Reaches t₀ calls u → u.now ≤ t → total (L.elapsed t u.state).1 ≤ u.net + left →
      ∃ n w, Lts.Run Use.Leads u (List.replicate n (t, Call.tryAcquireOne)) w
        ∧ w.net = u.net + n ∧ (L.tryAcquireOne t w.state).1 = false
        ∧ (w.net : Int) = total (L.elapsed t u.state).1 := by
  induction left with
  | zero =>
    intro t₀ t calls u hu ht hleft
    cases hacq : (L.tryAcquireOne t u.state).1 with
    | false => exact ⟨0, u, Lts.Run.nil, rfl, hacq, h.refused hu ht hacq⟩
    | true =>
      -- the schedule allows nothing more, so a yes would pass it
      exfalso
      obtain ⟨hstep, hclock⟩ := h.answered hu ht hacq
      have hle := h.within (hu.snoc hstep) (t := t) le_rfl
      rw [hclock] at hle
      push_cast at hle hleft
      omega
  | succ left ih =>
    intro t₀ t calls u hu ht hleft
    cases hacq : (L.tryAcquireOne t u.state).1 with
    | false => exact ⟨0, u, Lts.Run.nil, rfl, hacq, h.refused hu ht hacq⟩
    | true =>
      obtain ⟨hstep, hclock⟩ := h.answered hu ht hacq
      have hnear : total (L.elapsed t (L.tryAcquireOne t u.state).2).1
          ≤ ((u.net + 1 : Nat) : Int) + left := by
        rw [hclock]
        push_cast at hleft ⊢
        omega
      obtain ⟨n, w, hw, hnet, hno, hall⟩ := ih (hu.snoc hstep) (t := t) le_rfl hnear
      refine ⟨n + 1, w, Lts.Run.cons hstep hw, ?_, hno, ?_⟩
      · rw [hnet]
        dsimp only
        omega
      · rw [hall]
        exact congrArg total hclock

theorem keepsTo {bound : Int → Int} (hb : ∀ e, 0 ≤ e → bound e = total e) :
    L.KeepsTo (fun s => (base s).acquireableCount) bound := by
  have hbound : ∀ {t₀ calls} {u : L.Use}, L.Reaches t₀ calls u → ∀ {t}, u.now ≤ t →
      bound (sinceFirst calls t) = total (L.elapsed t u.state).1 := by
    intro t₀ calls u hu t ht
    rw [h.elapsed_eq hu t]
    apply hb
    rw [← h.elapsed_eq hu t, (h.elapsed _ _).1]
    exact (h.at_later hu ht).elapsed_nonneg
  constructor
  case nonneg =>
    intro t₀ calls u hu
    exact (h.at_later hu le_rfl).nonneg
  case within =>
    intro t₀ calls u hu t ht
    rw [hbound hu ht]
    exact h.within hu ht
  case refused =>
    intro t₀ calls u hu t ht hno
    rw [hbound hu ht]
    exact h.refused hu ht hno
  case asked =>
    intro t₀ calls u hu t ht
    rw [hbound hu ht]
    exact h.asked (total (L.elapsed t u.state).1).toNat hu ht (by omega)

end

end RateLimiter.OnSchedule

theorem LinearRateLimiter.onSchedule (l : LinearRateLimiter) :
    l.limiter.OnSchedule (fun s => s) l.due where
  schedule := l.isSchedule_due
  keeps := l.keeps
  initial := rfl
  accounts := l.accounts
  elapsed := fun _ _ => ⟨rfl, rfl⟩
  released := fun h => Except.ok.inj h ▸ rfl
  answers := fun {t s} h => by
    show (l.tryAcquireOne t s).1 = _ ∧ (l.tryAcquireOne t s).2 = _
    rw [l.tryAcquireOne_eq h.nonneg]
    exact ⟨rfl, rfl⟩

theorem LinearRampingRateLimiterImpl.onSchedule (l : LinearRampingRateLimiterImpl) :
    l.limiter.OnSchedule (fun s => s) l.total where
  schedule := l.isSchedule_total
  keeps := l.keeps
  initial := rfl
  accounts := l.accounts
  elapsed := fun _ _ => ⟨rfl, rfl⟩
  released := fun h => Except.ok.inj h ▸ rfl
  answers := fun _ => ⟨rfl, rfl⟩

/-- **The linear and the ramping limiter follow their schedules exactly**, a rounded line and a
rounded parabola that a line continues. -/
theorem schedules_followed (l : LinearRateLimiter) (r : LinearRampingRateLimiterImpl) :
    l.limiter.KeepsTo BaseState.acquireableCount
        (fun e => ⌊(e / 10 ^ 9 : ℚ) * l.frequency.value + 1 / 2⌋)
      ∧ r.limiter.KeepsTo BaseState.acquireableCount
        (fun e =>
          if e < r.rampTime then
            roundHalfAway ((e / 10 ^ 9 : ℚ) * (e / 10 ^ 9) * r.frequency.value
              / (2 * (r.rampTime / 10 ^ 9)))
          else
            roundHalfAway ((r.rampTime / 10 ^ 9 : ℚ) * r.frequency.value / 2)
              + roundHalfAway (((e - r.rampTime) / 10 ^ 9 : ℚ) * r.frequency.value)) := by
  constructor
  · refine l.onSchedule.keepsTo (fun e _ => ?_)
    rw [l.due_eq, div_mul_eq_mul_div]
  · refine r.onSchedule.keepsTo (fun e _ => ?_)
    by_cases he : e < r.rampTime
    · rw [if_pos he, r.total_ramping he]
      congr 1
      unfold LinearRampingRateLimiterImpl.onRamp LinearRampingRateLimiterImpl.targetFreqNs
      field_simp
    · rw [if_neg he, r.total_ramped (not_lt.mp he)]
      unfold LinearRampingRateLimiterImpl.totalRampRequests
        LinearRampingRateLimiterImpl.targetFreqNs
      congr 2 <;> ring

/-- One acquisition a second. -/
def oncePerSecond : LinearRateLimiter where
  frequency := ⟨1⟩
  positive := Nat.one_pos

/-- A ramp of two seconds up to four acquisitions a second. -/
def twoSecondRamp : LinearRampingRateLimiterImpl where
  rampTime := 2000000000
  frequency := ⟨4⟩
  positive := by decide
  rampPositive := by decide

/-- Asked at once and again after a second, when the line and the parabola have each made one
acquisition due. -/
def askTwice : List (Int × RateLimiter.Call) := [(7, .tryAcquireOne), (1000000007, .tryAcquireOne)]

theorem schedules_followed_oneOut :
    (∃ u, oncePerSecond.limiter.Reaches 0 askTwice u ∧ u.net = 1
        ∧ (u.net : Int) = ⌊((1000000000 : Int) / 10 ^ 9 : ℚ) * (1 : Nat) + 1 / 2⌋)
      ∧ ∃ u, twoSecondRamp.limiter.Reaches 0 askTwice u ∧ u.net = 1
        ∧ (u.net : Int) = roundHalfAway (((1000000000 : Int) / 10 ^ 9 : ℚ)
          * ((1000000000 : Int) / 10 ^ 9) * (4 : Nat) / (2 * ((2000000000 : Int) / 10 ^ 9))) := by
  obtain ⟨hlinear, hramping⟩ := schedules_followed oncePerSecond twoSecondRamp
  constructor
  · have hrun : oncePerSecond.limiter.Reaches 0 askTwice _ :=
      (Lts.Run.nil.snoc ⟨by decide, rfl⟩).snoc ⟨by decide, rfl⟩
    exact ⟨_, hrun, by decide +kernel, hlinear.refused hrun le_rfl (by decide +kernel)⟩
  · have hrun : twoSecondRamp.limiter.Reaches 0 askTwice _ :=
      (Lts.Run.nil.snoc ⟨by decide, rfl⟩).snoc ⟨by decide, rfl⟩
    exact ⟨_, hrun, by decide +kernel, hramping.refused hrun le_rfl (by decide +kernel)⟩

end Sortie.Engine
