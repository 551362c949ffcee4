import Sortie.Engine.Sequencer
import Sortie.Proof.RateLimiter

/-!
# What a sequencer initiates in its time

With a linear limiter of frequency `f` that starts at `T`, and a duration predicate
over `D` from the same `T`, a sequencer should initiate no more than `f * D` target
calls, rounded. The limiter keeps to its schedule at every time it reads, so all
hangs on the times it reads: they must not lie after `T + D`.

`run` asks the predicates once, when it begins, and then takes what the limiter
gives. A target call that completes inside the call refreshes the cached clock, and
the limiter goes on with the new time although no predicate has looked at it. While
such completions stay within the duration the bound holds, and because it holds the
loop ends. One that comes later breaks the bound; and when every call takes an
interval or more, there is always one more acquisition due and the loop never ends.
-/

namespace Sortie.Engine

variable {e : Event} {b : Bool} {t : Turn}

/-! ## Termination predicates -/

/-- A chain says to proceed only if each of its predicates does. -/
theorem TerminationPredicate.evaluate_of_evaluateChain {now : Int} {counters : String → Nat}
    {chain : List TerminationPredicate} (h : evaluateChain now counters chain = .proceed)
    {p : TerminationPredicate} (hp : p ∈ chain) : p.evaluate now counters = .proceed := by
  induction chain with
  | nil => cases hp
  | cons q child ih =>
    rw [evaluateChain] at h
    cases hc : evaluateChain now counters child with
    | proceed =>
      rw [hc] at h
      rcases List.mem_cons.mp hp with rfl | hp
      · exact h
      · exact ih hc hp
    | terminate =>
      rw [hc] at h
      cases h
    | fail =>
      rw [hc] at h
      cases h

theorem TerminationPredicate.le_of_duration {now start : Int} {d : Nat} {counters : String → Nat}
    (h : (TerminationPredicate.duration start d).evaluate now counters = .proceed) :
    now ≤ start + 1000 * d := by
  rw [evaluate] at h
  split at h
  · cases h
  · omega

namespace SequencerImpl

variable {L : RateLimiter} {s s' s'' : SequencerImpl L}

/-! ## What leaves the pace alone -/

/-- Nothing that has to do with the pace changed, and time went forward. -/
structure Frame (s s' : SequencerImpl L) : Prop where
  rateLimiter : s'.rateLimiter = s.rateLimiter
  targetsInitiated : s'.targetsInitiated = s.targetsInitiated
  lastTerminationStatus : s'.lastTerminationStatus = s.lastTerminationStatus
  terminationPredicate : s'.terminationPredicate = s.terminationPredicate
  clock : s.clock ≤ s'.clock

theorem Frame.refl (s : SequencerImpl L) : Frame s s := ⟨rfl, rfl, rfl, rfl, le_rfl⟩

theorem Frame.trans (h : Frame s s') (h' : Frame s' s'') : Frame s s'' :=
  ⟨h'.rateLimiter.trans h.rateLimiter, h'.targetsInitiated.trans h.targetsInitiated,
    h'.lastTerminationStatus.trans h.lastTerminationStatus,
    h'.terminationPredicate.trans h.terminationPredicate, h.clock.trans h'.clock⟩

section

variable (s : SequencerImpl L)

theorem frame_unblock (now : Int) :
    Frame s (s.unblockAndUpdateStatisticIfNeeded now) := by
  unfold unblockAndUpdateStatisticIfNeeded
  split
  · exact Frame.refl s
  · exact ⟨rfl, rfl, rfl, rfl, le_rfl⟩

theorem clock_unblock (now : Int) :
    (s.unblockAndUpdateStatisticIfNeeded now).clock = s.clock := by
  unfold unblockAndUpdateStatisticIfNeeded
  split <;> rfl

theorem frame_startBlocking :
    Frame s s.updateStartBlockingTimeIfNeeded := by
  unfold updateStartBlockingTimeIfNeeded
  split
  · exact ⟨rfl, rfl, rfl, rfl, le_rfl⟩
  · exact Frame.refl s

theorem clock_startBlocking :
    s.updateStartBlockingTimeIfNeeded.clock = s.clock := by
  unfold updateStartBlockingTimeIfNeeded
  split <;> rfl

theorem frame_complete (c : Completion) : Frame s (s.complete c) := by
  unfold complete
  split
  · exact Frame.refl s
  · exact ⟨rfl, rfl, rfl, rfl, le_max_left _ _⟩

end

/-- A completion moves the cached time no further than to its own. -/
theorem clock_complete_le {limit : Int} {c : Completion} (hs : s.clock ≤ limit)
    (hc : c.time ≤ limit) : (s.complete c).clock ≤ limit := by
  unfold complete
  split
  · exact hs
  · exact max_le hs hc

theorem frame_completes (cs : List Completion) :
    ∀ s : SequencerImpl L, Frame s (cs.foldl complete s) := by
  induction cs with
  | nil =>
    intro s
    exact Frame.refl s
  | cons c cs ih =>
    intro s
    exact (frame_complete s c).trans (ih _)

theorem clock_completes_le {limit : Int} (cs : List Completion) :
    ∀ s : SequencerImpl L, s.clock ≤ limit → (∀ c ∈ cs, c.time ≤ limit) →
      (cs.foldl complete s).clock ≤ limit := by
  induction cs with
  | nil =>
    intro s hs _
    exact hs
  | cons c cs ih =>
    intro s hs hcs
    exact ih _ (clock_complete_le hs (hcs c List.mem_cons_self))
      (fun c' hc' => hcs c' (List.mem_cons_of_mem _ hc'))

theorem frame_call (s : SequencerImpl L) (now : Int) (o : Outcome) : Frame s (s.call now o) := by
  obtain ⟨hr, hi, hl, ht, hc⟩ := frame_completes o.completes
    { s with
      calls := s.calls + 1
      pending := s.pending ++ if o.couldStart then [(s.calls, now)] else [] }
  exact ⟨hr, hi, hl, ht, hc⟩

theorem frame_reschedule (s : SequencerImpl L) (fromPeriodicTimer : Bool) :
    Frame s (s.reschedule fromPeriodicTimer) := by
  have hrun : Frame s s.scheduleRun := ⟨rfl, rfl, rfl, rfl, le_rfl⟩
  unfold reschedule
  split
  · exact hrun
  · split
    · exact hrun
    · split
      · exact ⟨rfl, rfl, rfl, rfl, le_rfl⟩
      · split
        · exact ⟨rfl, rfl, rfl, rfl, le_rfl⟩
        · exact Frame.refl s

/-- A handler that calls `run` first sees to its timers, and hands on the turn it was called with.
-/
theorem enters_some {s₁ : SequencerImpl L} (h : e.enters s = some (b, t, s₁)) :
    Frame s s₁ ∧ (e = .start t ∨ e = .periodicTimer t ∨ e = .spinTimer t) := by
  cases e with
  | start t' | periodicTimer t' | spinTimer t' =>
    rw [Event.enters] at h
    split at h <;> cases h
    exact ⟨⟨rfl, rfl, rfl, rfl, le_rfl⟩, by simp⟩
  | complete c => cases h

/-- Stopping initiates nothing. -/
theorem stop_keeps (s : SequencerImpl L) (failed : Bool) :
    (s.stop failed).targetsInitiated = s.targetsInitiated
      ∧ (s.stop failed).lastTerminationStatus = s.lastTerminationStatus
      ∧ (s.stop failed).terminationPredicate = s.terminationPredicate := by
  have hd : s.executionDuration.2.targetsInitiated = s.targetsInitiated
      ∧ s.executionDuration.2.lastTerminationStatus = s.lastTerminationStatus
      ∧ s.executionDuration.2.terminationPredicate = s.terminationPredicate := by
    unfold executionDuration
    split <;> exact ⟨rfl, rfl, rfl⟩
  unfold stop
  rw [(frame_unblock _ _).targetsInitiated, (frame_unblock _ _).lastTerminationStatus,
    (frame_unblock _ _).terminationPredicate]
  cases failed <;> exact hd

/-! ## The bound -/

end SequencerImpl

/-- A linear limiter that starts on a schedule, with a duration to run for, in microseconds. -/
structure Pace where
  linear : LinearRateLimiter
  start : Int
  duration : Nat

namespace Pace

variable (p : Pace)

def limiter : RateLimiter :=
  (ScheduledStartingRateLimiter.mk p.start).limiter p.linear.limiter

/-- The end of the duration. -/
def limit : Int := p.start + 1000 * p.duration

/-- Rate times duration, rounded. -/
def bound : Int :=
  ⌊(p.linear.frequency.value : ℚ) * (p.duration / 10 ^ 6) + 1 / 2⌋

theorem due_duration : p.linear.due (1000 * p.duration) = p.bound := by
  rw [LinearRateLimiter.due_eq, bound]
  congr 1
  push_cast
  ring

theorem bound_nonneg : 0 ≤ p.bound := by
  rw [← p.due_duration, ← p.linear.isSchedule_due.start]
  exact p.linear.isSchedule_due.mono le_rfl (by omega)

/-- The limiter has counted no more than the bound, with a clock started no sooner than planned. -/
structure Below (s : BaseState) : Prop where
  acquired : s.acquiredCount ≤ p.bound
  total : s.acquireableCount + s.acquiredCount ≤ p.bound
  start : ∀ {start}, s.startTime = some start → p.start ≤ start

variable {p} {s : BaseState} {now : Int}

theorem Below.take (h : p.Below s) (ha : 0 < s.acquireableCount) : p.Below s.take := by
  have ht := h.total
  refine ⟨?_, ?_, h.start⟩
  · show s.acquiredCount + 1 ≤ p.bound
    omega
  · show s.acquireableCount - 1 + (s.acquiredCount + 1) ≤ p.bound
    omega

theorem Below.releaseOne (h : p.Below s) : p.Below s.releaseOne := by
  have ha := h.acquired
  have ht := h.total
  refine ⟨?_, ?_, h.start⟩
  · show s.acquiredCount - 1 ≤ p.bound
    omega
  · show s.acquireableCount + 1 + (s.acquiredCount - 1) ≤ p.bound
    omega

section

variable (h : p.Below s) (hstart : p.start ≤ now) (hlimit : now ≤ p.limit)
include h hstart hlimit

/-- **What the limiter counts within the duration stays within the bound.** -/
theorem Below.recount :
    p.Below (s.recount p.linear.due now).2 := by
  obtain ⟨start, hs, he, hacq, hwhen⟩ := s.elapsed_started now
  have hplanned : p.start ≤ start := by
    rcases hwhen with hwhen | ⟨-, rfl⟩
    · exact h.start hwhen
    · exact hstart
  have hdue : p.linear.due (s.elapsed now).1 ≤ p.bound := by
    rw [he, ← p.due_duration]
    apply p.linear.due_mono
    unfold limit at hlimit
    omega
  have hnew : p.Below
      { (s.elapsed now).2 with
        acquireableCount := p.linear.due (s.elapsed now).1 - (s.elapsed now).2.acquiredCount } := by
    refine ⟨?_, ?_, fun hst => ?_⟩
    · exact hacq.trans_le h.acquired
    · dsimp only
      omega
    · rw [hs] at hst
      cases hst
      exact hplanned
  unfold BaseState.recount
  dsimp only
  split
  · rename_i hpos
    exact hnew.take hpos
  · exact hnew

theorem Below.tryAcquireOne :
    p.Below (p.linear.tryAcquireOne now s).2 := by
  unfold LinearRateLimiter.tryAcquireOne
  split
  · rename_i hpos
    exact h.take hpos
  · exact h.recount hstart hlimit

end

/-- An acquisition is counted, and only an acquisition. -/
theorem acquiredCount_tryAcquireOne (l : LinearRateLimiter) (now : Int) (s : BaseState) :
    (l.tryAcquireOne now s).2.acquiredCount
      = s.acquiredCount + (l.tryAcquireOne now s).1.toNat := by
  obtain ⟨start, -, -, hacq, -⟩ := s.elapsed_started now
  unfold LinearRateLimiter.tryAcquireOne
  split
  · rfl
  · unfold BaseState.recount
    dsimp only
    split
    · exact congrArg (· + 1) hacq
    · exact hacq.trans (Int.add_zero _).symm

end Pace

namespace SequencerImpl

variable {p : Pace} {s s' : SequencerImpl p.limiter}

/-- What a sequencer that has not been told to stop keeps: what it initiated is what the limiter
has counted, and that is within the bound. -/
structure Paced (p : Pace) (s : SequencerImpl p.limiter) : Prop where
  counted : s.rateLimiter.rateLimiter.acquiredCount = s.targetsInitiated
  below : p.Below s.rateLimiter.rateLimiter

theorem Paced.le_bound (h : Paced p s) : (s.targetsInitiated : Int) ≤ p.bound :=
  h.counted ▸ h.below.acquired

theorem Paced.frame (h : Paced p s) (hf : Frame s s') : Paced p s' := by
  obtain ⟨hc, hb⟩ := h
  constructor
  · rw [hf.rateLimiter, hf.targetsInitiated]
    exact hc
  · rw [hf.rateLimiter]
    exact hb

/-- The callbacks that run inside the calls of a turn find no time after the limit. -/
def Timely (limit : Int) (o : Outcome) : Prop := ∀ c ∈ o.completes, c.time ≤ limit

/-- What one question to the limiter does within the duration: it stays below the bound, counts
what it gives, and gives nothing before its start. -/
theorem tryAcquireOne_below {now : Int} {r r' : p.limiter.State} {acquired : Bool}
    (h : p.Below r.rateLimiter) (hlimit : now ≤ p.limit)
    (hr : p.limiter.tryAcquireOne now r = (acquired, r')) :
    p.Below r'.rateLimiter
      ∧ r'.rateLimiter.acquiredCount = r.rateLimiter.acquiredCount + acquired.toNat
      ∧ (acquired = true → p.start ≤ now) := by
  have hr : (ScheduledStartingRateLimiter.mk p.start).tryAcquireOne now r = (acquired, r') := hr
  unfold ScheduledStartingRateLimiter.tryAcquireOne at hr
  by_cases hnow : now < p.start
  · rw [if_pos hnow] at hr
    obtain ⟨rfl, rfl⟩ := Prod.mk.inj hr
    exact ⟨h, (Int.add_zero _).symm, fun hc => by cases hc⟩
  · rw [if_neg hnow] at hr
    obtain ⟨rfl, rfl⟩ := Prod.mk.inj hr
    exact ⟨h.tryAcquireOne (not_lt.mp hnow) hlimit, Pace.acquiredCount_tryAcquireOne _ _ _,
      fun _ => not_lt.mp hnow⟩

/-- From its start on the limiter takes back what it gave. -/
theorem releaseOne_limiter (p : Pace) {now : Int} (hnow : p.start ≤ now) (r : p.limiter.State) :
    ∃ r' : p.limiter.State, p.limiter.releaseOne now r = .ok r'
      ∧ r'.rateLimiter = BaseState.releaseOne r.rateLimiter := by
  refine ⟨{ r with rateLimiter := BaseState.releaseOne r.rateLimiter }, ?_, rfl⟩
  show (ScheduledStartingRateLimiter.mk p.start).releaseOne now r = _
  unfold ScheduledStartingRateLimiter.releaseOne
  rw [if_neg (not_lt.mpr hnow)]
  rfl

/-- What a turn of the loop, and the loop as a whole, leave as it was. -/
structure Kept (limit : Int) (s s' : SequencerImpl L) : Prop where
  clock : s'.clock ≤ limit
  lastTerminationStatus : s'.lastTerminationStatus = s.lastTerminationStatus
  terminationPredicate : s'.terminationPredicate = s.terminationPredicate

theorem clock_call_le {limit now : Int} {o : Outcome} {s : SequencerImpl L}
    (hs : s.clock ≤ limit) (ho : Timely limit o) : (s.call now o).clock ≤ limit :=
  clock_completes_le o.completes { s with calls := _, pending := _ } hs ho

theorem refused_of_ok {s : SequencerImpl L} {r : L.State}
    (h : L.releaseOne s.updateStartBlockingTimeIfNeeded.clock
      s.updateStartBlockingTimeIfNeeded.rateLimiter = .ok r) :
    s.refused = .ok { s.updateStartBlockingTimeIfNeeded with rateLimiter := r } := by
  unfold refused
  dsimp only
  rw [h]
  rfl

/-- **One turn of the loop.** It ends without a fault, and if the loop goes on, one more target call
was initiated. -/
theorem Paced.turn (h : Paced p s) (hclock : s.clock ≤ p.limit) {o : Outcome}
    (ho : Timely p.limit o) (now : Int) :
    ∃ goesOn s', s.turn now o = .ok (goesOn, s') ∧ Paced p s' ∧ Kept p.limit s s'
      ∧ (goesOn = true → s'.targetsInitiated = s.targetsInitiated + 1) := by
  obtain ⟨hcounted, hbelow⟩ := h
  unfold SequencerImpl.turn
  cases hacq : p.limiter.tryAcquireOne s.clock s.rateLimiter with
  | mk acquired r =>
    obtain ⟨hbelow', hcounted', hstart⟩ := tryAcquireOne_below hbelow hclock hacq
    cases acquired with
    | false =>
      refine ⟨false, _, rfl, ⟨?_, hbelow'⟩, ⟨hclock, rfl, rfl⟩, fun hc => by cases hc⟩
      rw [hcounted', hcounted]
      exact Int.add_zero _
    | true =>
      -- the target is called with the limiter as the acquisition left it
      obtain ⟨s₁, hs₁⟩ : ∃ s₁, { s with rateLimiter := r }.call now o = s₁ := ⟨_, rfl⟩
      have hcall : Frame { s with rateLimiter := r } s₁ := hs₁ ▸ frame_call _ now o
      have hclock₁ : s₁.clock ≤ p.limit := hs₁ ▸ clock_call_le hclock ho
      dsimp only
      rw [hs₁]
      by_cases hcould : o.couldStart = true
      · rw [if_pos hcould]
        have hf := hcall.trans (frame_unblock s₁ now)
        refine ⟨true, s₁.started now, rfl, ⟨?_, ?_⟩, ⟨?_, hf.lastTerminationStatus,
          hf.terminationPredicate⟩, fun _ => congrArg (· + 1) hf.targetsInitiated⟩
        · show (s₁.unblockAndUpdateStatisticIfNeeded now).rateLimiter.rateLimiter.acquiredCount
            = ((s₁.unblockAndUpdateStatisticIfNeeded now).targetsInitiated + 1 : Nat)
          rw [hf.rateLimiter, hf.targetsInitiated]
          exact hcounted'.trans (by rw [hcounted]; rfl)
        · show p.Below (s₁.unblockAndUpdateStatisticIfNeeded now).rateLimiter.rateLimiter
          rw [hf.rateLimiter]
          exact hbelow'
        · exact (clock_unblock s₁ now).trans_le hclock₁
      · rw [if_neg hcould]
        have hf := hcall.trans (frame_startBlocking s₁)
        obtain ⟨r', hr', hreleased⟩ := releaseOne_limiter p ((hstart rfl).trans hf.clock)
          s₁.updateStartBlockingTimeIfNeeded.rateLimiter
        rw [hf.rateLimiter] at hreleased
        refine ⟨false, { s₁.updateStartBlockingTimeIfNeeded with rateLimiter := r' }, ?_,
          ⟨?_, ?_⟩, ⟨?_, hf.lastTerminationStatus, hf.terminationPredicate⟩,
          fun hc => by cases hc⟩
        · rw [refused_of_ok hr']
          rfl
        · -- what is given back is what was just counted
          rw [hreleased, hf.targetsInitiated]
          show r.rateLimiter.acquiredCount - 1 = s.targetsInitiated
          rw [hcounted', hcounted]
          simp
        · rw [hreleased]
          exact hbelow'.releaseOne
        · exact (clock_startBlocking s₁).trans_le hclock₁

/-- **The loop ends**: with every turn that it goes on it comes closer to the bound. -/
theorem Paced.acquire {target : Nat → Outcome} (htarget : ∀ k, Timely p.limit (target k))
    (now : Int) (turns : Nat) : ∀ (k : Nat) (s : SequencerImpl p.limiter), Paced p s →
      s.clock ≤ p.limit → p.bound < s.targetsInitiated + turns →
      ∃ s', SequencerImpl.acquire now target turns k s = some (.ok s') ∧ Paced p s'
        ∧ Kept p.limit s s' := by
  induction turns with
  | zero =>
    intro k s h _ hturns
    have := h.le_bound
    omega
  | succ turns ih =>
    intro k s h hclock hturns
    obtain ⟨goesOn, s₁, hturn, h₁, hk₁, hinit⟩ := h.turn hclock (htarget k) now
    rw [SequencerImpl.acquire, hturn]
    cases goesOn with
    | false => exact ⟨s₁, rfl, h₁, hk₁⟩
    | true =>
      have hinit := hinit rfl
      obtain ⟨s₂, hs₂, h₂, hk₂⟩ := ih (k + 1) s₁ h₁ hk₁.clock (by
        rw [hinit]
        omega)
      exact ⟨s₂, hs₂, h₂, hk₂.clock,
        hk₂.lastTerminationStatus.trans hk₁.lastTerminationStatus,
        hk₂.terminationPredicate.trans hk₁.terminationPredicate⟩

/-! ## Whole lives -/

/-- What holds between two handlers. Once told to stop, a sequencer does not call its target. -/
structure Bounded (p : Pace) (chain : List TerminationPredicate)
    (s : SequencerImpl p.limiter) : Prop where
  chain : s.terminationPredicate = chain
  bound : (s.targetsInitiated : Int) ≤ p.bound
  paced : s.lastTerminationStatus = .proceed → Paced p s

/-- No target call of a handler completes inside the call after the limit. -/
def Event.Timely (limit : Int) : Event → Prop
  | .start t | .periodicTimer t | .spinTimer t => ∀ k, SequencerImpl.Timely limit (t.target k)
  | .complete _ => True

variable {chain : List TerminationPredicate}

theorem Bounded.frame (h : Bounded p chain s) (hf : Frame s s') : Bounded p chain s' where
  chain := hf.terminationPredicate.trans h.chain
  bound := hf.targetsInitiated ▸ h.bound
  paced := fun hp => (h.paced (hf.lastTerminationStatus ▸ hp)).frame hf

theorem Event.enters_timely {limit : Int} {s s₁ : SequencerImpl L} (he : e.Timely limit)
    (h : e.enters s = some (b, t, s₁)) : ∀ k, SequencerImpl.Timely limit (t.target k) := by
  rcases (enters_some h).2 with rfl | rfl | rfl
  all_goals exact he

/-- A `run` that goes on after asking its predicates begins within the duration. -/
theorem clock_begin_le (hpred : s.terminationPredicate = chain)
    (hchain : TerminationPredicate.duration p.start p.duration ∈ chain)
    (hgo : (s.begin t).lastTerminationStatus = .proceed) : (s.begin t).clock ≤ p.limit := by
  have hgo : (if s.lastTerminationStatus = .proceed then
      TerminationPredicate.evaluateChain (max s.clock t.time) t.counters s.terminationPredicate
    else s.lastTerminationStatus) = .proceed := hgo
  split at hgo
  · rw [hpred] at hgo
    exact TerminationPredicate.le_of_duration
      (TerminationPredicate.evaluate_of_evaluateChain hgo hchain)
  · contradiction

/-- Having asked its predicates, a sequencer that goes on is as it was. -/
theorem frame_begin {s : SequencerImpl L} (hgo : (s.begin t).lastTerminationStatus = .proceed) :
    Frame s (s.begin t) := by
  refine ⟨rfl, rfl, ?_, rfl, le_max_left _ _⟩
  rw [hgo]
  have hgo : (if s.lastTerminationStatus = .proceed then
      TerminationPredicate.evaluateChain (max s.clock t.time) t.counters s.terminationPredicate
    else s.lastTerminationStatus) = .proceed := hgo
  split at hgo
  · rename_i hp
    exact hp.symm
  · contradiction

/-- **Every `run` returns, and keeps the bound.** -/
theorem Bounded.run (h : Bounded p chain s)
    (hchain : TerminationPredicate.duration p.start p.duration ∈ chain)
    (ht : ∀ k, Timely p.limit (t.target k)) (fromPeriodicTimer : Bool) :
    ∃ s', s.Returns fromPeriodicTimer t s' ∧ Bounded p chain s' := by
  by_cases hgo : (s.begin t).lastTerminationStatus = .proceed
  · have hf := frame_begin hgo
    have hclock := clock_begin_le h.chain hchain hgo
    have hpaced := (h.frame hf).paced hgo
    obtain ⟨s', hs', hp', hk⟩ := hpaced.acquire ht (s.begin t).clock (p.bound.toNat + 1) 0
      (s.begin t) hclock (by omega)
    have hr := frame_reschedule s' fromPeriodicTimer
    refine ⟨s'.reschedule fromPeriodicTimer, ⟨p.bound.toNat + 1, ?_⟩, Bounded.frame ⟨?_, ?_, ?_⟩ hr⟩
    · unfold SequencerImpl.run
      rw [if_neg (not_not.mpr hgo), hs']
      rfl
    · exact hk.terminationPredicate.trans h.chain
    · exact hp'.le_bound
    · exact fun _ => hp'
  · refine ⟨(s.begin t).stop ((s.begin t).lastTerminationStatus = .fail), ⟨0, ?_⟩, ?_⟩
    · unfold SequencerImpl.run
      rw [if_pos hgo]
    · obtain ⟨hinit, hstatus, hpred⟩ := stop_keeps (s.begin t)
        ((s.begin t).lastTerminationStatus = .fail)
      refine ⟨hpred.trans h.chain, ?_, fun hp => absurd (hstatus.symm.trans hp) hgo⟩
      rw [hinit]
      exact h.bound

/-- The result of `run` does not depend on how many turns it was granted. -/
theorem acquire_unique {now : Int} {target : Nat → Outcome} (turns : Nat) :
    ∀ (turns' k : Nat) (s : SequencerImpl L) {r r' : Except ReleaseFault (SequencerImpl L)},
      acquire now target turns k s = some r → acquire now target turns' k s = some r' →
      r = r' := by
  induction turns with
  | zero =>
    intro turns' k s r r' h _
    cases h
  | succ turns ih =>
    intro turns' k s r r' h h'
    cases turns' with
    | zero => cases h'
    | succ turns' =>
      rw [acquire] at h h'
      split at h
      · rename_i hturn
        rw [hturn] at h'
        exact Option.some.inj (h.symm.trans h')
      · rename_i hturn
        rw [hturn] at h'
        exact Option.some.inj (h.symm.trans h')
      · rename_i hturn
        rw [hturn] at h'
        exact ih _ _ _ h h'

theorem Returns.unique {s s₁ s₂ : SequencerImpl L} (h₁ : s.Returns b t s₁) (h₂ : s.Returns b t s₂) :
    s₁ = s₂ := by
  obtain ⟨n, hn⟩ := h₁
  obtain ⟨m, hm⟩ := h₂
  unfold SequencerImpl.run at hn hm
  dsimp only at hn hm
  split at hn
  · rw [if_pos (by assumption)] at hm
    exact Except.ok.inj (Option.some.inj (hn.symm.trans hm))
  · rw [if_neg (by assumption)] at hm
    obtain ⟨r, hr, hrn⟩ := Option.map_eq_some_iff.mp hn
    obtain ⟨r', hr', hrm⟩ := Option.map_eq_some_iff.mp hm
    rw [acquire_unique n m 0 _ hr hr'] at hrn
    exact Except.ok.inj (hrn.symm.trans hrm)

theorem Bounded.step (h : Bounded p chain s)
    (hchain : TerminationPredicate.duration p.start p.duration ∈ chain) (he : e.Timely p.limit)
    (hs : Leads s e s') : Bounded p chain s' := by
  cases hs with
  | run henters hreturns =>
    obtain ⟨s'', hs'', hb⟩ := (h.frame (enters_some henters).1).run hchain
      (Event.enters_timely he henters) _
    exact hreturns.unique hs'' ▸ hb
  | complete c => exact h.frame (frame_complete s c)

theorem Bounded.init (p : Pace) (idleStrategy : Api.SequencerIdleStrategy)
    (chain : List TerminationPredicate) (clock : Int) :
    Bounded p chain (init p.limiter idleStrategy chain clock) where
  chain := rfl
  bound := p.bound_nonneg
  paced := fun _ => ⟨rfl, p.bound_nonneg, p.bound_nonneg, fun h => by cases h⟩

/-- **No more than rate times duration, and every `run` returns**, as long as no target call
completes inside the call after the duration is over. -/
theorem initiated_le_of_timely (p : Pace) {idleStrategy : Api.SequencerIdleStrategy}
    {chain : List TerminationPredicate}
    (hchain : TerminationPredicate.duration p.start p.duration ∈ chain) {clock : Int}
    {es : List Event} {s : SequencerImpl p.limiter}
    (hs : Reaches p.limiter idleStrategy chain clock es s) (hes : ∀ e ∈ es, e.Timely p.limit) :
    (s.targetsInitiated : Int) ≤ p.bound
      ∧ ∀ e : Event, e.Timely p.limit → ∀ {fromPeriodicTimer t s₁},
        e.enters s = some (fromPeriodicTimer, t, s₁) →
        ∃ s', s₁.Returns fromPeriodicTimer t s' := by
  have hb : Bounded p chain s := hs.invariant_on (P := Bounded p chain) hes
    (Bounded.init p idleStrategy chain clock)
    (fun a e b he ha hstep => ha.step hchain he hstep)
  refine ⟨hb.bound, fun e he fromPeriodicTimer t s₁ henters => ?_⟩
  obtain ⟨s', hs', -⟩ := (hb.frame (enters_some henters).1).run hchain
    (Event.enters_timely he henters) fromPeriodicTimer
  exact ⟨s', hs'⟩

/-! ## One request per second, for a second -/

/-- A handler as a function, when so many turns are enough for its loop. -/
def handle (turns : Nat) (s : SequencerImpl L) : Event → Option (SequencerImpl L)
  | .complete c => some (s.complete c)
  | e =>
    match e.enters s with
    | none => none
    | some (fromPeriodicTimer, t, s₁) =>
      match s₁.run fromPeriodicTimer t turns with
      | some (.ok s') => some s'
      | _ => none

theorem leads_of_handle {turns : Nat} {s s' : SequencerImpl L} (h : handle turns s e = some s') :
    Leads s e s' := by
  unfold handle at h
  split at h
  · cases h
    exact .complete _
  · split at h
    · cases h
    · rename_i henters
      split at h
      · rename_i hrun
        cases h
        exact .run henters ⟨turns, hrun⟩
      · cases h

theorem reaches_of_handle {turns : Nat} {idleStrategy : Api.SequencerIdleStrategy}
    {clock : Int} {es : List Event} {s : SequencerImpl L}
    (h : es.foldlM (handle turns) (SequencerImpl.init L idleStrategy chain clock) = some s) :
    Reaches L idleStrategy chain clock es s :=
  (Lts.Run.of_foldlM h).mono (fun _ _ _ => leads_of_handle)

/-- One request per second from time zero, for one second. -/
def oneSecond : Pace := ⟨⟨⟨1⟩, by decide⟩, 0, 1000000⟩

/-- A turn at a time, with the outcomes of its target calls. -/
def turnAt (time : Int) (target : Nat → Outcome) : Turn := ⟨time, fun _ => 0, target⟩

/-- The target starts what it is asked to, and completes it inside the call at 0.9 seconds. -/
def prompt : Nat → Outcome := fun k => { couldStart := true, completes := [⟨k, 900000000⟩] }

/-- The half second passes, and the one request goes out and completes before its call returns. -/
theorem initiated_le_oneSecond :
    ∃ es s, Reaches oneSecond.limiter .poll [.duration 0 1000000] 0 es s
      ∧ (s.targetsInitiated, s.targetsCompleted) = (1, 1) ∧ s.clock = 900000000
      ∧ (s.targetsInitiated : Int) ≤ oneSecond.bound := by
  obtain ⟨s, hs, hval⟩ := Option.map_eq_some_iff.mp (show
    ([Event.start (turnAt 0 prompt), .periodicTimer (turnAt 500000000 prompt)].foldlM (handle 3)
      (SequencerImpl.init oneSecond.limiter .poll [.duration 0 1000000] 0)).map
        (fun s => ((s.targetsInitiated, s.targetsCompleted), s.clock))
      = some ((1, 1), 900000000) by decide +kernel)
  obtain ⟨hcounts, hclock⟩ := Prod.mk.inj hval
  have hreach := reaches_of_handle hs
  refine ⟨_, s, hreach, hcounts, hclock,
    (initiated_le_of_timely oneSecond (by decide) hreach ?_).1⟩
  have htimely : ∀ k, ∀ c ∈ (prompt k).completes, c.time ≤ oneSecond.limit := by
    intro k c hc
    rw [List.mem_singleton.mp hc]
    exact (by decide : (900000000 : Int) ≤ oneSecond.limit)
  intro e he
  rcases List.mem_cons.mp he with rfl | he
  · exact htimely
  · rw [List.mem_singleton.mp he]
    exact htimely

/-- Every target call takes a second and completes inside the call. -/
def slow : Nat → Outcome := fun k =>
  { couldStart := true, completes := [⟨k, 500000000 + (k + 1) * 1000000000⟩] }

theorem due_oneSecond (k : Nat) :
    oneSecond.linear.due (500000000 + k * 1000000000) = k + 1 := by
  rw [LinearRateLimiter.due_eq]
  have : ((500000000 + (k : Int) * 1000000000 : Int) : ℚ) * oneSecond.linear.frequency.value
      / 10 ^ 9 + 1 / 2 = ((k + 1 : Int) : ℚ) := by
    show ((500000000 + (k : Int) * 1000000000 : Int) : ℚ) * ((1 : Nat) : ℚ) / 10 ^ 9 + 1 / 2
      = ((k + 1 : Int) : ℚ)
    push_cast
    ring
  rw [this, Int.floor_intCast]

/-- What the linear limiter has counted. -/
def counts (s : SequencerImpl oneSecond.limiter) : BaseState := s.rateLimiter.rateLimiter

/-- Where the loop is after `k` slow calls: one more acquisition has come due. -/
structure AfterSlow (k : Nat) (s : SequencerImpl oneSecond.limiter) : Prop where
  clock : s.clock = 500000000 + k * 1000000000
  counts : s.counts = ⟨some 0, 0, k⟩
  calls : s.calls = k
  pending : s.pending = []

section

variable {k : Nat} {s : SequencerImpl oneSecond.limiter} (h : AfterSlow k s)
include h

/-- The limiter has one acquisition to give. -/
theorem AfterSlow.tryAcquireOne : ∃ r : oneSecond.limiter.State,
      oneSecond.limiter.tryAcquireOne s.clock s.rateLimiter = (true, r)
        ∧ r.rateLimiter = ⟨some 0, 0, (k + 1 : Nat)⟩ := by
  have hlinear : oneSecond.linear.tryAcquireOne s.clock ⟨some 0, 0, k⟩
      = (true, ⟨some 0, 0, (k + 1 : Nat)⟩) := by
    unfold LinearRateLimiter.tryAcquireOne
    rw [if_neg (by simp)]
    unfold BaseState.recount BaseState.elapsed
    dsimp only
    rw [Int.sub_zero, h.clock, due_oneSecond, if_pos (by omega)]
    unfold BaseState.take
    push_cast
    congr 2
    omega
  refine ⟨⟨true, ⟨some 0, 0, (k + 1 : Nat)⟩⟩, ?_, rfl⟩
  show (ScheduledStartingRateLimiter.mk 0).tryAcquireOne s.clock s.rateLimiter = _
  unfold ScheduledStartingRateLimiter.tryAcquireOne
  dsimp only
  rw [if_neg (by rw [h.clock]; omega), show s.rateLimiter.rateLimiter = _ from h.counts]
  show (let (acquired, r) := oneSecond.linear.tryAcquireOne s.clock ⟨some 0, 0, k⟩
    (acquired, (⟨true, r⟩ : ScheduledStartingRateLimiter.State oneSecond.linear.limiter))) = _
  rw [hlinear]
  rfl

theorem AfterSlow.turn (now : Int) :
    ∃ s', s.turn now (slow k) = .ok (true, s') ∧ AfterSlow (k + 1) s' := by
  obtain ⟨r, hr, hcounts⟩ := h.tryAcquireOne
  have hcall : AfterSlow (k + 1) ({ s with rateLimiter := r }.call now (slow k)) := by
    have hlookup : (s.pending ++ [(s.calls, now)]).lookup k = some now := by
      rw [h.pending, h.calls]
      simp
    unfold call slow
    rw [List.foldl_cons, List.foldl_nil]
    unfold complete
    rw [if_pos rfl, hlookup]
    refine ⟨?_, hcounts, congrArg (· + 1) h.calls, ?_⟩
    · show max s.clock _ = _
      rw [h.clock]
      push_cast
      omega
    · dsimp only [updateApproximateMonotonicTime]
      rw [h.pending, h.calls]
      simp
  unfold SequencerImpl.turn
  rw [hr]
  refine ⟨_, rfl, ?_⟩
  unfold started unblockAndUpdateStatisticIfNeeded
  split
  · exact ⟨hcall.clock, hcall.counts, hcall.calls, hcall.pending⟩
  · exact ⟨hcall.clock, hcall.counts, hcall.calls, hcall.pending⟩

end

/-- **The loop never ends.** -/
theorem AfterSlow.acquire (now : Int) (turns : Nat) : ∀ {k : Nat}
    {s : SequencerImpl oneSecond.limiter}, AfterSlow k s →
      SequencerImpl.acquire now slow turns k s = none := by
  induction turns with
  | zero =>
    intro k s _
    rfl
  | succ turns ih =>
    intro k s h
    obtain ⟨s', hs', h'⟩ := h.turn now
    rw [SequencerImpl.acquire, hs']
    exact ih h'

/-- Two calls, of which the first takes a second and completes inside the call. -/
def slowThenPrompt : Nat → Outcome
  | 0 => slow 0
  | _ => { couldStart := true }

/-- **A completion inside a call, after the duration is over, breaks both**: two calls are initiated
where one would do, and a `run` whose calls all take a second never returns. -/
theorem overrun_of_completion_inside :
    (∃ es s, Reaches oneSecond.limiter .poll [.duration 0 1000000] 0 es s
        ∧ oneSecond.bound < s.targetsInitiated)
      ∧ ∃ es s e fromPeriodicTimer t s₁,
        Reaches oneSecond.limiter .poll [.duration 0 1000000] 0 es s
          ∧ Event.enters e s = some (fromPeriodicTimer, t, s₁)
          ∧ ∀ turns, s₁.run fromPeriodicTimer t turns = none := by
  constructor
  · obtain ⟨s, hs, hinit⟩ := Option.map_eq_some_iff.mp (show
      ([Event.start (turnAt 0 prompt),
        .periodicTimer (turnAt 500000000 slowThenPrompt)].foldlM (handle 3)
        (SequencerImpl.init oneSecond.limiter .poll [.duration 0 1000000] 0)).map
          (fun s => decide (oneSecond.bound < s.targetsInitiated)) = some true by decide +kernel)
    exact ⟨_, s, reaches_of_handle hs, of_decide_eq_true hinit⟩
  · obtain ⟨s, hs, hstate⟩ := Option.map_eq_some_iff.mp (show
      ([Event.start (turnAt 0 prompt)].foldlM (handle 3)
        (SequencerImpl.init oneSecond.limiter .poll [.duration 0 1000000] 0)).map
          (fun s => decide (s.clock = 0 ∧ s.counts = ⟨some 0, 0, 0⟩
            ∧ s.calls = 0 ∧ s.pending = [] ∧ s.periodicTimer = .armed 25
            ∧ s.lastTerminationStatus = .proceed
            ∧ s.terminationPredicate = [.duration 0 1000000])) = some true by decide +kernel)
    obtain ⟨hclock, hcounts, hcalls, hpending, htimer, hstatus, hchain⟩ := of_decide_eq_true hstate
    refine ⟨_, s, .periodicTimer (turnAt 500000000 slow), true, turnAt 500000000 slow,
      { s with periodicTimer := .disabled }, reaches_of_handle hs, ?_, fun turns => ?_⟩
    · rw [Event.enters, htimer]
    · have hbegin : ({ s with periodicTimer := .disabled }.begin
          (turnAt 500000000 slow)).lastTerminationStatus = .proceed := by
        unfold SequencerImpl.begin updateApproximateMonotonicTime
        dsimp only
        rw [if_pos hstatus, hchain, hclock]
        rfl
      have hslow : AfterSlow 0 ({ s with periodicTimer := .disabled }.begin
          (turnAt 500000000 slow)) := by
        refine ⟨?_, hcounts, hcalls, hpending⟩
        show max s.clock 500000000 = _
        rw [hclock]
        rfl
      unfold SequencerImpl.run
      rw [if_neg (not_not.mpr hbegin)]
      exact congrArg (Option.map _) (hslow.acquire _ turns)

end SequencerImpl

end Sortie.Engine
