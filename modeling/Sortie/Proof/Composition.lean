import Sortie.Lib.Checks
import Sortie.Proof.RateLimiter

/-!
# Compositions of limiters

A wrapping limiter forwards the promise that nothing is released too soon. What it
needs of the limiter it wraps is the promise itself and an invariant that the calls
it forwards keep, so each wrapper is one lemma and a composition is an induction.

A limiter with a schedule also keeps its books: its count is what was handed out and
not given back, so this count, an unsigned number in the source, never has to go
below zero.
-/

namespace Sortie.Engine

/-! ## The limiters that wrap one -/

section Wrapping

variable {L : RateLimiter} {I : Int → L.State → Prop}
variable {t : Int}

namespace BurstingRateLimiter

variable (b : BurstingRateLimiter)

/-- The loop only ever asks the wrapped limiter. -/
theorem accumulate_keeps (h : L.Keeps I) (turns : Nat) :
    ∀ {s : State L}, I t s.rateLimiter → I t (b.accumulate t turns s).2.rateLimiter := by
  induction turns with
  | zero =>
    intro s hs
    exact hs
  | succ turns ih =>
    intro s hs
    have hr := h.acquire hs
    rw [accumulate]
    split
    · rename_i r he
      rwa [he] at hr
    · rename_i r he
      rw [he] at hr
      dsimp only
      split
      · exact hr
      · exact ih hr

theorem keeps (h : L.Keeps I) : (b.limiter L).Keeps (fun t s => I t s.rateLimiter) where
  initial := h.initial
  later := h.later
  acquire := fun {t s} hs => by
    show I t (b.tryAcquireOne t s).2.rateLimiter
    unfold tryAcquireOne
    split
    · exact hs
    · exact b.accumulate_keeps h _ hs
  release := fun hs hr => by
    cases hr
    exact hs
  elapsed := h.elapsed

/-- There is always a turn to make: a burst that is not being released is not full. -/
theorem turns_pos (n : Nat) : 0 < b.burstSize - n % b.burstSize := by
  have := Nat.mod_lt n b.positive
  omega

theorem waits (h : L.Waits I) : (b.limiter L).Waits (fun t s => I t s.rateLimiter) := by
  intro t t' d s hs hd ht ht'
  show (b.tryAcquireOne t' s).1 = false
  have hd : (if s.releasing then some 0 else L.timeUntilNextRelease t s.rateLimiter) = some d := hd
  by_cases hrel : s.releasing = true
  · rw [if_pos hrel] at hd
    cases hd
    omega
  · rw [if_neg hrel] at hd
    have hfalse := h hs hd ht ht'
    unfold tryAcquireOne
    rw [if_neg hrel]
    obtain ⟨turns, hturns⟩ := Nat.exists_eq_add_of_lt (b.turns_pos s.accumulated)
    rw [hturns, Nat.zero_add, accumulate]
    split
    · rfl
    · rename_i r he
      rw [he] at hfalse
      cases hfalse

end BurstingRateLimiter

namespace ScheduledStartingRateLimiter

variable (c : ScheduledStartingRateLimiter)

/-- A release that succeeded came after the start and was forwarded. -/
theorem releaseOne_ok {s s' : State L} (h : c.releaseOne t s = .ok s') :
    c.scheduledStartingTime ≤ t ∧ L.releaseOne t s.rateLimiter = .ok s'.rateLimiter := by
  unfold releaseOne at h
  split at h
  · cases h
  · rename_i ht
    obtain ⟨r, hr, hret⟩ := Checks.bind_ok_iff.mp h
    cases hret
    exact ⟨not_lt.mp ht, hr⟩

theorem keeps (h : L.Keeps I) : (c.limiter L).Keeps (fun t s => I t s.rateLimiter) where
  initial := h.initial
  later := h.later
  acquire := fun {t s} hs => by
    show I t (c.tryAcquireOne t s).2.rateLimiter
    unfold tryAcquireOne
    split
    · exact hs
    · exact h.acquire hs
  release := fun hs hr => h.release hs (c.releaseOne_ok hr).2
  elapsed := h.elapsed

theorem waits (h : L.Waits I) : (c.limiter L).Waits (fun t s => I t s.rateLimiter) := by
  intro t t' d s hs hd ht ht'
  show (c.tryAcquireOne t' s).1 = false
  have hd : (if t < c.scheduledStartingTime then some (c.scheduledStartingTime - t)
    else L.timeUntilNextRelease t s.rateLimiter) = some d := hd
  unfold tryAcquireOne
  by_cases hstart : t < c.scheduledStartingTime
  · rw [if_pos hstart] at hd
    have hd := Option.some.inj hd
    rw [if_pos (by omega)]
  · rw [if_neg hstart] at hd
    rw [if_neg (by omega)]
    exact h hs hd ht ht'

end ScheduledStartingRateLimiter

namespace DelegatingRateLimiterImpl

variable (c : DelegatingRateLimiterImpl)

theorem enqueue_rateLimiter (t : Int) (s : State L) :
    (c.enqueue t s).rateLimiter = (L.tryAcquireOne t s.rateLimiter).2 := by
  unfold enqueue
  split
  · rename_i r he
    rw [he]
  · rename_i r he
    rw [he]

/-- Handing out a queued timing does not concern the wrapped limiter. -/
theorem tryAcquireOne_rateLimiter (t : Int) (s : State L) :
    (c.tryAcquireOne t s).2.rateLimiter = (L.tryAcquireOne t s.rateLimiter).2 := by
  rw [← c.enqueue_rateLimiter]
  unfold tryAcquireOne
  dsimp only
  split
  · rfl
  · split <;> rfl

theorem releaseOne_ok {s s' : State L} (h : releaseOne t s = .ok s') :
    s.sanityCheckPendingRelease = false ∧ s'.distributedTimings = s.distributedTimings
      ∧ L.releaseOne t s.rateLimiter = .ok s'.rateLimiter := by
  unfold releaseOne at h
  split at h
  · cases h
  · rename_i hs
    obtain ⟨r, hr, hret⟩ := Checks.bind_ok_iff.mp h
    cases hret
    exact ⟨by simpa using hs, rfl, hr⟩

theorem keeps (h : L.Keeps I) : (c.limiter L).Keeps (fun t s => I t s.rateLimiter) where
  initial := h.initial
  later := h.later
  acquire := fun {t} {s : State L} hs => by
    show I t (c.tryAcquireOne t s).2.rateLimiter
    rw [tryAcquireOne_rateLimiter]
    exact h.acquire hs
  release := fun hs hr => h.release hs (releaseOne_ok hr).2.2
  elapsed := h.elapsed

/-- While the wrapped limiter releases nothing and the front of the queue is still to come, there
is nothing to hand out. -/
theorem tryAcquireOne_false {s : State L} (hw : (L.tryAcquireOne t s.rateLimiter).1 = false)
    (hq : ∀ front ∈ s.distributedTimings.head?, t < front) : (c.tryAcquireOne t s).1 = false := by
  have henq : (c.enqueue t s).distributedTimings = s.distributedTimings := by
    unfold enqueue
    split
    · rfl
    · rename_i r he
      rw [he] at hw
      cases hw
  unfold tryAcquireOne
  dsimp only
  split
  · rfl
  · rename_i front rest hcons
    rw [henq] at hcons
    have hfront := hq front (by rw [hcons]; rfl)
    rw [if_neg (by omega)]

theorem waits (h : L.Waits I) : (c.limiter L).Waits (fun t s => I t s.rateLimiter) := by
  intro t t' d s hs hd ht ht'
  have hd : timeUntilNextRelease t s = some d := hd
  unfold timeUntilNextRelease at hd
  cases hw : L.timeUntilNextRelease t s.rateLimiter with
  | none =>
    rw [hw] at hd
    cases hd
  | some wrapped =>
    rw [hw] at hd
    cases hq : s.distributedTimings with
    | nil =>
      rw [hq] at hd
      cases hd
      refine c.tryAcquireOne_false (h hs hw ht ht') ?_
      rw [hq]
      intro front hfront
      cases hfront
    | cons first rest =>
      rw [hq] at hd
      have hd := Option.some.inj hd
      refine c.tryAcquireOne_false (h hs hw ht (by omega)) ?_
      rw [hq]
      intro front hfront
      cases hfront
      omega

end DelegatingRateLimiterImpl

namespace FilteringRateLimiterImpl

variable (c : FilteringRateLimiterImpl)

theorem tryAcquireOne_rateLimiter (t : Int) (s : State L) :
    (c.tryAcquireOne t s).2.rateLimiter = (L.tryAcquireOne t s.rateLimiter).2 := by
  unfold tryAcquireOne
  split
  · rename_i r he
    rw [he]
  · rename_i r he
    rw [he]

theorem releaseOne_ok {s s' : State L} (h : (c.limiter L).releaseOne t s = .ok s') :
    L.releaseOne t s.rateLimiter = .ok s'.rateLimiter := by
  obtain ⟨r, hr, hret⟩ := Checks.bind_ok_iff.mp h
  cases hret
  exact hr

theorem keeps (h : L.Keeps I) : (c.limiter L).Keeps (fun t s => I t s.rateLimiter) where
  initial := h.initial
  later := h.later
  acquire := fun {t} {s : State L} hs => by
    show I t (c.tryAcquireOne t s).2.rateLimiter
    rw [tryAcquireOne_rateLimiter]
    exact h.acquire hs
  release := fun hs hr => h.release hs (c.releaseOne_ok hr)
  elapsed := h.elapsed

theorem waits (h : L.Waits I) : (c.limiter L).Waits (fun t s => I t s.rateLimiter) := by
  intro t t' d s hs hd ht ht'
  have hfalse := h hs hd ht ht'
  show (c.tryAcquireOne t' s).1 = false
  unfold tryAcquireOne
  split
  · rfl
  · rename_i r he
    rw [he] at hfalse
    cases hfalse

end FilteringRateLimiterImpl

end Wrapping

/-! ## The books -/

/-- `J n s` says that `n` acquisitions are out when the limiter is in state `s`. Every call keeps
this up to date. -/
structure RateLimiter.Accounts (L : RateLimiter) (J : Nat → L.State → Prop) : Prop where
  initial : J 0 L.initial
  acquire : ∀ {n t s}, J n s → J (n + (L.tryAcquireOne t s).1.toNat) (L.tryAcquireOne t s).2
  release : ∀ {n t s s'}, J (n + 1) s → L.releaseOne t s = .ok s' → J n s'
  elapsed : ∀ {n t s}, J n s → J n (L.elapsed t s).2

theorem RateLimiter.Accounts.reaches {L : RateLimiter} {J : Nat → L.State → Prop}
    (h : L.Accounts J) {t₀ : Int} {calls : List (Int × RateLimiter.Call)} {u : L.Use}
    (hu : L.Reaches t₀ calls u) : J u.net u.state := by
  refine hu.invariant (P := fun u => J u.net u.state) h.initial ?_
  rintro a ⟨now, call⟩ b ha ⟨-, hb⟩
  cases call with
  | tryAcquireOne =>
    cases hb
    have := h.acquire (t := now) ha
    cases hacq : (L.tryAcquireOne now a.state).1 with
    | false | true =>
      rw [hacq] at this
      simpa [hacq] using this
  | elapsed =>
    cases hb
    exact h.elapsed ha
  | releaseOne =>
    obtain ⟨h0, s, hs, rfl⟩ := RateLimiter.Use.step_releaseOne hb
    exact h.release (by rwa [Nat.sub_add_cancel (Nat.pos_of_ne_zero h0)]) hs

/-- Both limiters with a schedule count exactly what is out. -/
def BaseState.Counts (n : Nat) (s : BaseState) : Prop := s.acquiredCount = n

namespace BaseState

variable {n : Nat} {s : BaseState}
variable {t : Int}

theorem Counts.take (h : Counts n s) : Counts (n + 1) s.take := by
  have h : s.acquiredCount = n := h
  show s.acquiredCount + 1 = (n + 1 : Nat)
  omega

theorem Counts.elapsed (h : Counts n s) : Counts n (s.elapsed t).2 := by
  obtain ⟨start, -, -, hacq, -⟩ := elapsed_started t s
  exact hacq.trans h

theorem Counts.recount {total : Int → Int} (h : Counts n s) :
    Counts (n + (s.recount total t).1.toNat) (s.recount total t).2 := by
  unfold BaseState.recount
  dsimp only
  split
  · exact Counts.take (s := { (s.elapsed t).2 with acquireableCount := _ }) (Counts.elapsed h)
  · exact Counts.elapsed h

/-- What is ready is taken first. -/
theorem Counts.acquire {ready : Prop} [Decidable ready] {total : Int → Int} (h : Counts n s) :
    Counts (n + (if ready then (true, s.take) else s.recount total t).1.toNat)
      (if ready then (true, s.take) else s.recount total t).2 := by
  split
  · exact h.take
  · exact h.recount

theorem Counts.release {s' : BaseState} (h : Counts (n + 1) s)
    (hr : Except.ok (ε := ReleaseFault) s.releaseOne = .ok s') : Counts n s' := by
  cases hr
  have h : s.acquiredCount = (n + 1 : Nat) := h
  show s.acquiredCount - 1 = n
  omega

end BaseState

theorem LinearRateLimiter.accounts (l : LinearRateLimiter) :
    l.limiter.Accounts BaseState.Counts where
  initial := rfl
  acquire := BaseState.Counts.acquire
  release := BaseState.Counts.release
  elapsed := BaseState.Counts.elapsed

theorem LinearRampingRateLimiterImpl.accounts (l : LinearRampingRateLimiterImpl) :
    l.limiter.Accounts BaseState.Counts where
  initial := rfl
  acquire := BaseState.Counts.acquire
  release := BaseState.Counts.release
  elapsed := BaseState.Counts.elapsed

/-! ## Compositions -/

namespace Composition

/-- The invariant of a composition is the one of the limiter at its core. -/
def Good : (c : Composition) → Int → c.limiter.State → Prop
  | linear l => BaseState.OnSchedule l.due
  | ramping l => BaseState.OnSchedule l.total
  | bursting _ c => fun t s => c.Good t s.rateLimiter
  | scheduledStarting _ c => fun t s => c.Good t s.rateLimiter
  | delegating _ c => fun t s => c.Good t s.rateLimiter
  | filtering _ c => fun t s => c.Good t s.rateLimiter

theorem keeps_good (c : Composition) : c.limiter.Keeps c.Good := by
  induction c with
  | linear l => exact l.keeps
  | ramping l => exact l.keeps
  | bursting b c ih => exact b.keeps ih
  | scheduledStarting t c ih => exact t.keeps ih
  | delegating d c ih => exact d.keeps ih
  | filtering f c ih => exact f.keeps ih

theorem waits_good (c : Composition) : c.limiter.Waits c.Good := by
  induction c with
  | linear l => exact l.waits
  | ramping l => exact l.waits
  | bursting b c ih => exact b.waits ih
  | scheduledStarting t c ih => exact t.waits ih
  | delegating d c ih => exact d.waits ih
  | filtering f c ih => exact f.waits ih

/-- A limiter with a schedule that nothing is wrapped around, and whose clock runs. -/
def bareStarted : (c : Composition) → c.limiter.State → Bool
  | linear _ => BaseState.started
  | ramping _ => BaseState.started
  | _ => fun _ => false

theorem tryAcquireOne_at (c : Composition) {t d : Int} {s : c.limiter.State} (hg : c.Good t s)
    (hb : c.bareStarted s = true) (hd : c.limiter.timeUntilNextRelease t s = some d) :
    (c.limiter.tryAcquireOne (t + d) s).1 = true := by
  cases c with
  | linear l =>
    show (l.tryAcquireOne (t + d) s).1 = true
    rw [l.tryAcquireOne_eq hg.nonneg]
    exact BaseState.tryAcquire_at l.inverts hg hb ((l.timeUntilNextRelease_eq t s).symm.trans hd)
  | ramping l => exact BaseState.tryAcquire_at l.inverts hg hb hd
  | bursting b c | scheduledStarting t c | delegating d c | filtering f c => cases hb

/-- **The wait a composition reports is never too long, and exact at its core.** Wherever calls can
lead, nothing is released before the reported time is over; a bare limiter with a running clock
releases when it is. -/
theorem timeUntilNextRelease_sound (c : Composition) {t₀ : Int}
    {calls : List (Int × RateLimiter.Call)} {u : c.limiter.Use}
    (hu : c.limiter.Reaches t₀ calls u) {t d : Int} (ht : u.now ≤ t)
    (hd : c.limiter.timeUntilNextRelease t u.state = some d) :
    (∀ t', t ≤ t' → t' < t + d → (c.limiter.tryAcquireOne t' u.state).1 = false)
      ∧ (c.bareStarted u.state = true → (c.limiter.tryAcquireOne (t + d) u.state).1 = true) := by
  have hg : c.Good t u.state := c.keeps_good.later ht (c.keeps_good.reaches hu)
  exact ⟨fun t' h h' => c.waits_good hg hd h h', fun hb => c.tryAcquireOne_at hg hb hd⟩

/-- One request per second, asked for one at time zero: the first is due after half a second, and
not a nanosecond sooner. -/
theorem timeUntilNextRelease_oneHertz :
    let c := linear ⟨⟨1⟩, by decide⟩
    ∃ u, c.limiter.Reaches 0 [(0, .tryAcquireOne)] u
      ∧ c.limiter.timeUntilNextRelease 0 u.state = some 500000000
      ∧ (c.limiter.tryAcquireOne 499999999 u.state).1 = false
      ∧ (c.limiter.tryAcquireOne 500000000 u.state).1 = true := by
  intro c
  obtain ⟨u, hu, hnow, hstarted, hd⟩ : ∃ u : c.limiter.Use,
      c.limiter.Reaches 0 [(0, .tryAcquireOne)] u ∧ u.now ≤ 0 ∧ c.bareStarted u.state = true
        ∧ c.limiter.timeUntilNextRelease 0 u.state = some 500000000 :=
    ⟨_, Lts.Run.nil.snoc ⟨by decide, rfl⟩, by decide, by decide +kernel, by decide +kernel⟩
  obtain ⟨hbefore, hat⟩ := c.timeUntilNextRelease_sound hu hnow hd
  exact ⟨u, hu, hd, hbefore _ (by decide) (by decide), hat hstarted⟩

end Composition

end Sortie.Engine
