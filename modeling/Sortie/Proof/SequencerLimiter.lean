import Sortie.Proof.Bursts
import Sortie.Proof.Jitter
import Sortie.Proof.Schedule

/-!
# The limiter of a worker

`SequencerFactoryImpl::create` nests up to three limiters around a schedule. The
sequencer gives an acquisition back right after it got it, and every wrapper takes
what is given back for the last thing it handed out. A queue between two of them
breaks that: it hands out what was acquired by an earlier call.
-/

namespace Sortie.Engine

open RateLimiter

/-- A call of `tryAcquireOne`. -/
theorem RateLimiter.Watch.Reaches.asked {W : RateLimiter} {log : W.State → List Entry} {t₀ t : Int}
    {calls : List (Int × RateLimiter.Call)} {w : W.Watch} {a : Bool} {s : W.State}
    (h : Watch.Reaches log t₀ calls w) (ht : w.now ≤ t)
    (hres : W.tryAcquireOne t w.state = (a, s)) :
    ∃ v, Watch.Reaches log t₀ (calls ++ [(t, .tryAcquireOne)]) v ∧ v.state = s ∧ v.fresh = a
      ∧ v.now = t :=
  ⟨_, h.snoc ⟨ht, rfl⟩, congrArg Prod.snd hres, congrArg Prod.fst hres, rfl⟩

namespace Composition

/-- The assertions that a `releaseOne` meets on its way. -/
def AssertsHold : (c : Composition) → Int → c.limiter.State → Prop
  | linear _, _, _ => True
  | ramping _, _, _ => True
  | bursting b _, _, s => b.CanRelease s
  | scheduledStarting t c, now, s =>
    t.scheduledStartingTime ≤ now
      ∧ c.AssertsHold now (ScheduledStartingRateLimiter.State.rateLimiter s)
  | delegating _ c, now, s =>
    DelegatingRateLimiterImpl.State.sanityCheckPendingRelease s = false
      ∧ c.AssertsHold now (DelegatingRateLimiterImpl.State.rateLimiter s)
  | filtering _ c, now, s => c.AssertsHold now (FilteringRateLimiterImpl.State.rateLimiter s)

/-- A `tryAcquireOne` that starts to release a burst has the whole of it. -/
def BurstsFull : (c : Composition) → c.limiter.State → Prop
  | linear _, _ => True
  | ramping _, _ => True
  | bursting b c, s =>
    (BurstingRateLimiter.State.releasing s = false → ∀ t, (b.tryAcquireOne t s).1 = true →
      (b.tryAcquireOne t s).2.accumulated + 1 = b.burstSize)
      ∧ c.BurstsFull (BurstingRateLimiter.State.rateLimiter s)
  | scheduledStarting _ c, s => c.BurstsFull (ScheduledStartingRateLimiter.State.rateLimiter s)
  | delegating _ c, s => c.BurstsFull (DelegatingRateLimiterImpl.State.rateLimiter s)
  | filtering _ c, s => c.BurstsFull (FilteringRateLimiterImpl.State.rateLimiter s)

/-- Acquisitions are handed out, and given back at once or never, without any harm. -/
def ReleasesSafely (c : Composition) : Prop :=
  ∀ t₀ calls (w : c.limiter.Watch), Watch.Reaches (fun _ => []) t₀ calls w →
    c.BurstsFull w.state ∧ (w.fresh = true → ∀ t, w.now ≤ t →
      c.AssertsHold t w.state ∧ ∃ s, c.limiter.releaseOne t w.state = .ok s)

end Composition

/-! ## Without a queue, or without bursts -/

namespace BurstingRateLimiter

variable {L : RateLimiter} (b : BurstingRateLimiter) {s : State L} {t : Int}

/-- A burst that goes out now is a whole one. -/
theorem Sound.full (h : b.Sound s) (hrel : s.releasing = false)
    (hacq : (b.tryAcquireOne t s).1 = true) :
    (b.tryAcquireOne t s).2.accumulated + 1 = b.burstSize := by
  rcases b.tryAcquireOne_cases (t := t) h with
    ⟨hr, -⟩ | ⟨-, n, r, r', -, -, -, hres⟩ | ⟨-, n, r', -, -, hres⟩
  · exact nomatch hrel.symm.trans hr
  · rw [hres] at hacq
    cases hacq
  · rw [hres]
    exact Nat.sub_add_cancel b.positive

end BurstingRateLimiter

variable {L : RateLimiter}

theorem ScheduledStartingRateLimiter.le_of_acquired {c : ScheduledStartingRateLimiter} {t : Int}
    {s : State L} (h : (c.tryAcquireOne t s).1 = true) : c.scheduledStartingTime ≤ t := by
  unfold tryAcquireOne at h
  split at h
  · cases h
  · omega

theorem DelegatingRateLimiterImpl.releaseOne_of_ok {t : Int} {s : State L}
    {r : L.State} (hs : s.sanityCheckPendingRelease = false)
    (hr : L.releaseOne t s.rateLimiter = .ok r) : ∃ s', releaseOne t s = .ok s' := by
  unfold releaseOne
  rw [hs, hr]
  exact ⟨_, rfl⟩

namespace Composition

variable (l : LinearRateLimiter) (start : Int)

theorem releaseOne_scheduled {t : Int} (ht : start ≤ t)
    (s : ScheduledStartingRateLimiter.State l.limiter) :
    ScheduledStartingRateLimiter.releaseOne ⟨start⟩ t s
      = .ok { s with rateLimiter := BaseState.releaseOne s.rateLimiter } := by
  unfold ScheduledStartingRateLimiter.releaseOne
  rw [if_neg (by dsimp only; omega)]
  rfl

theorem releasesSafely_scheduled : (scheduledStarting ⟨start⟩ (linear l)).ReleasesSafely := by
  intro t₀ calls w hw
  have hstart : w.fresh = true → start ≤ w.now := by
    refine hw.induct (P := fun w => w.fresh = true → start ≤ w.now) nofun ?_ ?_ ?_
    · rintro w t acquired s - - hcall
      refine ⟨[], rfl, ?_⟩
      rintro rfl
      exact ScheduledStartingRateLimiter.le_of_acquired (congrArg Prod.fst hcall)
    · rintro w t s - - - -
      exact ⟨[], rfl, fun h => by cases h⟩
    · intro w t h ht hf
      exact (h hf).trans ht
  exact ⟨trivial, fun hf t ht => ⟨⟨(hstart hf).trans ht, trivial⟩,
    _, releaseOne_scheduled l start ((hstart hf).trans ht) _⟩⟩

theorem releasesSafely_bursting (b : BurstingRateLimiter) :
    (bursting b (scheduledStarting ⟨start⟩ (linear l))).ReleasesSafely := by
  intro t₀ calls w hw
  have hsound : b.Sound w.state ∧ (w.fresh = true → b.CanRelease w.state) := by
    refine hw.induct (P := fun w => b.Sound w.state ∧ (w.fresh = true → b.CanRelease w.state))
      ⟨b.sound_initial, fun h => by cases h⟩ ?_ ?_ ?_
    · rintro w t acquired s ⟨h, -⟩ - hcall
      obtain ⟨rfl, rfl⟩ := Prod.mk.inj hcall
      exact ⟨[], rfl, h.tryAcquireOne b, fun hacq => b.canRelease_of_acquired h hacq⟩
    · rintro w t s ⟨-, h⟩ - hf hs
      cases hs
      exact ⟨[], rfl, .releaseOne b (h hf), fun h => by cases h⟩
    · rintro w t ⟨h, hf⟩ -
      exact ⟨⟨h.bounded, h.short, h.positive⟩, hf⟩
  exact ⟨⟨fun hrel t hacq => hsound.1.full b hrel hacq, trivial⟩,
    fun hf t _ => ⟨hsound.2 hf, _, rfl⟩⟩

/-- The queue holds times after the start, so nothing comes due before it. -/
theorem releasesSafely_delegating (d : DelegatingRateLimiterImpl) :
    (delegating d (scheduledStarting ⟨start⟩ (linear l))).ReleasesSafely := by
  intro t₀ calls w hw
  have hqueue : (∀ v ∈ DelegatingRateLimiterImpl.State.distributedTimings w.state, start ≤ v)
      ∧ (w.fresh = true → start ≤ w.now
        ∧ DelegatingRateLimiterImpl.State.sanityCheckPendingRelease w.state = false) := by
    refine hw.induct (P := fun w =>
      (∀ v ∈ DelegatingRateLimiterImpl.State.distributedTimings w.state, start ≤ v)
        ∧ (w.fresh = true → start ≤ w.now
          ∧ DelegatingRateLimiterImpl.State.sanityCheckPendingRelease w.state = false))
      ⟨fun v (hv : v ∈ []) => (by cases hv), fun h => by cases h⟩ ?_ ?_ ?_
    · rintro w t acquired s ⟨h, -⟩ - hcall
      refine ⟨[], rfl, ?_⟩
      have henq : ∀ v ∈ (d.enqueue t w.state).distributedTimings, start ≤ v := by
        unfold DelegatingRateLimiterImpl.enqueue
        split
        · exact h
        · rename_i r he
          have hle := ScheduledStartingRateLimiter.le_of_acquired (congrArg Prod.fst he)
          intro v hv
          rcases List.mem_cons.mp
            ((DelegatingRateLimiterImpl.insertTiming_perm _ _).mem_iff.mp hv) with rfl | hv
          · dsimp only at hle
            omega
          · exact h v hv
      have hcall : d.tryAcquireOne t w.state = (acquired, s) := hcall
      unfold DelegatingRateLimiterImpl.tryAcquireOne at hcall
      dsimp only at hcall
      split at hcall
      · obtain ⟨rfl, rfl⟩ := Prod.mk.inj hcall
        exact ⟨henq, fun h => by cases h⟩
      · rename_i front rest hq
        rw [hq] at henq
        split at hcall
        · rename_i hfront
          obtain ⟨rfl, rfl⟩ := Prod.mk.inj hcall
          obtain ⟨hle, hrest⟩ := List.forall_mem_cons.mp henq
          exact ⟨hrest, fun _ => ⟨hle.trans hfront, rfl⟩⟩
        · obtain ⟨rfl, rfl⟩ := Prod.mk.inj hcall
          exact ⟨hq ▸ henq, fun h => by cases h⟩
    · rintro w t s ⟨h, -⟩ - - hs
      refine ⟨[], rfl, ?_, fun h => by cases h⟩
      dsimp only
      rw [(DelegatingRateLimiterImpl.releaseOne_ok hs).2.1]
      exact h
    · rintro w t ⟨h, hf⟩ ht
      exact ⟨h, fun hfresh => ⟨(hf hfresh).1.trans ht, (hf hfresh).2⟩⟩
  refine ⟨trivial, fun hf t ht => ?_⟩
  obtain ⟨hle, hsanity⟩ := hqueue.2 hf
  have hrelease := releaseOne_scheduled l start (hle.trans ht)
    (DelegatingRateLimiterImpl.State.rateLimiter w.state)
  exact ⟨⟨hsanity, hle.trans ht, trivial⟩,
    DelegatingRateLimiterImpl.releaseOne_of_ok hsanity hrelease⟩

end Composition

/-! ## A queue around bursts -/

/-- `J n t r` says that `n` acquisitions are out at time `t`; up to `D t` may be, and no means that
all of them are. -/
structure RateLimiter.Allows (L : RateLimiter) (D : Int → Int) (J : Nat → Int → L.State → Prop) :
    Prop where
  later : ∀ {n t t' r}, J n t r → t ≤ t' → J n t' r
  within : ∀ {n t r}, J n t r → (n : Int) ≤ D t
  asked : ∀ {n t r a r'}, J n t r → L.tryAcquireOne t r = (a, r') →
    J (n + a.toNat) t r' ∧ (a = false → D t ≤ n)

theorem RateLimiter.Allows.gives {D : Int → Int} {J : Nat → Int → L.State → Prop}
    (h : L.Allows D J) {t : Int} (k : Nat) : ∀ {n : Nat} {r r' : L.State},
      J n t r → L.Gives t k r r' → J (n + k) t r' := by
  induction k with
  | zero =>
    rintro n r r' hn rfl
    exact hn
  | succ k ih =>
    rintro n r r' hn ⟨r₁, h₁, hk⟩
    rw [Nat.add_comm k, ← Nat.add_assoc]
    exact ih (h.asked hn h₁).1 hk

/-- A linear limiter whose clock was started at the starting time. -/
theorem LinearRateLimiter.allows (l : LinearRateLimiter) (start : Int) :
    ((ScheduledStartingRateLimiter.mk start).limiter l.limiter).Allows (fun t => l.due (t - start))
      (fun n t r => start ≤ t
        ∧ BaseState.startTime (ScheduledStartingRateLimiter.State.rateLimiter r) = some start
        ∧ BaseState.Counts n (ScheduledStartingRateLimiter.State.rateLimiter r)
        ∧ BaseState.OnSchedule l.due t (ScheduledStartingRateLimiter.State.rateLimiter r)) := by
  have hforward : ∀ {t : Int} {a : Bool} {r r' : ScheduledStartingRateLimiter.State l.limiter},
      start ≤ t →
      ((ScheduledStartingRateLimiter.mk start).limiter l.limiter).tryAcquireOne t r = (a, r') →
      l.tryAcquireOne t r.rateLimiter = (a, r'.rateLimiter) := by
    intro t a r r' ht h
    change ScheduledStartingRateLimiter.tryAcquireOne _ t r = _ at h
    unfold ScheduledStartingRateLimiter.tryAcquireOne at h
    rw [if_neg (by dsimp only; omega)] at h
    obtain ⟨rfl, rfl⟩ := Prod.mk.inj h
    rfl
  have hclock : ∀ {t : Int} {s : BaseState}, s.startTime = some start →
      (l.tryAcquireOne t s).2.startTime = some start := by
    intro t s hs
    unfold LinearRateLimiter.tryAcquireOne BaseState.recount BaseState.elapsed
    rw [hs]
    dsimp only
    split
    · exact hs
    · split <;> exact hs
  constructor
  · rintro n t t' r ⟨hle, hs, hn, hon⟩ ht
    exact ⟨hle.trans ht, hs, hn, hon.later l.isSchedule_due ht⟩
  · rintro n t r ⟨-, hs, hn, hon⟩
    have hreached := hon.reached hs
    have hnonneg := hon.nonneg
    rw [show BaseState.acquiredCount _ = _ from hn] at hreached
    omega
  · rintro n t r a r' ⟨hle, hs, hn, hon⟩ h
    have h := hforward hle h
    have hcount : BaseState.Counts (n + (l.tryAcquireOne t _).1.toNat) (l.tryAcquireOne t _).2 :=
      l.accounts.acquire hn
    have hkeep : BaseState.OnSchedule l.due t (l.tryAcquireOne t _).2 := l.keeps.acquire hon
    have hstart := hclock (t := t) hs
    rw [h] at hcount hkeep hstart
    refine ⟨⟨hle, hstart, hcount, hkeep⟩, ?_⟩
    rintro rfl
    rw [l.tryAcquireOne_eq hon.nonneg] at h
    have hall := hon.refused l.isSchedule_due (congrArg Prod.fst h)
    unfold BaseState.elapsed at hall
    rw [hs, show BaseState.acquiredCount _ = _ from hn] at hall
    exact hall.symm.le

namespace BurstingRateLimiter

variable {L : RateLimiter} {D : Int → Int} {J : Nat → Int → L.State → Prop}
  (b : BurstingRateLimiter) {s s' : State L} {t : Int} {k : Nat}

/-- `k` acquisitions were handed out, and what else is out is held. -/
def Handed (J : Nat → Int → L.State → Prop) (k : Nat) (t : Int) (s : State L) : Prop :=
  b.Sound s ∧ J (k + s.accumulated) t s.rateLimiter

theorem Handed.yes (hJ : L.Allows D J) (h : b.Handed J k t s)
    (hacq : b.tryAcquireOne t s = (true, s')) : b.Handed J (k + 1) t s' := by
  have hsound := h.1.tryAcquireOne b (t := t)
  rw [hacq] at hsound
  refine ⟨hsound, ?_⟩
  rcases b.tryAcquireOne_cases (t := t) h.1 with
    ⟨hrel, hres⟩ | ⟨-, n, r, r', -, -, -, hres⟩ | ⟨-, n, r', hg, hn, hres⟩
  · obtain ⟨-, rfl⟩ := Prod.mk.inj (hacq.symm.trans hres)
    have hpos := h.1.positive hrel
    show J (k + 1 + (s.accumulated - 1)) t s.rateLimiter
    rw [show k + 1 + (s.accumulated - 1) = k + s.accumulated by omega]
    exact h.2
  · cases hacq.symm.trans hres
  · obtain ⟨-, rfl⟩ := Prod.mk.inj (hacq.symm.trans hres)
    show J (k + 1 + (b.burstSize - 1)) t r'
    rw [show k + 1 + (b.burstSize - 1) = k + s.accumulated + (n + 1) by omega]
    exact hJ.gives _ h.2 hg

theorem Handed.no (hJ : L.Allows D J) (h : b.Handed J k t s)
    (hacq : b.tryAcquireOne t s = (false, s')) :
    D t < k + b.burstSize ∧ s'.previouslyReleasing = none := by
  rcases b.tryAcquireOne_cases (t := t) h.1 with
    ⟨-, hres⟩ | ⟨-, n, r, r', hg, hno, hn, hres⟩ | ⟨-, n, r', -, -, hres⟩
  · cases hacq.symm.trans hres
  · obtain ⟨-, rfl⟩ := Prod.mk.inj (hacq.symm.trans hres)
    have hall := (hJ.asked (hJ.gives _ h.2 hg) hno).2 rfl
    refine ⟨?_, rfl⟩
    omega
  · cases hacq.symm.trans hres

end BurstingRateLimiter

/-- A first no leaves a burst as it is. -/
theorem BurstingRateLimiter.tryAcquireOne_no (b : BurstingRateLimiter) {t : Int}
    {s : State L} {r : L.State} (hrel : s.releasing = false)
    (hr : L.tryAcquireOne t s.rateLimiter = (false, r)) :
    b.tryAcquireOne t s = (false, { s with rateLimiter := r, previouslyReleasing := none }) := by
  obtain ⟨turns, hturns⟩ := Nat.exists_eq_add_of_lt (b.turns_pos s.accumulated)
  unfold tryAcquireOne
  rw [if_neg (by rw [hrel]; simp), hturns, Nat.zero_add, accumulate, hr]

namespace DelegatingRateLimiterImpl

variable {L : RateLimiter} {b : BurstingRateLimiter} {D : Int → Int}
  {J : Nat → Int → L.State → Prop}

/-- The sampler answers one nanosecond, and nothing from then on. -/
def oneThenNone : DelegatingRateLimiterImpl := ⟨fun k => if k = 0 then 1 else 0⟩

variable {s : State L} {t : Int} {r : L.State}

theorem tryAcquireOne_nothing {c : DelegatingRateLimiterImpl}
    (hr : L.tryAcquireOne t s.rateLimiter = (false, r)) (hq : s.distributedTimings = []) :
    c.tryAcquireOne t s = (false, { s with rateLimiter := r }) := by
  unfold tryAcquireOne enqueue
  rw [hr]
  simp [hq]

/-- The first acquisition is put off for a nanosecond. -/
theorem tryAcquireOne_first (hr : L.tryAcquireOne t s.rateLimiter = (true, r))
    (hq : s.distributedTimings = []) (hd : s.drawn = 0) :
    oneThenNone.tryAcquireOne t s
      = (false, { s with rateLimiter := r, distributedTimings := [t + 1], drawn := 1 }) := by
  unfold tryAcquireOne enqueue
  rw [hr]
  simp [hq, insertTiming, oneThenNone, hd]

theorem tryAcquireOne_yes (hr : L.tryAcquireOne t s.rateLimiter = (true, r))
    (hq : s.distributedTimings = [t]) (hd : s.drawn ≠ 0) :
    oneThenNone.tryAcquireOne t s
      = (true,
        { s with rateLimiter := r, drawn := s.drawn + 1, sanityCheckPendingRelease := false }) := by
  unfold tryAcquireOne enqueue
  rw [hr]
  simp [hq, insertTiming, oneThenNone, hd]

theorem tryAcquireOne_no (hr : L.tryAcquireOne t s.rateLimiter = (false, r))
    (hq : s.distributedTimings = [t]) :
    oneThenNone.tryAcquireOne t s
      = (true, { s with
          rateLimiter := r, distributedTimings := [], sanityCheckPendingRelease := false }) := by
  unfold tryAcquireOne enqueue
  rw [hr]
  simp [hq]

/-- With one value that has come due in the queue every call hands one out, whatever the bursts
say, and sooner or later they say no. -/
theorem exists_stale_of_due (hJ : L.Allows D J) {t₀ : Int} (left : Nat) :
    ∀ {calls : List (Int × RateLimiter.Call)} {w : (oneThenNone.limiter (b.limiter L)).Watch}
      {k : Nat},
      Watch.Reaches (fun _ => []) t₀ calls w → w.now ≤ t →
      State.distributedTimings w.state = [t] → State.drawn w.state ≠ 0 →
      b.Handed J k t (State.rateLimiter w.state) → D t < k + left →
      ∃ calls, ∃ v : (oneThenNone.limiter (b.limiter L)).Watch,
        Watch.Reaches (fun _ => []) t₀ calls v ∧ v.fresh = true
          ∧ BurstingRateLimiter.State.previouslyReleasing (State.rateLimiter v.state) = none := by
  induction left with
  | zero =>
    intro calls w k _ _ _ _ hk hlt
    have := hJ.within hk.2
    omega
  | succ left ih =>
    intro calls w k hw ht hq hd hk hlt
    cases hr : b.tryAcquireOne t (State.rateLimiter w.state) with
    | mk acquired r =>
      cases acquired with
      | false =>
        obtain ⟨v, hv, hs, hf, -⟩ := hw.asked ht (tryAcquireOne_no (L := b.limiter L) hr hq)
        exact ⟨_, v, hv, hf, (congrArg (·.rateLimiter.previouslyReleasing) hs).trans
          (hk.no b hJ hr).2⟩
      | true =>
        obtain ⟨v, hv, hs, -, hnow⟩ := hw.asked ht (tryAcquireOne_yes (L := b.limiter L) hr hq hd)
        refine ih (k := k + 1) hv hnow.le ?_ ?_ ?_ (by push_cast at hlt ⊢; omega)
        · exact (congrArg State.distributedTimings hs).trans hq
        · rw [congrArg State.drawn hs]
          exact Nat.succ_ne_zero _
        · rw [congrArg State.rateLimiter hs]
          exact hk.yes b hJ hr

theorem exists_stale (hJ : L.Allows D J) {start : Int}
    (hfirst : L.tryAcquireOne start L.initial = (false, r)) (hr : J 0 start r) (ht : start ≤ t)
    (hdue : b.burstSize ≤ D t) :
    ∃ calls, ∃ v : (oneThenNone.limiter (b.limiter L)).Watch,
      Watch.Reaches (fun _ => []) start calls v ∧ v.fresh = true
        ∧ BurstingRateLimiter.State.previouslyReleasing (State.rateLimiter v.state) = none := by
  -- a no, which leaves the bursts with nothing
  have hno := b.tryAcquireOne_no (s := { rateLimiter := L.initial }) rfl hfirst
  have hnew : Watch.Reaches (W := oneThenNone.limiter (b.limiter L)) (fun _ => []) start []
      ⟨_, start, false, []⟩ := Lts.Run.nil
  obtain ⟨w₁, hw₁, hs₁, -, ht₁⟩ := hnew.asked le_rfl
    (tryAcquireOne_nothing (L := b.limiter L) (c := oneThenNone)
      (s := { rateLimiter := { rateLimiter := L.initial } }) hno rfl)
  have hk : b.Handed J 0 t { rateLimiter := r } :=
    ⟨⟨Nat.zero_le _, fun _ => b.positive, fun h => by cases h⟩, hJ.later hr ht⟩
  cases hr : b.tryAcquireOne t { rateLimiter := r } with
  | mk acquired s =>
    cases acquired with
    | false =>
      have := (hk.no b hJ hr).1
      omega
    | true =>
      -- a burst is due, and put off
      obtain ⟨w₂, hw₂, hs₂, -, ht₂⟩ := hw₁.asked (t := t) (ht₁.trans_le ht)
        ((congrArg (oneThenNone.tryAcquireOne t) hs₁).trans
          (tryAcquireOne_first (L := b.limiter L) hr rfl rfl))
      obtain ⟨hsound, hout⟩ := hk.yes b hJ hr
      refine exists_stale_of_due hJ (t := t + 1) ((D (t + 1)).toNat + 1) (k := 1) hw₂ (by omega)
        (congrArg State.distributedTimings hs₂) ?_ ?_ (by push_cast; omega)
      · rw [congrArg State.drawn hs₂]
        exact one_ne_zero
      · rw [congrArg State.rateLimiter hs₂]
        exact ⟨hsound, hJ.later hout (by omega)⟩

end DelegatingRateLimiterImpl

namespace LinearRateLimiter

variable (l : LinearRateLimiter)

/-- Nothing is due at the start. -/
theorem tryAcquireOne_start (start : Int) :
    l.tryAcquireOne start {} = (false, { startTime := some start }) := by
  unfold tryAcquireOne BaseState.recount
  simp [BaseState.elapsed, l.isSchedule_due.start]

/-- At least one acquisition a second is due. -/
theorem le_due_seconds (n : Nat) : (n : Int) ≤ l.due (n * 10 ^ 9) := by
  have hf : (1 : ℚ) ≤ l.frequency.value := by exact_mod_cast l.positive
  rw [l.due_eq, Int.le_floor]
  push_cast
  rw [mul_right_comm, mul_div_assoc, show (1000000000 / 10 ^ 9 : ℚ) = 1 by norm_num, mul_one]
  have hn : (0 : ℚ) ≤ n := Nat.cast_nonneg n
  linarith [le_mul_of_one_le_right hn hf]

end LinearRateLimiter

namespace Composition

/-- **A queue around bursts** hands an acquisition out right after the bursts said no. -/
theorem not_releasesSafely (l : LinearRateLimiter) (start : Int) (b : BurstingRateLimiter) :
    ¬ (delegating .oneThenNone
      (bursting b (scheduledStarting ⟨start⟩ (linear l)))).ReleasesSafely := by
  intro hsafe
  have hfirst : ScheduledStartingRateLimiter.tryAcquireOne (L := l.limiter) ⟨start⟩ start
      ⟨false, ({} : BaseState)⟩ = (false, ⟨true, ({ startTime := some start } : BaseState)⟩) := by
    unfold ScheduledStartingRateLimiter.tryAcquireOne
    rw [if_neg (lt_irrefl start)]
    exact congrArg (fun p : Bool × BaseState =>
      (p.1, (⟨true, p.2⟩ : ScheduledStartingRateLimiter.State l.limiter)))
        (l.tryAcquireOne_start start)
  have hon : BaseState.OnSchedule l.due start (l.tryAcquireOne start {}).2 :=
    l.keeps.acquire (l.keeps.initial start)
  rw [l.tryAcquireOne_start] at hon
  have hdue := l.le_due_seconds b.burstSize
  rw [← add_sub_cancel_left start (_ * _)] at hdue
  obtain ⟨calls, v, hv, hf, hnone⟩ := DelegatingRateLimiterImpl.exists_stale (l.allows start) hfirst
    ⟨le_rfl, rfl, rfl, hon⟩ (le_add_of_nonneg_right (by positivity)) hdue
  obtain ⟨⟨-, -, hprev⟩, -⟩ := (hsafe _ _ v hv).2 hf v.now le_rfl
  exact nomatch hnone.symm.trans hprev

end Composition

/-- The limiter of a worker is used safely, for all offsets the sampler may draw. -/
def SequencerFactoryImpl.ComposesSafely (l : LinearRateLimiter) (start : Int)
    (burstSize jitterUniform : Nat) : Prop :=
  ∀ offset : Nat → Nat, (∀ k, offset k ≤ jitterUniform) →
    (SequencerFactoryImpl.create l start burstSize jitterUniform offset).ReleasesSafely

/-- **The limiter of a worker and the sequencer's use of it fit together** exactly when bursts and
jitter are not used together. -/
theorem composesSafely_iff (l : LinearRateLimiter) (start : Int) (burstSize jitterUniform : Nat) :
    SequencerFactoryImpl.ComposesSafely l start burstSize jitterUniform
      ↔ burstSize = 0 ∨ jitterUniform = 0 := by
  constructor
  · intro hsafe
    by_contra hboth
    obtain ⟨hb, hj⟩ := not_or.mp hboth
    have hstale := hsafe DelegatingRateLimiterImpl.oneThenNone.offset (fun k => by
      show (if k = 0 then 1 else 0) ≤ jitterUniform
      split <;> omega)
    unfold SequencerFactoryImpl.create at hstale
    dsimp only at hstale
    rw [dif_pos (Nat.pos_of_ne_zero hb), if_pos (Nat.pos_of_ne_zero hj)] at hstale
    exact Composition.not_releasesSafely l start _ hstale
  · intro h offset _
    unfold SequencerFactoryImpl.create
    dsimp only
    by_cases hb : 0 < burstSize
    · rw [dif_pos hb, if_neg (by omega)]
      exact Composition.releasesSafely_bursting l start _
    · rw [dif_neg hb]
      split
      · exact Composition.releasesSafely_delegating l start _
      · exact Composition.releasesSafely_scheduled l start

/-- One request per second in bursts of one, with a nanosecond of jitter. The first is due after
half a second and is put off for a nanosecond. It is handed out by a call that found the bursts
empty, so it cannot be given back. -/
theorem composesSafely_stale :
    let c : Composition := .delegating .oneThenNone
      (.bursting ⟨1, by decide⟩ (.scheduledStarting ⟨0⟩ (.linear ⟨⟨1⟩, by decide⟩)))
    c = SequencerFactoryImpl.create
      ⟨⟨1⟩, by decide⟩ 0 1 1 DelegatingRateLimiterImpl.oneThenNone.offset
      ∧ ∃ w : c.limiter.Watch, Watch.Reaches (fun _ => []) 0 [(0, .tryAcquireOne),
          (500000000, .tryAcquireOne), (500000001, .tryAcquireOne)] w
        ∧ w.fresh = true ∧ ¬ c.AssertsHold 500000001 w.state := by
  intro c
  refine ⟨rfl, ?_⟩
  have hrun :
      ([(0, .tryAcquireOne), (500000000, .tryAcquireOne), (500000001, .tryAcquireOne)].foldlM
        (Watch.call (W := c.limiter) (fun _ => [])) ⟨c.limiter.initial, 0, false, []⟩).map
      (fun w => (w.fresh, BurstingRateLimiter.State.previouslyReleasing
        (DelegatingRateLimiterImpl.State.rateLimiter w.state))) = some (true, none) := by
    decide +kernel
  obtain ⟨w, hw, hval⟩ := Option.map_eq_some_iff.mp hrun
  obtain ⟨hf, hnone⟩ := Prod.mk.inj hval
  refine ⟨w, Watch.reaches_of_calls hw, hf, ?_⟩
  rintro ⟨-, -, hprev⟩
  exact nomatch hnone.symm.trans hprev

end Sortie.Engine
