import Sortie.Lib.Rounding
import Sortie.Lib.Run

/-!
# Rate limiters

`rate_limiter_impl.cc`. A limiter answers one question again and again: may one
more request start now? The linear and the ramping limiter answer it from a
schedule, how many requests are due by some time since the first question. The
others wrap a limiter and forward to it: they collect bursts, hold everything back
until a starting time, move acquisitions to a later time or suppress some of them.

Times are whole nanoseconds. What the source computes in floating point is
computed here in exact rational numbers. A limiter reads a cached clock, so one
reading `now` serves a whole call, through all the limiters it is forwarded to.
-/

namespace Sortie.Engine

open Rounding

/-- What `releaseOne` can end in instead of returning. -/
inductive ReleaseFault where
  /-- A `NighthawkException`. -/
  | exception (text : String)
  /-- A failed `RELEASE_ASSERT`. -/
  | releaseAssert (text : String)
  deriving DecidableEq, Repr

/-- The interface `RateLimiter`, as an object with a state of its own. Every call is given the time
the clock shows. -/
structure RateLimiter where
  State : Type
  initial : State
  tryAcquireOne : (now : Int) → State → Bool × State
  releaseOne : (now : Int) → State → Except ReleaseFault State
  elapsed : (now : Int) → State → Int × State
  /-- Asking how long to wait changes nothing. -/
  timeUntilNextRelease : (now : Int) → State → Option Int

/-- `Frequency`: a number of events per second. -/
structure Frequency where
  value : Nat
  deriving DecidableEq, Repr

/-- The seconds between two events. -/
def Frequency.interval (f : Frequency) : ℚ := 1 / f.value

/-! ## The limiters with a schedule -/

/-- The data of `RateLimiterBaseImpl` and of the counts that both its subclasses declare. -/
structure BaseState where
  startTime : Option Int := none
  acquireableCount : Int := 0
  acquiredCount : Int := 0
  deriving DecidableEq, Repr

namespace BaseState

/-- `RateLimiterBaseImpl::elapsed`: the first call starts the clock. -/
def elapsed (now : Int) (s : BaseState) : Int × BaseState :=
  match s.startTime with
  | none => (0, { s with startTime := some now })
  | some start => (now - start, s)

def started (s : BaseState) : Bool := s.startTime.isSome

/-- One of the acquisitions that are there is handed out. -/
def take (s : BaseState) : BaseState :=
  { s with
    acquireableCount := s.acquireableCount - 1
    acquiredCount := s.acquiredCount + 1 }

/-- The second half of `tryAcquireOne`: with nothing left to hand out, count anew what the schedule
`total` has made due, and hand out one of that. -/
def recount (total : Int → Int) (now : Int) (s : BaseState) : Bool × BaseState :=
  let (e, s) := s.elapsed now
  let s := { s with acquireableCount := total e - s.acquiredCount }
  if 0 < s.acquireableCount then (true, s.take) else (false, s)

/-- `releaseOne` of both subclasses. -/
def releaseOne (s : BaseState) : BaseState :=
  { s with
    acquireableCount := s.acquireableCount + 1
    acquiredCount := s.acquiredCount - 1 }

end BaseState

/-- `LinearRateLimiter`, whose constructor insists on a positive frequency. -/
structure LinearRateLimiter where
  frequency : Frequency
  positive : 0 < frequency.value
  deriving DecidableEq, Repr

namespace LinearRateLimiter

/-- The constructor, with the text of its exception as the source has it. -/
def create (frequency : Frequency) : Except String LinearRateLimiter :=
  if h : 0 < frequency.value then .ok ⟨frequency, h⟩
  else .error s!"frequency must be <= 0, value: {frequency.value}"

/-- How many acquisitions are due after so many nanoseconds. The phase is shifted by half an
interval, to stay clear of whole seconds. -/
def due (l : LinearRateLimiter) (elapsed : Int) : Int :=
  let phaseShifted : ℚ := elapsed / 10 ^ 9 + l.frequency.interval / 2
  ⌊phaseShifted / l.frequency.interval⌋

def tryAcquireOne (l : LinearRateLimiter) (now : Int) (s : BaseState) : Bool × BaseState :=
  if 0 < s.acquireableCount then (true, s.take) else s.recount l.due now

/-- The inverse of the schedule: acquisition number `n` is due once the time that has passed and
half an interval reach `n` intervals. -/
def timeUntilNextRelease (l : LinearRateLimiter) (now : Int) (s : BaseState) : Option Int :=
  if 0 < s.acquireableCount ∨ s.started = false then some 0
  else
    let dueAt : ℚ := l.frequency.interval * (s.acquiredCount + 1) - l.frequency.interval / 2
    some (max 0 ⌈dueAt * 10 ^ 9 - (s.elapsed now).1⌉)

def limiter (l : LinearRateLimiter) : RateLimiter where
  State := BaseState
  initial := {}
  tryAcquireOne := l.tryAcquireOne
  releaseOne := fun _ s => .ok s.releaseOne
  elapsed := BaseState.elapsed
  timeUntilNextRelease := l.timeUntilNextRelease

end LinearRateLimiter

/-- `LinearRampingRateLimiterImpl`: the frequency grows linearly until the ramp is over. -/
structure LinearRampingRateLimiterImpl where
  /-- Nanoseconds. -/
  rampTime : Int
  frequency : Frequency
  positive : 0 < frequency.value
  rampPositive : 0 < rampTime
  deriving DecidableEq, Repr

namespace LinearRampingRateLimiterImpl

def create (rampTime : Int) (frequency : Frequency) :
    Except String LinearRampingRateLimiterImpl :=
  if h : 0 < frequency.value then
    if hr : 0 < rampTime then .ok ⟨rampTime, frequency, h, hr⟩
    else .error s!"ramp_time must be positive, value: {rampTime}"
  else .error s!"frequency must be > 0, value: {frequency.value}"

/-- Events per nanosecond once the ramp is over. -/
def targetFreqNs (l : LinearRampingRateLimiterImpl) : ℚ := l.frequency.value / 10 ^ 9

/-- The acquisitions of the whole ramp. -/
def totalRampRequests (l : LinearRampingRateLimiterImpl) : Int :=
  roundHalfAway (l.rampTime * l.targetFreqNs / 2)

/-- How many acquisitions are due after so many nanoseconds. -/
def total (l : LinearRampingRateLimiterImpl) (elapsed : Int) : Int :=
  if elapsed < l.rampTime then
    let elapsedFraction : ℚ := 1 - (l.rampTime - elapsed) / l.rampTime
    let currentFrequency := elapsedFraction * l.frequency.value
    -- at a constant pace it would be elapsed seconds times the frequency; a ramp makes half of it
    roundHalfAway (elapsed / 10 ^ 9 * currentFrequency / 2)
  else l.totalRampRequests + roundHalfAway ((elapsed - l.rampTime) * l.targetFreqNs)

/-- Unlike the linear limiter's, this one asks whether the count is *not zero*. -/
def tryAcquireOne (l : LinearRampingRateLimiterImpl) (now : Int) (s : BaseState) :
    Bool × BaseState :=
  if s.acquireableCount ≠ 0 then (true, s.take) else s.recount l.total now

/-- The square of the time at which the unrounded number of acquisitions of the ramp reaches
`target`, if the ramp went on for ever. -/
def dueSquared (l : LinearRampingRateLimiterImpl) (target : ℚ) : ℚ :=
  target * 2 * l.rampTime / l.targetFreqNs

/-- When the next acquisition is due, in whole nanoseconds since the start and rounded up. The
source takes the root, compares it with the ramp and rounds at the end. -/
def dueNs (l : LinearRampingRateLimiterImpl) (acquired : Int) : Int :=
  let target : ℚ := acquired + 1 / 2
  if (l.rampTime : ℚ) ^ 2 ≤ l.dueSquared target then
    max l.rampTime ⌈l.rampTime + (target - l.totalRampRequests) / l.targetFreqNs⌉
  else ceilSqrt (l.dueSquared target)

def timeUntilNextRelease (l : LinearRampingRateLimiterImpl) (now : Int) (s : BaseState) :
    Option Int :=
  if 0 < s.acquireableCount ∨ s.started = false then some 0
  else some (max 0 (l.dueNs s.acquiredCount - (s.elapsed now).1))

def limiter (l : LinearRampingRateLimiterImpl) : RateLimiter where
  State := BaseState
  initial := {}
  tryAcquireOne := l.tryAcquireOne
  releaseOne := fun _ s => .ok s.releaseOne
  elapsed := BaseState.elapsed
  timeUntilNextRelease := l.timeUntilNextRelease

end LinearRampingRateLimiterImpl

/-! ## The limiters that wrap one -/

/-- `BurstingRateLimiter`, whose constructor asserts that a burst is not empty. -/
structure BurstingRateLimiter where
  burstSize : Nat
  positive : 0 < burstSize
  deriving DecidableEq, Repr

namespace BurstingRateLimiter

structure State (L : RateLimiter) where
  accumulated : Nat := 0
  releasing : Bool := false
  previouslyReleasing : Option Bool := none
  rateLimiter : L.State

variable {L : RateLimiter}

/-- The branch of `tryAcquireOne` that hands out what was accumulated. -/
def drain (s : State L) : State L :=
  { s with
    previouslyReleasing := some s.releasing
    accumulated := s.accumulated - 1
    releasing := 0 < s.accumulated - 1 }

/-- The loop of `tryAcquireOne`. The number bounds its turns: a multiple of the burst size is never
further away than one burst, and reaching it ends the loop. -/
def accumulate (b : BurstingRateLimiter) (now : Int) : Nat → State L → Bool × State L
  | 0, s => (false, { s with previouslyReleasing := none })
  | turns + 1, s =>
    match L.tryAcquireOne now s.rateLimiter with
    | (false, r) => (false, { s with rateLimiter := r, previouslyReleasing := none })
    | (true, r) =>
      let s := { s with rateLimiter := r, accumulated := s.accumulated + 1 }
      if s.accumulated % b.burstSize = 0 then (true, drain { s with releasing := true })
      else b.accumulate now turns s

def tryAcquireOne (b : BurstingRateLimiter) (now : Int) (s : State L) : Bool × State L :=
  if s.releasing then (true, drain s)
  else b.accumulate now (b.burstSize - s.accumulated % b.burstSize)
    { s with previouslyReleasing := some s.releasing }

/-- `releaseOne` restores what the acquisition took; nothing is given back to the wrapped limiter.
Its two `ASSERT`s are not compiled into a release build. -/
def releaseOne (s : State L) : State L :=
  { s with
    accumulated := s.accumulated + 1
    releasing := true
    previouslyReleasing := none }

def limiter (b : BurstingRateLimiter) (L : RateLimiter) : RateLimiter where
  State := State L
  initial := { rateLimiter := L.initial }
  tryAcquireOne := b.tryAcquireOne
  releaseOne := fun _ s => .ok (releaseOne s)
  elapsed := fun now s =>
    let (e, r) := L.elapsed now s.rateLimiter
    (e, { s with rateLimiter := r })
  timeUntilNextRelease := fun now s =>
    if s.releasing then some 0 else L.timeUntilNextRelease now s.rateLimiter

end BurstingRateLimiter

/-- `ScheduledStartingRateLimiter`: nothing before the starting time. -/
structure ScheduledStartingRateLimiter where
  scheduledStartingTime : Int
  deriving DecidableEq, Repr

namespace ScheduledStartingRateLimiter

structure State (L : RateLimiter) where
  acquisitionAttempted : Bool := false
  rateLimiter : L.State

variable {L : RateLimiter}

def tryAcquireOne (c : ScheduledStartingRateLimiter) (now : Int) (s : State L) :
    Bool × State L :=
  let s := { s with acquisitionAttempted := true }
  if now < c.scheduledStartingTime then (false, s)
  else
    let (acquired, r) := L.tryAcquireOne now s.rateLimiter
    (acquired, { s with rateLimiter := r })

def releaseOne (c : ScheduledStartingRateLimiter) (now : Int) (s : State L) :
    Except ReleaseFault (State L) :=
  if now < c.scheduledStartingTime then
    .error (.exception "Unexpected call to releaseOne()")
  else do
    let r ← L.releaseOne now s.rateLimiter
    return { s with rateLimiter := r }

def limiter (c : ScheduledStartingRateLimiter) (L : RateLimiter) : RateLimiter where
  State := State L
  initial := { rateLimiter := L.initial }
  tryAcquireOne := c.tryAcquireOne
  releaseOne := c.releaseOne
  elapsed := fun now s =>
    let (e, r) := L.elapsed now s.rateLimiter
    (e, { s with rateLimiter := r })
  timeUntilNextRelease := fun now s =>
    if now < c.scheduledStartingTime then some (c.scheduledStartingTime - now)
    else L.timeUntilNextRelease now s.rateLimiter

end ScheduledStartingRateLimiter

/-- `DelegatingRateLimiterImpl`: an acquisition of the wrapped limiter is handed out some
nanoseconds later. The delegate is any source of offsets; asked for the `k`-th time it answers
`offset k`. -/
structure DelegatingRateLimiterImpl where
  offset : Nat → Nat

namespace DelegatingRateLimiterImpl

structure State (L : RateLimiter) where
  distributedTimings : List Int := []
  sanityCheckPendingRelease : Bool := true
  /-- How often the delegate was asked. -/
  drawn : Nat := 0
  rateLimiter : L.State

variable {L : RateLimiter}

/-- Insertion at the upper bound, into a list kept in order. -/
def insertTiming (adjusted : Int) (timings : List Int) : List Int :=
  timings.takeWhile (· ≤ adjusted) ++ adjusted :: timings.dropWhile (· ≤ adjusted)

/-- What the wrapped limiter releases goes into the queue. -/
def enqueue (c : DelegatingRateLimiterImpl) (now : Int) (s : State L) : State L :=
  match L.tryAcquireOne now s.rateLimiter with
  | (false, r) => { s with rateLimiter := r }
  | (true, r) =>
    { s with
      rateLimiter := r
      distributedTimings := insertTiming (now + c.offset s.drawn) s.distributedTimings
      drawn := s.drawn + 1 }

def tryAcquireOne (c : DelegatingRateLimiterImpl) (now : Int) (s : State L) :
    Bool × State L :=
  let s := c.enqueue now s
  match s.distributedTimings with
  | [] => (false, s)
  | front :: rest =>
    if front ≤ now then
      (true, { s with distributedTimings := rest, sanityCheckPendingRelease := false })
    else (false, s)

def releaseOne (now : Int) (s : State L) : Except ReleaseFault (State L) :=
  if s.sanityCheckPendingRelease then
    .error (.releaseAssert "unexpected call to DelegatingRateLimiterImpl::releaseOne()")
  else do
    let r ← L.releaseOne now s.rateLimiter
    return { s with rateLimiter := r, sanityCheckPendingRelease := true }

/-- Either a queued timing comes due first or the wrapped limiter releases something that is not
moved at all. -/
def timeUntilNextRelease (now : Int) (s : State L) : Option Int :=
  match L.timeUntilNextRelease now s.rateLimiter with
  | none => none
  | some wrapped =>
    match s.distributedTimings with
    | [] => some wrapped
    | front :: _ => some (max 0 (min (front - now) wrapped))

def limiter (c : DelegatingRateLimiterImpl) (L : RateLimiter) : RateLimiter where
  State := State L
  initial := { rateLimiter := L.initial }
  tryAcquireOne := c.tryAcquireOne
  releaseOne := releaseOne
  elapsed := fun now s =>
    let (e, r) := L.elapsed now s.rateLimiter
    (e, { s with rateLimiter := r })
  timeUntilNextRelease := timeUntilNextRelease

end DelegatingRateLimiterImpl

/-- `FilteringRateLimiterImpl`: a filter may suppress what the wrapped limiter releases. Asked for
the `k`-th time it answers `filter k`. -/
structure FilteringRateLimiterImpl where
  filter : Nat → Bool

namespace FilteringRateLimiterImpl

structure State (L : RateLimiter) where
  /-- How often the filter was asked. -/
  asked : Nat := 0
  rateLimiter : L.State

variable {L : RateLimiter}

def tryAcquireOne (c : FilteringRateLimiterImpl) (now : Int) (s : State L) :
    Bool × State L :=
  match L.tryAcquireOne now s.rateLimiter with
  | (false, r) => (false, { s with rateLimiter := r })
  | (true, r) => (c.filter s.asked, { s with rateLimiter := r, asked := s.asked + 1 })

def limiter (c : FilteringRateLimiterImpl) (L : RateLimiter) : RateLimiter where
  State := State L
  initial := { rateLimiter := L.initial }
  tryAcquireOne := c.tryAcquireOne
  releaseOne := fun now s => do
    let r ← L.releaseOne now s.rateLimiter
    return { s with rateLimiter := r }
  elapsed := fun now s =>
    let (e, r) := L.elapsed now s.rateLimiter
    (e, { s with rateLimiter := r })
  timeUntilNextRelease := fun now s => L.timeUntilNextRelease now s.rateLimiter

end FilteringRateLimiterImpl

/-! ## Nesting -/

/-- A finite nesting of the wrapping limiters, with a limiter that has a schedule at its core. -/
inductive Composition where
  | linear (l : LinearRateLimiter)
  | ramping (l : LinearRampingRateLimiterImpl)
  | bursting (b : BurstingRateLimiter) (c : Composition)
  | scheduledStarting (t : ScheduledStartingRateLimiter) (c : Composition)
  | delegating (d : DelegatingRateLimiterImpl) (c : Composition)
  | filtering (f : FilteringRateLimiterImpl) (c : Composition)

def Composition.limiter : Composition → RateLimiter
  | linear l => l.limiter
  | ramping l => l.limiter
  | bursting b c => b.limiter c.limiter
  | scheduledStarting t c => t.limiter c.limiter
  | delegating d c => d.limiter c.limiter
  | filtering f c => f.limiter c.limiter

/-- `SequencerFactoryImpl::create`, without a limiter plugin. The sampler of the jitter is any
source of offsets. -/
def SequencerFactoryImpl.create (l : LinearRateLimiter) (scheduledStartingTime : Int)
    (burstSize jitterUniform : Nat) (offset : Nat → Nat) : Composition :=
  let rateLimiter := .scheduledStarting ⟨scheduledStartingTime⟩ (.linear l)
  let rateLimiter := if h : 0 < burstSize then .bursting ⟨burstSize, h⟩ rateLimiter else rateLimiter
  if 0 < jitterUniform then .delegating ⟨offset⟩ rateLimiter else rateLimiter

/-! ## A limiter in use -/

/-- A limiter that calls are made on: its state, the last time the clock showed, and how many of
the acquisitions it handed out have not been given back. -/
structure RateLimiter.Use (L : RateLimiter) where
  state : L.State
  now : Int
  net : Nat

inductive RateLimiter.Call where
  | tryAcquireOne
  | releaseOne
  | elapsed
  deriving DecidableEq, Repr

/-- One call at time `now`. Only an acquisition that was handed out is given back, and a call that
throws or aborts leads nowhere. -/
def RateLimiter.Use.step {L : RateLimiter} (u : L.Use) (now : Int) : RateLimiter.Call →
    Option L.Use
  | .tryAcquireOne =>
    let (acquired, s) := L.tryAcquireOne now u.state
    some ⟨s, now, if acquired then u.net + 1 else u.net⟩
  | .releaseOne =>
    if u.net = 0 then none
    else
      match L.releaseOne now u.state with
      | .error _ => none
      | .ok s => some ⟨s, now, u.net - 1⟩
  | .elapsed => some ⟨(L.elapsed now u.state).2, now, u.net⟩

/-- The clock never goes back. -/
def RateLimiter.Use.Leads {L : RateLimiter} (u : L.Use) (e : Int × RateLimiter.Call)
    (v : L.Use) : Prop :=
  u.now ≤ e.1 ∧ u.step e.1 e.2 = some v

/-- What calls with a clock that never goes back lead to, on a limiter made at time `t₀`. -/
def RateLimiter.Reaches (L : RateLimiter) (t₀ : Int) (calls : List (Int × RateLimiter.Call))
    (u : L.Use) : Prop :=
  Lts.Run RateLimiter.Use.Leads (⟨L.initial, t₀, 0⟩ : L.Use) calls u

end Sortie.Engine
