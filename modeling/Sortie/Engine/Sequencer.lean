import Sortie.Api.Options
import Sortie.Engine.RateLimiter

/-!
# The sequencer

`SequencerImpl` (engine/source/common/sequencer_impl.cc) calls a target at the pace
of a rate limiter until one of its termination predicates says to stop. Everything
it does happens in handlers on one dispatcher: `run` when one of its two timers
fires, and the completion callback of a target call.

The time it reads is a cached one. `run` refreshes the cache when it begins, and so
does every completion callback: also one that the target invokes before its call
returns, in the middle of the loop of `run`.

What the world decides is input: the time at which the cache is refreshed, the
counters the predicates read, and for each call of the target whether it could
start and which completion callbacks ran inside it. The loop of `run` need not end,
so it is given a number of turns, and has no result when they do not suffice.
-/

namespace Sortie.Engine

open Api

/-! ## Termination predicates -/

namespace TerminationPredicate

/-- `TerminationPredicate::Status`. -/
inductive Status where
  | proceed | terminate | fail
  deriving DecidableEq, Repr

end TerminationPredicate

/-- The two predicates of termination_predicate_impl.cc. -/
inductive TerminationPredicate where
  /-- Lengths of time are whole microseconds. -/
  | duration (start : Int) (duration : Nat)
  | statsCounterAbsoluteThreshold (counter : String) (counterLimit : Nat)
      (terminationStatus : TerminationPredicate.Status)
  deriving DecidableEq, Repr

namespace TerminationPredicate

def evaluate (now : Int) (counters : String → Nat) : TerminationPredicate → Status
  | duration start d => if 1000 * (d : Int) < now - start then .terminate else .proceed
  | statsCounterAbsoluteThreshold counter counterLimit terminationStatus =>
    if counterLimit < counters counter then terminationStatus else .proceed

/-- A chain is a predicate with the chain of its linked child, which is evaluated first. -/
def evaluateChain (now : Int) (counters : String → Nat) : List TerminationPredicate → Status
  | [] => .proceed
  | predicate :: linkedChild =>
    match evaluateChain now counters linkedChild with
    | .proceed => predicate.evaluate now counters
    | status => status

end TerminationPredicate

/-! ## The target -/

/-- A completion callback runs: of which target call, and what time it finds. -/
structure Completion where
  call : Nat
  time : Int
  deriving DecidableEq, Repr

/-- What becomes of one call of the target. -/
structure Outcome where
  /-- What the call returns. -/
  couldStart : Bool
  /-- The completion callbacks that run before it returns. -/
  completes : List Completion := []
  deriving DecidableEq, Repr

/-- What one `run` meets. Its `k`-th target call has the outcome `target k`. -/
structure Turn where
  time : Int
  counters : String → Nat
  target : Nat → Outcome

/-! ## The sequencer -/

/-- A timer of the dispatcher, armed with a delay in microseconds or not. -/
inductive Timer where
  | disabled
  | armed (delay : Int)
  /-- The pointer was reset. -/
  | gone
  deriving DecidableEq, Repr

/-- `SequencerImpl`, with what it has been given and what it has added to its statistics. -/
structure SequencerImpl (L : RateLimiter) where
  idleStrategy : SequencerIdleStrategy
  terminationPredicate : List TerminationPredicate
  rateLimiter : L.State
  /-- The cached time. -/
  clock : Int
  targetsInitiated : Nat := 0
  targetsCompleted : Nat := 0
  running : Bool := false
  stoppedAfter : Option Int := none
  /-- `blocked_` and, while it is set, `blocked_start_`. -/
  blocked : Option Int := none
  lastTerminationStatus : TerminationPredicate.Status := .proceed
  periodicTimer : Timer := .disabled
  spinTimer : Timer := .disabled
  failedTerminations : Nat := 0
  latencyStatistic : List Int := []
  blockedStatistic : List Int := []
  /-- Target calls made so far; the number of the next one. -/
  calls : Nat := 0
  /-- The calls whose completion callback is still to run, with the `now` it was created with. -/
  pending : List (Nat × Int) := []

namespace SequencerImpl

variable {L : RateLimiter} (s : SequencerImpl L)

/-- `NighthawkTimerResolution`, in microseconds. -/
def timerResolution : Int := 25

/-- `NighthawkMaxIdleWait`, in microseconds. -/
def maxIdleWait : Int := 5000

/-- `updateApproximateMonotonicTime`. The clock behind the cache does not go back. -/
def updateApproximateMonotonicTime (time : Int) : SequencerImpl L :=
  { s with clock := max s.clock time }

/-- How long the periodic timer may wait, in microseconds rounded up. -/
def idleWait : Int :=
  match L.timeUntilNextRelease s.clock s.rateLimiter with
  | none => timerResolution
  | some untilNextRelease =>
    if untilNextRelease ≤ 0 then timerResolution
    else min maxIdleWait ⌈(untilNextRelease : ℚ) / 1000⌉

def scheduleRun : SequencerImpl L :=
  let delay := if s.idleStrategy = .wait then s.idleWait else timerResolution
  { s with periodicTimer := .armed delay }

def unblockAndUpdateStatisticIfNeeded (now : Int) : SequencerImpl L :=
  match s.blocked with
  | none => s
  | some blockedStart =>
    { s with
      blocked := none
      blockedStatistic := s.blockedStatistic ++ [now - blockedStart] }

def updateStartBlockingTimeIfNeeded : SequencerImpl L :=
  match s.blocked with
  | none => { s with blocked := some s.clock }
  | some _ => s

/-- `executionDuration`: asks the rate limiter, whose clock this may start, until the answer was
latched by `stop`. -/
def executionDuration : Int × SequencerImpl L :=
  match s.stoppedAfter with
  | some d => (d, s)
  | none =>
    let (e, r) := L.elapsed s.clock s.rateLimiter
    (e, { s with rateLimiter := r })

/-- `stop`. The rate of completions that it logs takes a first look at the duration. -/
def stop (failed : Bool) : SequencerImpl L :=
  let s := s.executionDuration.2
  let s := if failed then { s with failedTerminations := s.failedTerminations + 1 } else s
  let s :=
    { s with
      running := false
      periodicTimer := .gone
      spinTimer := .gone }
  let s := s.unblockAndUpdateStatisticIfNeeded s.clock
  let (e, r) := L.elapsed s.clock s.rateLimiter
  { s with rateLimiter := r, stoppedAfter := some e }

/-- The completion callback. A callback runs once, so one that is not awaited does nothing. -/
def complete (c : Completion) : SequencerImpl L :=
  match s.pending.lookup c.call with
  | none => s
  | some now =>
    let s := s.updateApproximateMonotonicTime c.time
    { s with
      pending := s.pending.filter (·.1 ≠ c.call)
      latencyStatistic := s.latencyStatistic ++ [s.clock - now]
      targetsCompleted := s.targetsCompleted + 1
      spinTimer := if s.running then .armed 0 else s.spinTimer }

/-- The target is called, up to its return. A call that cannot start keeps no callback. -/
def call (now : Int) (o : Outcome) : SequencerImpl L :=
  let awaited := if o.couldStart then [(s.calls, now)] else []
  o.completes.foldl complete { s with calls := s.calls + 1, pending := s.pending ++ awaited }

/-- The target could start. -/
def started (now : Int) : SequencerImpl L :=
  let s := s.unblockAndUpdateStatisticIfNeeded now
  { s with targetsInitiated := s.targetsInitiated + 1 }

/-- The target could not start: what the limiter gave is given back. -/
def refused : Except ReleaseFault (SequencerImpl L) := do
  let s := s.updateStartBlockingTimeIfNeeded
  let r ← L.releaseOne s.clock s.rateLimiter
  return { s with rateLimiter := r }

/-- One turn of the loop of `run`: what it leaves behind, and whether the loop goes on. -/
def turn (now : Int) (o : Outcome) : Except ReleaseFault (Bool × SequencerImpl L) :=
  match L.tryAcquireOne s.clock s.rateLimiter with
  | (false, r) => .ok (false, { s with rateLimiter := r })
  | (true, r) =>
    let s := { s with rateLimiter := r }.call now o
    if o.couldStart then .ok (true, s.started now) else s.refused.map (Prod.mk false)

/-- The loop of `run`, with so many turns to make. -/
def acquire (now : Int) (target : Nat → Outcome) : Nat → Nat → SequencerImpl L →
    Option (Except ReleaseFault (SequencerImpl L))
  | 0, _, _ => none
  | turns + 1, k, s =>
    match s.turn now (target k) with
    | .error f => some (.error f)
    | .ok (false, s) => some (.ok s)
    | .ok (true, s) => acquire now target turns (k + 1) s

/-- What `run` arms when it is done. -/
def reschedule (fromPeriodicTimer : Bool) : SequencerImpl L :=
  if s.idleStrategy = .wait then s.scheduleRun
  else if fromPeriodicTimer then s.scheduleRun
  else if s.idleStrategy = .spin ∧ s.targetsInitiated = s.targetsCompleted then
    { s with spinTimer := .armed 0 }
  else if s.idleStrategy = .sleep then { s with spinTimer := .armed 0 }
  else s

/-- The first half of `run`, up to the question whether to go on. -/
def begin (t : Turn) : SequencerImpl L :=
  let s := s.updateApproximateMonotonicTime t.time
  { s with
    lastTerminationStatus :=
      if s.lastTerminationStatus = .proceed then
        TerminationPredicate.evaluateChain s.clock t.counters s.terminationPredicate
      else s.lastTerminationStatus }

def run (fromPeriodicTimer : Bool) (t : Turn) (turns : Nat) :
    Option (Except ReleaseFault (SequencerImpl L)) :=
  let s := s.begin t
  if s.lastTerminationStatus ≠ .proceed then
    some (.ok (s.stop (s.lastTerminationStatus = .fail)))
  else
    (s.acquire s.clock t.target turns 0).map
      (fun r => r.map (fun s => s.reschedule fromPeriodicTimer))

/-- `run` returns, with this result. -/
def Returns (fromPeriodicTimer : Bool) (t : Turn) (s' : SequencerImpl L) : Prop :=
  ∃ turns, s.run fromPeriodicTimer t turns = some (.ok s')

/-! ## Runs -/

/-- A sequencer as it is constructed. -/
def init (L : RateLimiter) (idleStrategy : SequencerIdleStrategy)
    (terminationPredicate : List TerminationPredicate) (clock : Int) : SequencerImpl L where
  idleStrategy := idleStrategy
  terminationPredicate := terminationPredicate
  rateLimiter := L.initial
  clock := clock

/-- The handlers of a sequencer, and the one call that sets it going. -/
inductive Event where
  | start (t : Turn)
  | periodicTimer (t : Turn)
  | spinTimer (t : Turn)
  | complete (c : Completion)

/-- What a handler does before it calls `run`, and whether that is for the periodic timer. A
sequencer is started once, and a timer fires when it is armed. -/
def Event.enters : Event → SequencerImpl L → Option (Bool × Turn × SequencerImpl L)
  | .start t, s =>
    if s.running ∨ s.stoppedAfter.isSome then none
    else some (false, t, { s with running := true }.scheduleRun)
  | .periodicTimer t, s =>
    match s.periodicTimer with
    | .armed _ => some (true, t, { s with periodicTimer := .disabled })
    | _ => none
  | .spinTimer t, s =>
    match s.spinTimer with
    | .armed _ => some (false, t, { s with spinTimer := .disabled })
    | _ => none
  | .complete _, _ => none

/-- One handler, from its call to its return. -/
inductive Leads : SequencerImpl L → Event → SequencerImpl L → Prop where
  | run {s s₁ s' : SequencerImpl L} {e : Event} {fromPeriodicTimer : Bool} {t : Turn} :
      e.enters s = some (fromPeriodicTimer, t, s₁) → s₁.Returns fromPeriodicTimer t s' →
      Leads s e s'
  | complete {s : SequencerImpl L} (c : Completion) : Leads s (.complete c) (s.complete c)

/-- What the handlers lead to, one after another, from a sequencer just constructed. -/
def Reaches (L : RateLimiter) (idleStrategy : SequencerIdleStrategy)
    (terminationPredicate : List TerminationPredicate) (clock : Int) (es : List Event)
    (s : SequencerImpl L) : Prop :=
  Lts.Run Leads (init L idleStrategy terminationPredicate clock) es s

end SequencerImpl

end Sortie.Engine
