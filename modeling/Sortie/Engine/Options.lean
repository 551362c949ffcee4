import Sortie.Api.Options

/-!
# How the engine reads its options

`OptionsImpl` (engine/source/client/options_impl.cc) copies a `CommandLineOptions`
message into fields with the engine's own defaults. This is the part of it that
decides how much load an execution generates and for how long: the rate, the number
of workers, the modes that divide the rate over the workers, the duration and the
timeout.

`duration` and `timeout` are kept in whole seconds of an unsigned 32-bit field. The
other durations of the message go through `DurationToNanoseconds`; these two take
the message's seconds alone.
-/

namespace Sortie.Engine

open Proto Api

/-- A conversion to `uint32_t`: the value modulo 2^32. -/
def toUInt32 (n : Int) : UInt32 := UInt32.ofNat (n % 2 ^ 32).toNat

/-- The fields of `OptionsImpl` that shape the load, with their defaults. -/
structure OptionsImpl where
  requestsPerSecond : UInt32 := 5
  durationSeconds : UInt32 := 5
  timeoutSeconds : UInt32 := 30
  noDuration : Bool := false
  grpcMode : GrpcMode := .none
  websocket : Bool := false
  concurrency : String := "1"
  rateLimiterPluginConfig : Option TypedExtensionConfig := none

namespace OptionsImpl

/-- The constructor that takes the message. -/
def ofProto (o : CommandLineOptions) : OptionsImpl :=
  let defaults : OptionsImpl := {}
  { requestsPerSecond := o.requestsPerSecond.getD defaults.requestsPerSecond
    durationSeconds := match o.durationOptions with
      | some (.duration d) => toUInt32 d.seconds
      | _ => defaults.durationSeconds
    timeoutSeconds := match o.timeout with
      | some d => toUInt32 d.seconds
      | none => defaults.timeoutSeconds
    noDuration := match o.durationOptions with
      | some (.noDuration b) => b
      | _ => defaults.noDuration
    grpcMode := o.grpcMode.getD defaults.grpcMode
    websocket := o.websocket.isSome
    concurrency := o.concurrency.getD defaults.concurrency
    rateLimiterPluginConfig := o.rateLimiterPluginConfig }

variable (o : OptionsImpl)

/-- `duration()`, in nanoseconds. -/
def duration : Int := o.durationSeconds.toNat * second

/-- `timeout()`, in nanoseconds. -/
def timeout : Int := o.timeoutSeconds.toNat * second

/-- The rate is the whole backend's and is divided over its workers. -/
def dividesRate : Bool := o.grpcMode == .bidiStream || o.websocket

end OptionsImpl

/-- What `std::stoi` throws. -/
inductive StoiError where
  | invalidArgument
  | outOfRange
  deriving Repr, DecidableEq

/-- `std::isspace` in the C locale. -/
def isCSpace (c : Char) : Bool := c == ' ' || (9 ≤ c.toNat && c.toNat ≤ 13)

/-- The sign a number starts with, and what follows it. -/
def signed : List Char → Int × List Char
  | '-' :: cs => (-1, cs)
  | '+' :: cs => (1, cs)
  | cs => (1, cs)

/-- A number as an `int`. -/
def toInt (n : Int) : Except StoiError Int :=
  if -2 ^ 31 ≤ n ∧ n < 2 ^ 31 then .ok n else .error .outOfRange

/--
`std::stoi`: leading white space and a sign, then digits; what follows them is
ignored.
-/
def stoi (s : String) : Except StoiError Int :=
  let number := signed (s.toList.dropWhile isCSpace)
  let digits := number.2.takeWhile Char.isDigit
  if digits.isEmpty then .error .invalidArgument
  else toInt (number.1 * Text.digitsValue digits)

/-- `absl::ascii_isspace`. -/
def isAsciiSpace (c : Char) : Bool :=
  c == ' ' || (9 ≤ c.toNat && c.toNat ≤ 13)

/-- `absl::SimpleAtoi` into a `uint64_t`. -/
def simpleAtoi (s : String) : Option UInt64 :=
  let trimmed := ((s.toList.dropWhile isAsciiSpace).reverse.dropWhile isAsciiSpace).reverse
  let digits := match trimmed with
    | '+' :: rest => rest
    | cs => cs
  if digits.isEmpty || !digits.all Char.isDigit then none
  else
    let n := digits.foldl (fun n c => 10 * n + (c.toNat - '0'.toNat)) 0
    if n < 2 ^ 64 then some (UInt64.ofNat n) else none

/-- The check of `OptionsImpl::validate` on the number of workers. -/
def checkConcurrency (o : OptionsImpl) : Except String Unit :=
  if o.concurrency = "auto" then .ok ()
  else match stoi o.concurrency with
    | .error .invalidArgument => .error "Invalid value for --concurrency"
    | .error .outOfRange => .error "Value out of range: --concurrency"
    | .ok n =>
      if n ≤ 0 then .error "Value for --concurrency should be greater then 0." else .ok ()

/-- `determineConcurrency`: the number of workers, on a machine with `cpus` processors. -/
def determineConcurrency (cpus : UInt32) (o : OptionsImpl) : Option UInt32 :=
  if o.concurrency = "auto" then some cpus else (stoi o.concurrency).toOption.map toUInt32

/-- `perWorkerRequestsPerSecond`; a division by zero has no result. -/
def perWorkerRequestsPerSecond (o : OptionsImpl) : Option UInt32 :=
  if o.dividesRate then do
    let workers := toUInt32 (← (stoi o.concurrency).toOption)
    if workers = 0 then none else some (o.requestsPerSecond / workers)
  else some o.requestsPerSecond

/--
The requests per second all the workers of a backend generate together, when the
options pass the check on the number of workers.
-/
def OptionsImpl.load (cpus : UInt32) (o : OptionsImpl) : Option Nat := do
  (checkConcurrency o).toOption
  let workers ← determineConcurrency cpus o
  let perWorker ← perWorkerRequestsPerSecond o
  return workers.toNat * perWorker.toNat

/-- The load of a backend that is sent this message. -/
def backendLoad (cpus : UInt32) (o : CommandLineOptions) : Option Nat :=
  (OptionsImpl.ofProto o).load cpus

/--
The checks of `LinearRampingRateLimiterImplFactory::createRateLimiterPlugin` on its
configuration: the text of the exception, or nothing when the limiter is created.
-/
def checkRampTime (rampTime : Duration) (o : OptionsImpl) : Except String Unit :=
  if rampTime.total ≤ 0 then .error "ramp_time must be positive and > 0ns"
  else if !o.noDuration && decide (o.duration < rampTime.total) then
    .error "ramp_time must be less than or equal to time specified by --duration"
  else .ok ()

end Sortie.Engine
