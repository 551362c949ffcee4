import Sortie.Engine.Callbacks
import Sortie.Engine.SequencePrefix
import Sortie.Lib.Run

/-!
# The UDP client

`UdpBenchmarkClientImpl` (engine/source/client/udp_benchmark_client_impl.cc) sends
datagrams on one socket and waits for their echoes, which may come in any order or not at
all. A timer sweeps up what was not answered in time.

The map of what is in flight is the list of its entries in the order of their keys, which
is the order its iterators follow. Sequence numbers and counters are natural numbers. What
the socket does inside a call is an argument of the call. `clock` is the last time that was
read, and `step` does not let it run backwards.
-/

namespace Sortie.Engine

namespace UdpBenchmarkClientImpl

/-- `ALL_UDP_COUNTERS`. -/
inductive Counter where
  | datagramsSent | datagramsReceived | lost | unexpected | sendErrors | deferred | unavailable
  deriving DecidableEq, Repr

structure InflightDatagram where
  sentAt : Nat
  completionCallback : Nat
  deriving DecidableEq, Repr

/-- What the client is constructed with; it refuses to be without room for a datagram, and to give
up on one at once. -/
structure Config where
  maxInflight : UInt32
  /-- in nanoseconds -/
  timeout : Nat
  maxInflight_pos : 0 < maxInflight.toNat
  timeout_pos : 0 < timeout

end UdpBenchmarkClientImpl

open UdpBenchmarkClientImpl in
structure UdpBenchmarkClientImpl where
  config : Config
  counters : Counter → Nat := fun _ => 0
  /-- there is a socket -/
  socket : Bool := false
  /-- there is a sweep timer, and it is enabled -/
  sweepTimer : Option Bool := none
  drainTimer : Bool := false
  message : List UInt8 := []
  inflight : List (Nat × InflightDatagram) := []
  nextSequence : Nat := 0
  measureLatencies : Bool := false
  draining : Bool := false
  finished : Bool := false
  /-- `prepare` was called -/
  prepared : Bool := false
  /-- `finish` runs the dispatcher -/
  waiting : Bool := false
  /-- `dispatcher_.exit()` was called since the wait began -/
  exited : Bool := false
  /-- `terminate` is waiting in `finish` -/
  terminating : Bool := false
  callbacks : Callbacks := {}
  messageLatencies : List Nat := []
  clock : Nat := 0

namespace UdpBenchmarkClientImpl

/-- `absl::SimpleHexAtoi`, on bytes. -/
abbrev HexAtoi := List UInt8 → Option UInt64

variable (c : UdpBenchmarkClientImpl)

/-- `counter.inc()`. -/
def inc (k : Counter) : UdpBenchmarkClientImpl :=
  { c with counters := fun k' => if k' = k then c.counters k' + 1 else c.counters k' }

/-- `prepare`; the socket can be set up or not. -/
def prepare (message : List UInt8) (connects : Bool) : UdpBenchmarkClientImpl :=
  let c := { c with message := message, prepared := true }
  if connects then { c with socket := true, sweepTimer := some true } else c.inc .unavailable

/-- `emplace`, in the order of the keys; an entry that is there stays. -/
def emplace (sequence : Nat) (datagram : InflightDatagram) :
    List (Nat × InflightDatagram) → List (Nat × InflightDatagram)
  | [] => [(sequence, datagram)]
  | entry :: rest =>
    if sequence < entry.1 then (sequence, datagram) :: entry :: rest
    else if sequence = entry.1 then entry :: rest
    else entry :: emplace sequence datagram rest

/-- A datagram that is not sent is dropped, and completes when the dispatcher gets to it. -/
def drop (k : Counter) (callback : Nat) : UdpBenchmarkClientImpl :=
  let c := c.inc k
  { c with callbacks := c.callbacks.post callback true false }

/-- The bytes of a datagram. -/
def datagram (sequence : Nat) : List UInt8 :=
  sequencePrefix (UInt64.ofNat sequence) ++ c.message

/-- `tryStartRequest`; it always answers that the datagram was started. `writes` says which bytes
the socket takes. -/
def tryStartRequest (writes : List UInt8 → Bool) (now : Nat) : UdpBenchmarkClientImpl :=
  let callback := c.callbacks.calls
  let c := { c with callbacks := c.callbacks.give }
  if !c.socket || c.draining then c.drop .unavailable callback
  else if c.config.maxInflight.toNat ≤ c.inflight.length then c.drop .deferred callback
  else
    let sequence := c.nextSequence
    let c := { c with nextSequence := sequence + 1 }
    if !writes (c.datagram sequence) then c.drop .sendErrors callback
    else
      let c := c.inc .datagramsSent
      let entry : InflightDatagram := { sentAt := now, completionCallback := callback }
      { c with inflight := emplace sequence entry c.inflight }

/-- A datagram is taken out of those in flight, and its callback invoked. -/
def complete (sequence : Nat) (datagram : InflightDatagram) (success : Bool) :
    UdpBenchmarkClientImpl :=
  { c with
    inflight := c.inflight.eraseP (fun entry => entry.1 == sequence)
    callbacks := c.callbacks.invoke datagram.completionCallback true success }

/-- A latency for the statistic, when latencies are measured. -/
def addLatency (latency : Nat) : UdpBenchmarkClientImpl :=
  if c.measureLatencies then { c with messageLatencies := c.messageLatencies ++ [latency] } else c

/-- `if (draining_ && inflight_.empty()) dispatcher_.exit()`. -/
def exitIfDrained : UdpBenchmarkClientImpl :=
  if c.draining && c.inflight.isEmpty then { c with exited := true } else c

/-- The sequence number of a datagram that has the message behind it. -/
def echoOf (hexAtoi : HexAtoi) (bytes : List UInt8) : Option UInt64 :=
  if bytes.length < kSequencePrefixLength then none
  else match hexAtoi (bytes.take kSequencePrefixLength) with
    | none => none
    | some sequence =>
      if bytes.drop kSequencePrefixLength ≠ c.message then none else some sequence

/-- `onDatagram`. -/
def onDatagram (hexAtoi : HexAtoi) (bytes : List UInt8) (now : Nat) : UdpBenchmarkClientImpl :=
  match c.echoOf hexAtoi bytes with
  | none => c.inc .unexpected
  | some sequence =>
    match c.inflight.find? (fun entry => entry.1 == sequence.toNat) with
    | none => c.inc .unexpected
    | some (sequence, datagram) =>
      let c := c.inc .datagramsReceived
      let c := c.complete sequence datagram true
      let c := c.addLatency (now - datagram.sentAt)
      c.exitIfDrained

/-- `onReadable`: what the socket gives is read until there is an error, which is `none`, or
nothing. -/
def onReadable (hexAtoi : HexAtoi) (now : Nat) :
    List (Option (List UInt8)) → UdpBenchmarkClientImpl → UdpBenchmarkClientImpl
  | [], c => c
  | none :: _, c => c
  | some bytes :: reads, c =>
    if !c.socket || bytes.isEmpty then c
    else onReadable hexAtoi now reads (c.onDatagram hexAtoi bytes now)

/-- The loop of `sweep`, for as many turns as there are datagrams. -/
def expire (now : Nat) : Nat → UdpBenchmarkClientImpl → UdpBenchmarkClientImpl
  | 0, c => c
  | turns + 1, c =>
    match c.inflight with
    | [] => c
    | (sequence, datagram) :: _ =>
      if c.config.timeout ≤ now - datagram.sentAt then
        expire now turns ((c.inc .lost).complete sequence datagram false)
      else c

/-- `sweep`. -/
def sweep (now : Nat) : UdpBenchmarkClientImpl :=
  let c := expire now c.inflight.length c
  if c.draining && c.inflight.isEmpty then { c with exited := true }
  else { c with sweepTimer := c.sweepTimer.map fun _ => true }

/-- The loop of `completeAll`, for as many turns as there are datagrams. -/
def completeAll (success : Bool) : Nat → UdpBenchmarkClientImpl → UdpBenchmarkClientImpl
  | 0, c => c
  | turns + 1, c =>
    match c.inflight with
    | [] => c
    | (sequence, datagram) :: _ =>
      let c := if success then c else c.inc .lost
      completeAll success turns (c.complete sequence datagram success)

/-- The end of `finish`: what the window did not bring is lost. -/
def giveUp : UdpBenchmarkClientImpl :=
  { completeAll false c.inflight.length c with sweepTimer := none }

/-- `finish`, as far as the wait for echoes. -/
def finish : UdpBenchmarkClientImpl :=
  if c.finished then c
  else
    let c := { c with finished := true, draining := true }
    if !c.inflight.isEmpty && c.socket then
      { c with drainTimer := true, waiting := true, exited := false }
    else c.giveUp

/-- What `terminate` does after `finish`. -/
def closeSocket : UdpBenchmarkClientImpl :=
  { c with measureLatencies := false, socket := false }

/-- `terminate`. -/
def terminate : UdpBenchmarkClientImpl :=
  let c := c.finish
  if c.waiting then { c with terminating := true } else c.closeSocket

/-- The dispatcher that `finish` runs has returned. -/
def finishWait : UdpBenchmarkClientImpl :=
  let c := { c with drainTimer := false, waiting := false }.giveUp
  if c.terminating then { c with terminating := false }.closeSocket else c

/-! ## Histories -/

/-- One call, with the time its clock reads. -/
inductive Event where
  | setShouldMeasureLatencies (measureLatencies : Bool)
  | prepare (message : List UInt8) (connects : Bool)
  | tryStartRequest (writes : List UInt8 → Bool) (now : Nat)
  | onReadable (reads : List (Option (List UInt8))) (now : Nat)
  /-- the sweep timer fires -/
  | sweep (now : Nat)
  /-- the dispatcher runs a posted callback -/
  | posted
  | finish
  | drainTimer
  /-- the dispatcher that `finish` runs returns to it -/
  | finishWait
  | terminate

/-- The clock is read. -/
def tick (now : Nat) : UdpBenchmarkClientImpl := { c with clock := now }

/-- What a call leads to. The worker prepares the client once, and before it finishes it; a timer
fires when it is enabled, a socket that is there becomes readable, and a dispatcher returns when it
was told to exit. The clock is never earlier than before. -/
def step (hexAtoi : HexAtoi) : Event → Option UdpBenchmarkClientImpl
  | .setShouldMeasureLatencies b => some { c with measureLatencies := b }
  | .prepare message connects =>
    if c.prepared = false ∧ c.finished = false then some (c.prepare message connects) else none
  | .tryStartRequest writes now =>
    if c.clock ≤ now then some ((c.tick now).tryStartRequest writes now) else none
  | .onReadable reads now =>
    if c.clock ≤ now ∧ c.socket = true then some (onReadable hexAtoi now reads (c.tick now))
    else none
  | .sweep now =>
    if c.clock ≤ now ∧ c.sweepTimer = some true then
      some ({ c.tick now with sweepTimer := some false }.sweep now)
    else none
  | .posted => c.callbacks.runPosted.map fun b => { c with callbacks := b }
  | .finish => if c.waiting = false then some c.finish else none
  | .drainTimer =>
    if c.drainTimer then some { c with drainTimer := false, exited := true } else none
  | .finishWait => if c.waiting = true ∧ c.exited = true then some c.finishWait else none
  | .terminate => if c.waiting = false then some c.terminate else none

/-- What the calls `es` lead to, on a new client. -/
def Reaches (hexAtoi : HexAtoi) (config : Config) (es : List Event) (c : UdpBenchmarkClientImpl) :
    Prop :=
  Lts.Run (fun a e b => step a hexAtoi e = some b) { config := config } es c

end UdpBenchmarkClientImpl

end Sortie.Engine
