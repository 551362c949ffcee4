import Sortie.Engine.Callbacks
import Sortie.Lib.Run

/-!
# The streaming clients

The WebSocket client (engine/source/client/websocket_stream_client_impl.cc) and the gRPC
client (engine/source/client/grpc_stream_client_impl.cc) keep the same books about streams
that carry messages and their echoes. What they do in the same way is here, for both; a
`Flavour` and `Handlers` say what each does in its own way.

Envoy may call back from inside a call. Such a callback is a `Signal`, and which ones come
is an argument of the call: `newStream`, `encodeData` and `resetStream` may raise any of
them, for any stream that can have them, and `encodeHeaders` and `cancel` raise none. What
Envoy knows of a stream is kept with it, in `pooled`, `attached` and `answered`.
-/

namespace Sortie.Engine

namespace StreamClient

/-- `ALL_WEBSOCKET_STREAM_COUNTERS` and `ALL_GRPC_STREAM_COUNTERS`. -/
inductive Counter where
  | streamsOpened | streamOpenFailures | streamUpgradeRejected | streamMessagesSent
  | streamMessagesReceived | streamDeferred | streamUnavailable | streamResets | streamEarlyClose
  | streamUnexpectedMessage | streamProtocolErrors | streamInflightLost | streamDrainIncomplete
  | streamWriteBlocked
  /-- `stream_grpc_status.<code>`, or `missing` -/
  | streamGrpcStatus (status : Option Nat)
  deriving DecidableEq, Repr

/-- `StreamState`; `closing` is what the gRPC client calls `HalfClosed`. -/
inductive StreamState where
  | opening | opened | closing | closed
  deriving DecidableEq, Repr

inductive WaitingFor where
  | nothing | opens | closes
  deriving DecidableEq, Repr

/-- `InflightMessage`; `τ` is what a client tells its messages apart by. -/
structure InflightMessage (τ : Type) where
  sequence : τ
  sentAt : Nat
  completionCallback : Nat
  deriving DecidableEq, Repr

/-- `Stream`; `ρ` is what a client keeps of the bytes of a stream. -/
structure Stream (τ ρ : Type) where
  state : StreamState := .opening
  /-- there is an encoder -/
  encoder : Bool := false
  /-- there is a handle to take the request for the stream back -/
  cancellable : Bool := false
  inflight : List (InflightMessage τ) := []
  writeBlocked : Bool := false
  wire : ρ
  /-- the pool was asked for the stream, and has neither answered nor been told to forget it -/
  pooled : Bool := false
  /-- the pool gave an encoder, whose events the stream hears of -/
  attached : Bool := false
  /-- response headers were received -/
  answered : Bool := false
  deriving Repr

/-- What a client is constructed with; it refuses to be without streams, or with ones that may hold
no message. -/
structure Config where
  streamCount : UInt32
  maxInflightPerStream : UInt32
  /-- of the WebSocket client only -/
  binary : Bool := false
  streamCount_pos : 0 < streamCount.toNat
  maxInflight_pos : 0 < maxInflightPerStream.toNat

/-- What Envoy may call back from inside a call. -/
inductive Signal where
  /-- the pool has a stream, and its request headers can be encoded or not -/
  | ready (i : Nat) (encodes : Bool)
  | failure (i : Nat)
  | reset (i : Nat)
  | writeBlocked (i : Nat) (blocked : Bool)
  deriving DecidableEq, Repr

/-- What Envoy does when a stream is to be opened. -/
structure Opening where
  /-- the cluster has a pool -/
  pool : Bool := true
  /-- the key that was drawn -/
  key : String := ""
  raises : List Signal := []

end StreamClient

open StreamClient in
structure StreamClient (τ ρ : Type) where
  config : Config
  counters : Counter → Nat := fun _ => 0
  streams : Nat → StreamClient.Stream τ ρ
  message : List UInt8 := []
  nextSequence : τ
  nextStream : Nat := 0
  pendingOpens : Nat := 0
  /-- `pending_opens_` was counted down from zero, where it wraps around -/
  underflowed : Bool := false
  measureLatencies : Bool := false
  waitingFor : WaitingFor := .nothing
  /-- `dispatcher_.exit()` was called since the wait began -/
  exited : Bool := false
  /-- the timer of the wait is enabled -/
  waitTimer : Bool := false
  finished : Bool := false
  /-- `prepare` was called -/
  prepared : Bool := false
  /-- `terminate` is waiting in `finish` -/
  terminating : Bool := false
  /-- `terminate` has returned -/
  terminated : Bool := false
  callbacks : Callbacks := {}
  messageLatencies : List Nat := []
  /-- how many streams `openStream` was called for; the clients do not count them -/
  opens : Nat := 0
  /-- how many streams were given up on by `terminate`, which counts them nowhere -/
  cancelled : Nat := 0

namespace StreamClient

variable {τ ρ : Type} (c : StreamClient τ ρ)

/-- `counter.inc()`. -/
def inc (k : Counter) : StreamClient τ ρ :=
  { c with counters := fun k' => if k' = k then c.counters k' + 1 else c.counters k' }

def updateStream (i : Nat) (f : Stream τ ρ → Stream τ ρ) : StreamClient τ ρ :=
  { c with streams := Function.update c.streams i (f (c.streams i)) }

/-- A loop over the streams. -/
def eachStream (f : StreamClient τ ρ → Nat → StreamClient τ ρ) : StreamClient τ ρ :=
  (List.range c.config.streamCount.toNat).foldl f c

/-- `pending_opens_--`. -/
def openResolved : StreamClient τ ρ :=
  { c with
    pendingOpens := c.pendingOpens - 1
    underflowed := c.underflowed || c.pendingOpens == 0 }

/-- `openStreams`. -/
def openStreams : Nat :=
  (List.range c.config.streamCount.toNat).countP fun i =>
    (c.streams i).state = .opened || (c.streams i).state = .closing

/-- `maybeExitWaitLoop`. -/
def maybeExitWaitLoop : StreamClient τ ρ :=
  match c.waitingFor with
  | .opens => if c.pendingOpens = 0 then { c with exited := true } else c
  | .closes => if c.openStreams = 0 then { c with exited := true } else c
  | .nothing => c

/-- A message of a stream is let go of, with `rest` left in flight, and its callback invoked. -/
def complete (i : Nat) (message : InflightMessage τ) (rest : List (InflightMessage τ))
    (success : Bool) : StreamClient τ ρ :=
  { c.updateStream i (fun s => { s with inflight := rest }) with
    callbacks := c.callbacks.invoke message.completionCallback true success }

/-- The loop of `completeInflight`, over what is left in flight. -/
def completeMessages (i : Nat) (success : Bool) :
    List (InflightMessage τ) → StreamClient τ ρ → StreamClient τ ρ
  | [], c => c
  | message :: rest, c =>
    let c := if success then c else c.inc .streamInflightLost
    completeMessages i success rest (c.complete i message rest success)

/-- `completeInflight`. -/
def completeInflight (i : Nat) (success : Bool) : StreamClient τ ρ :=
  completeMessages i success (c.streams i).inflight c

/-- A latency for the statistic, when latencies are measured. -/
def addLatency (latency : Nat) : StreamClient τ ρ :=
  if c.measureLatencies then { c with messageLatencies := c.messageLatencies ++ [latency] } else c

/-- A message is answered. -/
def receive (i : Nat) (message : InflightMessage τ) (rest : List (InflightMessage τ)) (now : Nat) :
    StreamClient τ ρ :=
  let c := c.inc .streamMessagesReceived
  let c := c.complete i message rest true
  c.addLatency (now - message.sentAt)

/-- `closeStream`; the gRPC client counts the status that a stream closes with, or that it has none.
-/
def closeStream (i : Nat) (status : Option (Option Nat)) : StreamClient τ ρ :=
  if (c.streams i).state = .closed then c
  else
    let c := c.updateStream i (fun s => { s with state := .closed, encoder := false })
    let c := status.elim c (fun s => c.inc (.streamGrpcStatus s))
    let c := c.completeInflight i false
    c.maybeExitWaitLoop

/-- `onStreamOpenFailure`. -/
def onStreamOpenFailure (i : Nat) : StreamClient τ ρ :=
  let c := c.updateStream i
    (fun s => { s with cancellable := false, pooled := false, state := .closed })
  let c := c.inc .streamOpenFailures
  c.openResolved.maybeExitWaitLoop

/-- `onStreamReset`. -/
def onStreamReset (i : Nat) (status : Option (Option Nat)) : StreamClient τ ρ :=
  if (c.streams i).state = .closed then c
  else
    let c := c.inc .streamResets
    let c := if (c.streams i).state = .opening then (c.inc .streamOpenFailures).openResolved else c
    c.closeStream i status

/-- `onWriteBlocked`. -/
def onWriteBlocked (i : Nat) (blocked : Bool) : StreamClient τ ρ :=
  let c := if blocked && !(c.streams i).writeBlocked then c.inc .streamWriteBlocked else c
  c.updateStream i (fun s => { s with writeBlocked := blocked })

/-- What the two clients do in their own ways while they open streams and send. -/
structure Flavour (τ ρ : Type) where
  /-- `onStreamReady`, with whether the request headers can be encoded -/
  onStreamReady : StreamClient τ ρ → Nat → Bool → StreamClient τ ρ
  /-- what `closeStream` counts when there is no status -/
  noStatus : Option (Option Nat)
  /-- whether `openStream` keeps the handle that the pool returned -/
  keepsCancellable : Stream τ ρ → Bool
  /-- the key of a stream -/
  setKey : String → ρ → ρ
  /-- the sequence number after this one -/
  nextSequence : τ → τ
  /-- a message is written, behind its sequence number -/
  writeMessage : Config → List UInt8 → τ → ρ → ρ
  /-- the last thing that is written -/
  writeClose : ρ → ρ

variable (F : Flavour τ ρ)

/-- Whether Envoy can call this back now. -/
def Raisable : Signal → Prop
  | .ready i _ | .failure i => i < c.config.streamCount.toNat ∧ (c.streams i).pooled = true
  | .reset i | .writeBlocked i _ => i < c.config.streamCount.toNat ∧ (c.streams i).attached = true

instance (s : Signal) : Decidable (c.Raisable s) :=
  match s with
  | .ready _ _ | .failure _ | .reset _ | .writeBlocked _ _ => inferInstanceAs (Decidable (_ ∧ _))

/-- The callbacks of `StreamHandler` that are not about a response. -/
def onSignal : Signal → StreamClient τ ρ
  | .ready i encodes => F.onStreamReady c i encodes
  | .failure i => c.onStreamOpenFailure i
  | .reset i => c.onStreamReset i F.noStatus
  | .writeBlocked i blocked => c.onWriteBlocked i blocked

/-- Envoy calls back from inside a call. -/
def raise (signals : List Signal) : StreamClient τ ρ :=
  signals.foldl (fun c s => if c.Raisable s then c.onSignal F s else c) c

/-- `openStream`. The pool returns a handle unless it has called back. -/
def openStream (i : Nat) (o : Opening) : StreamClient τ ρ :=
  let c := { c with opens := c.opens + 1 }
  if !o.pool then (c.updateStream i (fun s => { s with state := .closed })).inc .streamOpenFailures
  else
    let c := c.updateStream i (fun s => { s with wire := F.setKey o.key s.wire, pooled := true })
    let c := { c with pendingOpens := c.pendingOpens + 1 }.raise F o.raises
    if F.keepsCancellable (c.streams i) then
      c.updateStream i (fun s => { s with cancellable := s.pooled })
    else c

/-- `prepare`, as far as the wait for the streams to open. -/
def prepare (message : List UInt8) (openings : Nat → Opening) : StreamClient τ ρ :=
  let c := { c with message := message, prepared := true }
  let c := c.eachStream (fun c i => c.openStream F i (openings i))
  if c.pendingOpens = 0 then c
  else { c with waitingFor := .opens, exited := false, waitTimer := true }

/-- A message that cannot be sent is dropped, and completes when the dispatcher gets to it. -/
def drop (k : Counter) (callback : Nat) : StreamClient τ ρ :=
  let c := c.inc k
  { c with callbacks := c.callbacks.post callback true false }

/-- A message is put in flight and written. -/
def send (i callback now : Nat) (signals : List Signal) : StreamClient τ ρ :=
  let sequence := c.nextSequence
  let message := { sequence := sequence, sentAt := now, completionCallback := callback }
  let c := { c with nextSequence := F.nextSequence sequence }
  let c := c.updateStream i (fun s => { s with
    inflight := s.inflight ++ [message]
    wire := F.writeMessage c.config c.message sequence s.wire })
  (c.raise F signals).inc .streamMessagesSent

/-- `tryStartRequest`; it always answers that the message was started. -/
def tryStartRequest (now : Nat) (signals : List Signal) : StreamClient τ ρ :=
  let i := c.nextStream
  let callback := c.callbacks.calls
  let c := { c with
    nextStream := (i + 1) % c.config.streamCount.toNat
    callbacks := c.callbacks.give }
  let s := c.streams i
  if s.state ≠ .opened then c.drop .streamUnavailable callback
  else if s.writeBlocked || c.config.maxInflightPerStream.toNat ≤ s.inflight.length then
    c.drop .streamDeferred callback
  else c.send F i callback now signals

/-- A stream that is open is told to end. -/
def closeGently (i : Nat) (signals : List Signal) : StreamClient τ ρ :=
  if (c.streams i).state = .opened ∧ (c.streams i).encoder = true then
    let c := c.updateStream i (fun s => { s with wire := F.writeClose s.wire })
    let c := c.raise F signals
    c.updateStream i (fun s => { s with state := .closing })
  else c

/-- `finish`, as far as the wait for the streams to close. -/
def finish (raises : Nat → List Signal) : StreamClient τ ρ :=
  if c.finished then c
  else
    let c := { c with finished := true }
    let c := c.eachStream (fun c i => c.closeGently F i (raises i))
    if c.openStreams = 0 then c
    else { c with waitingFor := .closes, exited := false, waitTimer := true }

/-- A stream that was not closed within the drain window. -/
def giveUp (i : Nat) : StreamClient τ ρ :=
  if (c.streams i).state = .opened ∨ (c.streams i).state = .closing then
    (c.inc .streamDrainIncomplete).completeInflight i false
  else c

/-- The end of `finish`. -/
def drainDone : StreamClient τ ρ :=
  let c := { c with waitTimer := false, waitingFor := .nothing }
  c.eachStream giveUp

/-- What the two clients do in their own ways about a response `R` and at the ends. -/
structure Handlers (τ ρ R : Type) extends Flavour τ ρ where
  /-- what `prepare` does about a stream after its wait -/
  settle : StreamClient τ ρ → Nat → List Signal → StreamClient τ ρ
  /-- the callbacks of `StreamHandler` that are about a response -/
  onResponse : StreamClient τ ρ → Nat → R → Nat → (Nat → List Signal) → StreamClient τ ρ
  /-- it is the headers -/
  isHeaders : R → Bool
  /-- what `terminate` does about a stream -/
  terminateStream : StreamClient τ ρ → Nat → List Signal → StreamClient τ ρ

variable {R : Type} (H : Handlers τ ρ R)

/-- The dispatcher that `prepare` runs has returned. -/
def prepareWait (raises : Nat → List Signal) : StreamClient τ ρ :=
  let c := { c with waitTimer := false, waitingFor := .nothing }
  c.eachStream (fun c i => H.settle c i (raises i))

/-- What `terminate` does after `finish`. -/
def terminateStreams (raises : Nat → List Signal) : StreamClient τ ρ :=
  let c := { c with measureLatencies := false }
  let c := c.eachStream (fun c i => H.terminateStream c i (raises i))
  { c with terminated := true }

/-- `terminate`, as far as `finish` waits. -/
def terminate (raises raises' : Nat → List Signal) : StreamClient τ ρ :=
  let c := c.finish H.toFlavour raises
  if c.waitingFor = .closes then { c with terminating := true } else c.terminateStreams H raises'

/-- The dispatcher that `finish` runs has returned. -/
def finishWait (raises : Nat → List Signal) : StreamClient τ ρ :=
  let c := c.drainDone
  if c.terminating then { c with terminating := false }.terminateStreams H raises else c

/-! ## Histories -/

/-- One call. -/
inductive Event (R : Type) where
  | setShouldMeasureLatencies (measureLatencies : Bool)
  | prepare (message : List UInt8) (openings : Nat → Opening)
  /-- the dispatcher that `prepare` runs returns to it -/
  | prepareWait (raises : Nat → List Signal)
  | tryStartRequest (now : Nat) (signals : List Signal)
  | signal (s : Signal)
  | response (i : Nat) (r : R) (now : Nat) (raises : Nat → List Signal)
  /-- the dispatcher runs a posted callback -/
  | posted
  /-- the timer of a wait fires -/
  | waitTimer
  | finish (raises : Nat → List Signal)
  /-- the dispatcher that `finish` runs returns to it -/
  | finishWait (raises : Nat → List Signal)
  /-- with what is raised while streams are told to end, and while they are reset -/
  | terminate (raises raises' : Nat → List Signal)

/-- A response is handled, and has had headers from then on. -/
def respond (i : Nat) (r : R) (now : Nat) (raises : Nat → List Signal) : StreamClient τ ρ :=
  (H.onResponse c i r now raises).updateStream i
    (fun s => { s with answered := s.answered || H.isHeaders r })

/-- What a call leads to. The worker prepares the client once, before it finishes or terminates it.
A response comes on a stream the pool gave, its headers first. A timer fires when it is enabled, and
a dispatcher returns when it was told to exit. -/
def step : Event R → Option (StreamClient τ ρ)
  | .setShouldMeasureLatencies b => some { c with measureLatencies := b }
  | .prepare message openings =>
    if c.prepared = false then some (c.prepare H.toFlavour message openings) else none
  | .prepareWait raises =>
    if c.waitingFor = .opens ∧ c.exited = true then some (c.prepareWait H raises) else none
  | .tryStartRequest now signals => some (c.tryStartRequest H.toFlavour now signals)
  | .signal s => if c.Raisable s then some (c.onSignal H.toFlavour s) else none
  | .response i r now raises =>
    if i < c.config.streamCount.toNat ∧ (c.streams i).attached = true
        ∧ ((c.streams i).answered = true ∨ H.isHeaders r = true) then
      some (c.respond H i r now raises)
    else none
  | .posted => c.callbacks.runPosted.map fun b => { c with callbacks := b }
  | .waitTimer =>
    if c.waitTimer = true then some { c with waitTimer := false, exited := true } else none
  | .finish raises =>
    if c.prepared = true ∧ c.waitingFor = .nothing then some (c.finish H.toFlavour raises) else none
  | .finishWait raises =>
    if c.waitingFor = .closes ∧ c.exited = true then some (c.finishWait H raises) else none
  | .terminate raises raises' =>
    if c.prepared = true ∧ c.waitingFor = .nothing then some (c.terminate H raises raises')
    else none

/-- A new client. -/
def new (config : Config) (wire : ρ) (sequence : τ) : StreamClient τ ρ :=
  { config := config, streams := fun _ => { wire := wire }, nextSequence := sequence }

end StreamClient

end Sortie.Engine
