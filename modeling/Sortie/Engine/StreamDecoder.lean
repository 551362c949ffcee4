import Sortie.Engine.BenchmarkClient

/-!
# A request from the pool's point of view

`StreamDecoder` (engine/source/client/stream_decoder.cc) stands between the pool and
the benchmark client for one request: it is told about the response as it arrives, or
that there will be none, and reports the end to the client and to whoever started the
request. `Traffic` is a client with all its decoders, and with a record of how the
requests ended that neither of them reads.

The pool may call back from inside `newStream`, so before `tryStartRequest` returns.
`newStream` is the last thing that function does, and such a callback is a call that
comes right after it here.
-/

namespace Sortie.Engine

namespace StreamDecoder

variable (d : StreamDecoder) (c : BenchmarkClient)

/-- What a callback leads to: the decoder and the client it leaves behind, and the arguments of the
caller's completion callback when it was invoked, after which the decoder is deleted. -/
structure Result where
  decoder : StreamDecoder
  client : BenchmarkClient
  called : Option (Bool × Bool) := none

/-- `onComplete`. A stream without response headers is reported with empty ones, whose status reads
as zero. -/
def onComplete (success : Bool) (plugins : List Bool) : Result where
  decoder := d
  client := c.onComplete success (d.responseHeaders.getD 0) d.grpcStatus plugins
  called := some (d.complete, success)

/-- `decodeHeaders`. The status of a trailers-only response is in its headers, and provisional. -/
def decodeHeaders (status : Nat) (grpcStatus : Option Nat) (endStream : Bool)
    (plugins : List Bool) : Result :=
  let d := { d with
    complete := endStream
    responseHeaders := some status
    grpcStatus := grpcStatus }
  if d.complete then d.onComplete c true plugins else { decoder := d, client := c }

/-- `decodeData`; the plugins see the data after the completion. -/
def decodeData (endStream : Bool) (plugins dataPlugins : List Bool) : Result :=
  let d := { d with complete := endStream }
  let r : Result :=
    if d.complete then d.onComplete c true plugins else { decoder := d, client := c }
  { r with client := r.client.handleResponseData dataPlugins }

/-- `decodeTrailers`: a status in the trailers replaces the one of the headers. -/
def decodeTrailers (grpcStatus : Option Nat) (plugins : List Bool) : Result :=
  let d := { d with complete := true, grpcStatus := grpcStatus.or d.grpcStatus }
  d.onComplete c true plugins

/-- How far the response has come. -/
def phase : StreamResetPhase :=
  match d.responseHeaders with
  | none => .beforeHeaders
  | some _ => .incompleteBody

/-- `onResetStream`. -/
def onResetStream (reason : StreamResetReason) (plugins : List Bool) : Result :=
  d.onComplete (c.onStreamReset d.phase reason) false plugins

/-- `onPoolFailure`. -/
def onPoolFailure (reason : PoolFailureReason) : Result where
  decoder := d
  client := c.onPoolFailure reason
  called := some (false, false)

end StreamDecoder

/-! ## Traffic -/

/-- How the request of a decoder ended. -/
inductive Terminal where
  | response
  | reset (phase : StreamResetPhase) (reason : StreamResetReason)
  | poolFailure (reason : PoolFailureReason)
  deriving DecidableEq, Repr

/-- A request that ended: with what, what its decoder had seen by then, and which of the client's
counters the end moved. -/
structure Ended where
  id : Nat
  terminal : Terminal
  /-- the HTTP status, zero without response headers -/
  status : Nat
  grpcStatus : Option Nat
  moved : Counter → Bool

/-- Where the client's `finish` is. -/
inductive FinishPhase where
  | notCalled | waiting | returned
  deriving DecidableEq, Repr

/-- A client, the decoders of its requests, and what became of the others. -/
structure Traffic where
  client : BenchmarkClient
  accepted : Nat := 0
  decoders : List (Nat × StreamDecoder) := []
  ended : List Ended := []
  /-- the caller callbacks that ran, by request -/
  callbacks : List (Nat × Bool × Bool) := []
  finish : FinishPhase := .notCalled

inductive TrafficEvent where
  | tryStartRequest (pool : Bool) (request : Option Request)
  | decodeHeaders (id : Nat) (status : Nat) (grpcStatus : Option Nat) (endStream : Bool)
      (plugins : List Bool)
  | decodeData (id : Nat) (endStream : Bool) (plugins dataPlugins : List Bool)
  | decodeTrailers (id : Nat) (grpcStatus : Option Nat) (plugins : List Bool)
  | onResetStream (id : Nat) (reason : StreamResetReason) (plugins : List Bool)
  | onPoolFailure (id : Nat) (reason : PoolFailureReason)
  | abandonOutstandingWork
  | finish
  | finishTimer
  /-- the dispatcher that `finish` runs returns to it -/
  | finishWait
  deriving DecidableEq, Repr

namespace Traffic

variable (w : Traffic)

/-- A decoder of a request was called back: it goes on, or its request has ended. -/
def deliver (id : Nat) (terminal : Terminal) (r : StreamDecoder.Result) : Traffic :=
  match r.called with
  | none =>
    { w with
      client := r.client
      decoders := w.decoders.map (fun x => if x.1 = id then (id, r.decoder) else x) }
  | some args =>
    { w with
      client := r.client
      decoders := w.decoders.eraseP (·.1 = id)
      ended := w.ended ++
        [{ id := id
           terminal := terminal
           status := r.decoder.responseHeaders.getD 0
           grpcStatus := r.decoder.grpcStatus
           moved := fun k => decide (r.client.counters k ≠ w.client.counters k) }]
      callbacks := w.callbacks ++ [(id, args)] }

/-- A callback for a request that has not ended. -/
def callBack (id : Nat) (terminal : StreamDecoder → Terminal)
    (f : StreamDecoder → BenchmarkClient → StreamDecoder.Result) : Option Traffic :=
  match w.decoders.find? (·.1 = id) with
  | none => none
  | some (_, d) => some (w.deliver id (terminal d) (f d w.client))

/-- A step of `finish`, and whether that made it return. -/
def finishing : Bool × BenchmarkClient → Traffic
  | (true, c) => { w with client := c, finish := .returned }
  | (false, c) => { w with client := c, finish := .waiting }

/-- One call. The pool calls a decoder back as long as its request has not ended. -/
def step : TrafficEvent → Option Traffic
  | .tryStartRequest pool request =>
    match w.client.tryStartRequest pool request with
    | (none, c) => some { w with client := c }
    | (some d, c) =>
      some { w with
        client := c
        accepted := w.accepted + 1
        decoders := w.decoders ++ [(w.accepted, d)] }
  | .decodeHeaders id status grpcStatus endStream plugins =>
    w.callBack id (fun _ => .response)
      (fun d c => d.decodeHeaders c status grpcStatus endStream plugins)
  | .decodeData id endStream plugins dataPlugins =>
    w.callBack id (fun _ => .response) (fun d c => d.decodeData c endStream plugins dataPlugins)
  | .decodeTrailers id grpcStatus plugins =>
    w.callBack id (fun _ => .response) (fun d c => d.decodeTrailers c grpcStatus plugins)
  | .onResetStream id reason plugins =>
    w.callBack id (fun d => .reset d.phase reason) (fun d c => d.onResetStream c reason plugins)
  | .onPoolFailure id reason =>
    w.callBack id (fun _ => .poolFailure reason) (fun d c => d.onPoolFailure c reason)
  | .abandonOutstandingWork => some { w with client := w.client.abandonOutstandingWork }
  | .finish => if w.finish = .waiting then none else some (w.finishing w.client.finish)
  | .finishTimer =>
    if w.finish = .waiting then some { w with client := w.client.onFinishTimer } else none
  | .finishWait =>
    if w.finish = .waiting then some (w.finishing w.client.finishWait) else none

/-- A client that has been configured and not been called. -/
def init (c : BenchmarkClient) : Traffic where
  client := { c with
    requestsCompleted := 0
    requestsInitiated := 0
    requestsOutstanding := 0
    finished := false
    waitingInFinish := false
    finishTimedOut := false
    abandonOutstanding := false
    counters := fun _ => 0 }

/-- What the calls `es` lead to, on a fresh client. -/
def Reaches (c : BenchmarkClient) (es : List TrafficEvent) (w : Traffic) : Prop :=
  Lts.Run (fun a e b => Traffic.step a e = some b) (init c) es w

end Traffic

end Sortie.Engine
