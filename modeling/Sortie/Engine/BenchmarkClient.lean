import Sortie.Engine.Options
import Sortie.Lib.Run

/-!
# The HTTP benchmark client

`BenchmarkClientHttpImpl` (engine/source/client/benchmark_client_impl.cc) issues
requests on a connection pool and hears from the pool how each of them ended. It
keeps two tallies of the same requests:

* `requests_initiated_` and `requests_completed_`, which the closed-loop
  backpressure of `tryStartRequest` is computed from;
* `requests_outstanding_`, which `finish()` waits for.

All five callbacks run on the worker's dispatcher thread, so a history of the
client is a sequence of calls. `World` pairs the client with what really became of
the requests it accepted; the client never reads that half.
-/

namespace Sortie.Engine

/-- `Envoy::Http::Protocol`. -/
inductive Protocol where
  | http10 | http11 | http2 | http3
  deriving DecidableEq, Repr

/-- `Envoy::Http::ConnectionPool::PoolFailureReason`. -/
inductive PoolFailureReason where
  | overflow | localConnectionFailure | remoteConnectionFailure | timeout
  deriving DecidableEq, Repr

/-- `Envoy::Http::StreamResetReason`. -/
inductive StreamResetReason where
  | localReset | localRefusedStreamReset | remoteReset | remoteRefusedStreamReset
  | localConnectionFailure | remoteConnectionFailure | connectionTimeout
  | connectionTermination | overflow | connectError | protocolError | overloadManager
  | http1PrematureUpstreamHalfClose | remoteResetNoError
  deriving DecidableEq, Repr

/-- Every reason there is. -/
def StreamResetReason.all : List StreamResetReason :=
  [.localReset, .localRefusedStreamReset, .remoteReset, .remoteRefusedStreamReset,
    .localConnectionFailure, .remoteConnectionFailure, .connectionTimeout,
    .connectionTermination, .overflow, .connectError, .protocolError, .overloadManager,
    .http1PrematureUpstreamHalfClose, .remoteResetNoError]

/-- How far a response had come when its stream was reset. -/
inductive StreamResetPhase where
  | beforeHeaders | incompleteBody
  deriving DecidableEq, Repr

/--
The counters the client writes: `ALL_BENCHMARK_CLIENT_COUNTERS`, and the two families
that are created on first use, `stream_resets_<reason>` and `grpc_status.<code>`
(`none` is `grpc_status.missing`).
-/
inductive Counter where
  | streamResets
  | streamResetsBeforeHeaders | streamResetsIncompleteBody
  | streamResetReason (reason : StreamResetReason)
  | http1xx | http2xx | http3xx | http4xx | http5xx | httpXxx
  | poolOverflow | poolConnectionFailure
  | poolFailureLocalConnectionFailure | poolFailureRemoteConnectionFailure
  | poolFailureTimeout
  | grpcError
  | httpInflightLost
  | userDefinedPluginHandleHeadersFailure | userDefinedPluginHandleDataFailure
  | grpcStatus (code : Option Nat)
  deriving DecidableEq, Repr

/-- What the request generator yields, as far as `tryStartRequest` reads it. -/
structure Request where
  /-- the value of the content-length header, when there is one -/
  contentLength : Option String := none
  deriving DecidableEq, Repr

/-- A `StreamDecoder`: what it is told about the request it is created for, and what it has seen of
the response. -/
structure StreamDecoder where
  contentLength : UInt64
  /-- the HTTP status of `response_headers_`, once there are any -/
  responseHeaders : Option Nat := none
  grpcStatus : Option Nat := none
  complete : Bool := false
  deriving DecidableEq, Repr

/-- The fields of `BenchmarkClientHttpImpl` that its request callbacks read or write. -/
structure BenchmarkClient where
  protocol : Protocol
  provideResourceBackpressure : Bool
  grpc : Bool := false
  connectionLimit : UInt32 := 1
  maxPendingRequests : UInt32 := 1
  maxActiveRequests : UInt32 := UInt32.ofNat (2 ^ 32 - 1)
  requestsCompleted : UInt64 := 0
  requestsInitiated : UInt64 := 0
  requestsOutstanding : Nat := 0
  /-- seconds -/
  timeout : Nat := 30
  finished : Bool := false
  waitingInFinish : Bool := false
  finishTimedOut : Bool := false
  abandonOutstanding : Bool := false
  /-- how often `dispatcher_.exit()` was called -/
  dispatcherExits : Nat := 0
  counters : Counter → Nat := fun _ => 0

namespace BenchmarkClient

variable (c : BenchmarkClient)

/-- `counter.add(n)`. -/
def add (k : Counter) (n : Nat) : BenchmarkClient :=
  { c with counters := fun k' => if k' = k then c.counters k' + n else c.counters k' }

/-- `counter.inc()`. -/
def inc (k : Counter) : BenchmarkClient := c.add k 1

/-- `max_in_flight` of `tryStartRequest`: the sum is taken in 64 bits. -/
def maxInFlight : UInt64 :=
  let maxActive := match c.protocol with
    | .http2 | .http3 => c.maxActiveRequests.toUInt64
    | .http10 | .http11 => c.connectionLimit.toUInt64
  c.maxPendingRequests.toUInt64 + maxActive

/-- The content length a decoder is given: what does not parse counts as zero. -/
def contentLengthOf (r : Request) : UInt64 :=
  match r.contentLength with
  | none => 0
  | some text => (simpleAtoi text).getD 0

/--
`tryStartRequest`. `pool` says whether the cluster has a connection pool, and
`request` is what the generator yields. A decoder is returned exactly when the
source returns true; the pool then owns it and calls back through it.
-/
def tryStartRequest (pool : Bool) (request : Option Request) :
    Option StreamDecoder × BenchmarkClient :=
  if !pool then (none, c)
  else if c.provideResourceBackpressure
      && decide (c.maxInFlight ≤ c.requestsInitiated - c.requestsCompleted) then (none, c)
  else match request with
    | none => (none, c)
    | some r =>
      (some { contentLength := contentLengthOf r },
        { c with
          requestsInitiated := c.requestsInitiated + 1
          requestsOutstanding := c.requestsOutstanding + 1 })

/-- `onRequestDone`. -/
def onRequestDone : BenchmarkClient :=
  let left := if 0 < c.requestsOutstanding then c.requestsOutstanding - 1
    else c.requestsOutstanding
  let exits := if c.waitingInFinish && left == 0 then c.dispatcherExits + 1
    else c.dispatcherExits
  { c with requestsOutstanding := left, dispatcherExits := exits }

/-- `trackGrpcStatus`; the flag says that the call succeeded. -/
def trackGrpcStatus (status : Option Nat) : Bool × BenchmarkClient :=
  let c' := c.inc (.grpcStatus status)
  if status = some 0 then (true, c') else (false, c'.inc .grpcError)

/-- The status class a completed response is counted in. -/
def statusCounter (status : Nat) : Counter :=
  if 199 < status ∧ status ≤ 299 then .http2xx
  else if 99 < status ∧ status ≤ 199 then .http1xx
  else if 299 < status ∧ status ≤ 399 then .http3xx
  else if 399 < status ∧ status ≤ 499 then .http4xx
  else if 499 < status ∧ status ≤ 599 then .http5xx
  else .httpXxx

/-- The response half of `onComplete`: how a stream that was not reset is scored. -/
def scoreResponse (status : Nat) (grpcStatus : Option Nat) : BenchmarkClient :=
  let (grpcOk, c') := if c.grpc then c.trackGrpcStatus grpcStatus else (false, c)
  let k := statusCounter status
  if k = .http2xx ∧ c.grpc ∧ !grpcOk then c' else c'.inc k

/--
`onComplete`. `plugins` holds, for every user defined output plugin in order,
whether its `handleResponseHeaders` returned an ok status.
-/
def onComplete (success : Bool) (status : Nat) (grpcStatus : Option Nat)
    (plugins : List Bool) : BenchmarkClient :=
  let c₁ := { c with requestsCompleted := c.requestsCompleted + 1 }.onRequestDone
  let c₂ :=
    if success then c₁.scoreResponse status grpcStatus
    else
      let c' := c₁.inc .streamResets
      if c'.grpc then (c'.trackGrpcStatus grpcStatus).2 else c'
  plugins.foldl
    (fun c ok => if ok then c else c.inc .userDefinedPluginHandleHeadersFailure) c₂

/-- `handleResponseData`, with whether each plugin's `handleResponseData` returned an ok status. -/
def handleResponseData (plugins : List Bool) : BenchmarkClient :=
  plugins.foldl
    (fun c ok => if ok then c else c.inc .userDefinedPluginHandleDataFailure) c

/-- `onStreamReset`; `stream_resets` itself is counted by the `onComplete` that follows. -/
def onStreamReset (phase : StreamResetPhase) (reason : StreamResetReason) : BenchmarkClient :=
  let c' := match phase with
    | .beforeHeaders => c.inc .streamResetsBeforeHeaders
    | .incompleteBody => c.inc .streamResetsIncompleteBody
  c'.inc (.streamResetReason reason)

/-- `onPoolFailure`. -/
def onPoolFailure (reason : PoolFailureReason) : BenchmarkClient :=
  let c' := match reason with
    | .overflow => c.inc .poolOverflow
    | .localConnectionFailure =>
      (c.inc .poolConnectionFailure).inc .poolFailureLocalConnectionFailure
    | .remoteConnectionFailure =>
      (c.inc .poolConnectionFailure).inc .poolFailureRemoteConnectionFailure
    | .timeout => c.inc .poolFailureTimeout
  c'.onRequestDone

/-- `abandonOutstandingWork`. -/
def abandonOutstandingWork : BenchmarkClient :=
  { c with
    abandonOutstanding := true
    dispatcherExits := if c.waitingInFinish then c.dispatcherExits + 1 else c.dispatcherExits }

/-- The end of `finish`: what is outstanding is counted as lost. -/
def countLost : BenchmarkClient :=
  if 0 < c.requestsOutstanding then c.add .httpInflightLost c.requestsOutstanding else c

/-- `finish`, up to its wait. The flag says that it has returned, not having to wait. -/
def finish : Bool × BenchmarkClient :=
  if c.finished then (true, c)
  else
    let c := { c with finished := true }
    if 0 < c.requestsOutstanding ∧ c.abandonOutstanding = false ∧ 0 < c.timeout then
      (false, { c with waitingInFinish := true })
    else (true, c.countLost)

/-- The timer that bounds the wait. -/
def onFinishTimer : BenchmarkClient :=
  { c with finishTimedOut := true, dispatcherExits := c.dispatcherExits + 1 }

/-- The dispatcher came back: the wait goes on, or it is over and `finish` returns. -/
def finishWait : Bool × BenchmarkClient :=
  if 0 < c.requestsOutstanding ∧ c.finishTimedOut = false ∧ c.abandonOutstanding = false then
    (false, c)
  else (true, { c with waitingInFinish := false }.countLost)

end BenchmarkClient

/-! ## Histories -/

/-- One call on the client. Requests are numbered in the order they are accepted in. -/
inductive Call where
  | tryStartRequest (pool : Bool) (request : Option Request)
  | onComplete (id : Nat) (success : Bool) (status : Nat) (grpcStatus : Option Nat)
      (plugins : List Bool)
  | onPoolFailure (id : Nat) (reason : PoolFailureReason)
  deriving DecidableEq, Repr

/-- The call is a pool failure. -/
def Call.isPoolFailure : Call → Bool
  | .onPoolFailure .. => true
  | _ => false

/-- The client, and the requests it accepted that the pool has not answered yet. -/
structure World where
  client : BenchmarkClient
  /-- how many requests were accepted so far; also the number of the next one -/
  accepted : Nat
  outstanding : List Nat

/-- A client that has been configured and not been called. -/
def World.init (c : BenchmarkClient) : World :=
  { client := { c with requestsCompleted := 0, requestsInitiated := 0, requestsOutstanding := 0 },
    accepted := 0, outstanding := [] }

/--
One call. The pool answers a request it holds, and each of them once, so a
callback for a request that is not outstanding is no call of any history.
-/
def World.step (w : World) : Call → Option World
  | .tryStartRequest pool request =>
    match w.client.tryStartRequest pool request with
    | (none, c) => some { w with client := c }
    | (some _, c) =>
      some { client := c, accepted := w.accepted + 1, outstanding := w.accepted :: w.outstanding }
  | .onComplete id success status grpcStatus plugins =>
    if id ∈ w.outstanding then
      some { w with
        client := w.client.onComplete success status grpcStatus plugins
        outstanding := w.outstanding.erase id }
    else none
  | .onPoolFailure id reason =>
    if id ∈ w.outstanding then
      some { w with
        client := w.client.onPoolFailure reason
        outstanding := w.outstanding.erase id }
    else none

/-- The calls `es`, made one after another on a fresh client, lead to `w`. -/
abbrev Calls (c : BenchmarkClient) (es : List Call) (w : World) : Prop :=
  Lts.Run (fun w e w' => w.step e = some w') (World.init c) es w

end Sortie.Engine
