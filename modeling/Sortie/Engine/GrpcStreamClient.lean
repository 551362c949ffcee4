import Sortie.Engine.StreamClient

/-!
# The gRPC streaming client

`GrpcStreamBenchmarkClientImpl` (engine/source/client/grpc_stream_client_impl.cc). What it
shares with the WebSocket client is in `Sortie.Engine.StreamClient`. Envoy decodes the
frames of a response, and how many there are in a chunk of data is an argument: the client
looks at nothing else of them.
-/

namespace Sortie.Engine

namespace GrpcStreamBenchmarkClientImpl

open StreamClient

/-- What a stream has written, with whether that ended it. -/
structure Wire where
  written : List (List UInt8 × Bool) := []
  deriving DecidableEq, Repr

end GrpcStreamBenchmarkClientImpl

/-- Messages are not numbered: they are answered in the order they were sent. -/
abbrev GrpcStreamBenchmarkClientImpl := StreamClient Unit GrpcStreamBenchmarkClientImpl.Wire

namespace GrpcStreamBenchmarkClientImpl

open StreamClient

variable (c : GrpcStreamBenchmarkClientImpl)

/-- `onStreamReady`. The stream is open right away. -/
def onStreamReady (i : Nat) (encodes : Bool) : GrpcStreamBenchmarkClientImpl :=
  let c := c.updateStream i (fun s => { s with
    cancellable := false, pooled := false, encoder := true, attached := true })
  let c := if encodes then
      (c.updateStream i (fun s => { s with state := .opened })).inc .streamsOpened
    else (c.updateStream i (fun s => { s with state := .closed })).inc .streamOpenFailures
  c.openResolved.maybeExitWaitLoop

/-- Bytes are handed to the encoder of a stream. -/
def Wire.write (w : Wire) (bytes : List UInt8) (endStream : Bool) : Wire :=
  { w with written := w.written ++ [(bytes, endStream)] }

def flavour : Flavour Unit Wire where
  onStreamReady := onStreamReady
  noStatus := some none
  keepsCancellable s := s.state == .opening
  setKey _ w := w
  nextSequence _ := ()
  writeMessage _ message _ w := w.write message false
  writeClose w := w.write [] true

/-- The server closes the stream. -/
def closeByServer (i : Nat) (status : Option Nat) : GrpcStreamBenchmarkClientImpl :=
  let c := if (c.streams i).state = .opened then c.inc .streamEarlyClose else c
  c.closeStream i (some status)

/-- `onResponseHeaders`, with the status of a response that has no more than headers. -/
def onResponseHeaders (i : Nat) (status : Option Nat) (endStream : Bool) :
    GrpcStreamBenchmarkClientImpl :=
  if endStream then closeByServer c i status else c

/-- The loop of `onResponseData`, for so many frames. -/
def onFrames (i now : Nat) : Nat → GrpcStreamBenchmarkClientImpl → GrpcStreamBenchmarkClientImpl
  | 0, c => c
  | frames + 1, c =>
    match (c.streams i).inflight with
    | [] => onFrames i now frames (c.inc .streamUnexpectedMessage)
    | message :: rest => onFrames i now frames (c.receive i message rest now)

/-- `onResponseData`. -/
def onResponseData (i frames : Nat) (endStream : Bool) (now : Nat) :
    GrpcStreamBenchmarkClientImpl :=
  let c := onFrames i now frames c
  if endStream then closeByServer c i none else c

/-- `onResponseTrailers`. -/
def onResponseTrailers (i : Nat) (status : Option Nat) : GrpcStreamBenchmarkClientImpl :=
  closeByServer c i status

/-- What `terminate` does about a stream. -/
def terminateStream (i : Nat) (signals : List Signal) : GrpcStreamBenchmarkClientImpl :=
  let s := c.streams i
  if s.state = .opening ∧ s.cancellable = true then
    let c := c.updateStream i (fun s => { s with
      pooled := false, cancellable := false, state := .closed })
    { c.openResolved with cancelled := c.cancelled + 1 }
  else if s.state = .opened ∨ s.state = .closing then
    let c := c.updateStream i (fun s => { s with state := .closed, encoder := false })
    let c := c.completeInflight i false
    if s.encoder then c.raise flavour signals else c
  else c

/-- What a stream hears of its response. -/
inductive Response where
  | headers (status : Option Nat) (endStream : Bool)
  | data (frames : Nat) (endStream : Bool)
  | trailers (status : Option Nat)
  deriving DecidableEq, Repr

def onResponse (i : Nat) (r : Response) (now : Nat) (_raises : Nat → List Signal) :
    GrpcStreamBenchmarkClientImpl :=
  match r with
  | .headers status endStream => onResponseHeaders c i status endStream
  | .data frames endStream => onResponseData c i frames endStream now
  | .trailers status => onResponseTrailers c i status

def Response.isHeaders : Response → Bool
  | .headers _ _ => true
  | _ => false

def handlers : Handlers Unit Wire Response where
  toFlavour := flavour
  -- `prepare` leaves a stream that still opens alone
  settle c _ _ := c
  onResponse := onResponse
  isHeaders := Response.isHeaders
  terminateStream := terminateStream

/-- What the calls `es` lead to, on a new client. -/
def Reaches (config : Config) (es : List (Event Response)) (c : GrpcStreamBenchmarkClientImpl) :
    Prop :=
  Lts.Run (fun a e b => StreamClient.step a handlers e = some b) (new config {} ()) es c

end GrpcStreamBenchmarkClientImpl

end Sortie.Engine
