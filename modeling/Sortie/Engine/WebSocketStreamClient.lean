import Sortie.Engine.SequencePrefix
import Sortie.Engine.StreamClient
import Sortie.Lib.Text
import Sortie.Proof.WebSocket

/-!
# The WebSocket client

`WebSocketStreamBenchmarkClientImpl` (engine/source/client/websocket_stream_client_impl.cc).
What it shares with the gRPC client is in `Sortie.Engine.StreamClient`. The frames a stream
has written are kept in the order they were sent.
-/

namespace Sortie.Engine

namespace WebSocketStreamBenchmarkClientImpl

open StreamClient Sortie.Engine.WebSocket

/-- What the client uses of other libraries. -/
structure Outside where
  /-- `WebSocket::acceptKey`, which hashes -/
  acceptKey : String → String
  /-- `absl::SimpleHexAtoi`, on bytes -/
  simpleHexAtoi : List UInt8 → Option UInt64

/-- The bytes of a stream. -/
structure Wire where
  key : String := ""
  received : List UInt8 := []
  /-- a fragmented message being reassembled -/
  fragments : List UInt8 := []
  written : List Frame := []
  /-- the decoder has taken every whole frame -/
  settled : readFrame received = .wait := by rfl
  deriving DecidableEq, Repr

end WebSocketStreamBenchmarkClientImpl

abbrev WebSocketStreamBenchmarkClientImpl :=
  StreamClient UInt64 WebSocketStreamBenchmarkClientImpl.Wire

namespace WebSocketStreamBenchmarkClientImpl

open StreamClient Sortie.Engine.WebSocket

/-- The headers of a response, as far as an upgrade looks at them. -/
structure ResponseHeaders where
  status : Nat
  upgrade : Option String := none
  connection : Option String := none
  accept : List String := []
  deriving DecidableEq, Repr

/-- `absl::EqualsIgnoreCase`. -/
def equalsIgnoreCase (s t : String) : Bool := Text.asciiLower s == Text.asciiLower t

/-- `absl::StripAsciiWhitespace`. -/
def stripAsciiWhitespace (s : String) : String :=
  let blank (c : Char) : Bool := c == ' ' || ('\t' ≤ c && c ≤ '\r')
  String.ofList (((s.toList.dropWhile blank).reverse.dropWhile blank).reverse)

/-- Whether a response accepts the upgrade of a stream with this key. -/
def accepted (out : Outside) (key : String) (headers : ResponseHeaders) : Bool :=
  let upgradeHeaderOk := headers.upgrade.any (equalsIgnoreCase · "websocket")
  let connectionHeaderOk := headers.connection.any fun connection =>
    (Text.split connection ',').any fun token =>
      equalsIgnoreCase (stripAsciiWhitespace token) "upgrade"
  headers.status == 101 && upgradeHeaderOk && connectionHeaderOk
    && headers.accept == [out.acceptKey key]

variable (c : WebSocketStreamBenchmarkClientImpl)

/-- `onStreamReady`. The stream stays opening until it is answered. -/
def onStreamReady (i : Nat) (encodes : Bool) : WebSocketStreamBenchmarkClientImpl :=
  let c := c.updateStream i (fun s => { s with
    cancellable := false, pooled := false, encoder := true, attached := true })
  if encodes then c
  else (c.inc .streamOpenFailures).openResolved.closeStream i none

/-- The decoder was fed, and left this in the buffer. -/
def Wire.keep (w : Wire) (data : List UInt8) : Wire :=
  { w with received := (Decoder.feed data).rest, settled := readFrame_rest data }

/-- A frame is handed to the encoder of a stream. -/
def Wire.write (w : Wire) (frame : Frame) : Wire := { w with written := w.written ++ [frame] }

def flavour : Flavour UInt64 Wire where
  onStreamReady := onStreamReady
  noStatus := none
  keepsCancellable s := s.state == .opening && !s.encoder
  setKey key w := { w with key := key }
  nextSequence sequence := sequence + 1
  writeMessage config message sequence w := w.write
    { opcode := if config.binary then .binary else .text
      payload := sequencePrefix sequence ++ message }
  writeClose w := w.write (closeFrame 1000)

/-- `send`. -/
def send (i : Nat) (frame : Frame) (signals : List Signal) : WebSocketStreamBenchmarkClientImpl :=
  (c.updateStream i (fun s => { s with wire := s.wire.write frame })).raise flavour signals

/-- `onResponseHeaders`. -/
def onResponseHeaders (out : Outside) (i : Nat) (headers : ResponseHeaders) (endStream : Bool)
    (raises : Nat → List Signal) : WebSocketStreamBenchmarkClientImpl :=
  if (c.streams i).state ≠ .opening then c
  else
    let ok := accepted out (c.streams i).wire.key headers
    let c := c.openResolved
    if !ok || endStream then
      let c := c.inc .streamUpgradeRejected
      let encoder := (c.streams i).encoder
      let c := c.closeStream i none
      if encoder && !endStream then c.raise flavour (raises 0) else c
    else
      let c := c.updateStream i (fun s => { s with state := .opened })
      (c.inc .streamsOpened).maybeExitWaitLoop

/-- `onMessage`. -/
def onMessage (out : Outside) (i : Nat) (payload : List UInt8) (now : Nat) :
    WebSocketStreamBenchmarkClientImpl :=
  if payload.length < kSequencePrefixLength then c.inc .streamUnexpectedMessage
  else match out.simpleHexAtoi (payload.take kSequencePrefixLength) with
    | none => c.inc .streamUnexpectedMessage
    | some sequence =>
      let inflight := (c.streams i).inflight
      match inflight.find? (fun m => m.sequence == sequence) with
      | none => c.inc .streamUnexpectedMessage
      | some message => c.receive i message (inflight.eraseP fun m => m.sequence == sequence) now

/-- A frame of a message; the last one completes it. -/
def onFragment (out : Outside) (i : Nat) (frame : Frame) (now : Nat) :
    WebSocketStreamBenchmarkClientImpl :=
  let c := c.updateStream i (fun s => { s with
    wire := { s.wire with fragments := s.wire.fragments ++ frame.payload } })
  if frame.fin then
    (onMessage c out i (c.streams i).wire.fragments now).updateStream i (fun s => { s with
      wire := { s.wire with fragments := [] } })
  else c

/-- The loop of `onResponseData` over the frames, counted by `k`, and whether it has returned at a
Close. -/
def onFrames (out : Outside) (i now : Nat) (raises : Nat → List Signal) :
    Nat → List Frame → WebSocketStreamBenchmarkClientImpl →
      WebSocketStreamBenchmarkClientImpl × Bool
  | _, [], c => (c, false)
  | k, frame :: frames, c =>
    match frame.opcode with
    | .text | .binary | .continuation =>
      onFrames out i now raises (k + 1) frames (onFragment c out i frame now)
    | .ping =>
      let c := if (c.streams i).state = .opened then
          send c i { frame with opcode := .pong } (raises k)
        else c
      onFrames out i now raises (k + 1) frames c
    | .pong => onFrames out i now raises (k + 1) frames c
    | .close =>
      -- the server closes first: its Close is answered
      let c := if (c.streams i).state = .opened then
          send (c.inc .streamEarlyClose) i (closeFrame 1000) (raises k)
        else c
      (c.closeStream i none, true)

/-- `onResponseEnd`. -/
def onResponseEnd (i : Nat) : WebSocketStreamBenchmarkClientImpl :=
  let c := if (c.streams i).state = .opened then c.inc .streamEarlyClose else c
  c.closeStream i none

/-- `onResponseData`. -/
def onResponseData (out : Outside) (i : Nat) (data : List UInt8) (endStream : Bool) (now : Nat)
    (raises : Nat → List Signal) : WebSocketStreamBenchmarkClientImpl :=
  if (c.streams i).state = .opened ∨ (c.streams i).state = .closing then
    let fed := Decoder.feed ((c.streams i).wire.received ++ data)
    let c := c.updateStream i (fun s => { s with wire := s.wire.keep (s.wire.received ++ data) })
    if !fed.ok then
      let c := c.inc .streamProtocolErrors
      let encoder := (c.streams i).encoder
      let c := c.closeStream i none
      if encoder then c.raise flavour (raises 0) else c
    else
      match onFrames out i now raises 0 fed.items c with
      | (c, true) => c
      | (c, false) => if endStream then onResponseEnd c i else c
  else if endStream then onResponseEnd c i
  else c

/-- What `prepare` does about a stream that still opens when the wait is over. -/
def settle (i : Nat) (signals : List Signal) : WebSocketStreamBenchmarkClientImpl :=
  if (c.streams i).state ≠ .opening then c
  else
    let c := (c.inc .streamOpenFailures).openResolved
    let encoder := (c.streams i).encoder
    let cancellable := (c.streams i).cancellable
    let c := c.updateStream i (fun s => { s with cancellable := false })
    let c := c.closeStream i none
    if encoder then c.raise flavour signals
    else if cancellable then c.updateStream i (fun s => { s with pooled := false })
    else c

/-- What `terminate` does about a stream. -/
def terminateStream (i : Nat) (signals : List Signal) : WebSocketStreamBenchmarkClientImpl :=
  let s := c.streams i
  if s.state = .opening ∧ s.encoder = false ∧ s.cancellable = true then
    let c := c.updateStream i (fun s => { s with
      pooled := false, cancellable := false, state := .closed })
    { c.openResolved with cancelled := c.cancelled + 1 }
  else if s.state ≠ .closed then
    let c := if s.state = .opening then { c.openResolved with cancelled := c.cancelled + 1 } else c
    let c := c.updateStream i (fun s => { s with state := .closed, encoder := false })
    let c := c.completeInflight i false
    if s.encoder then c.raise flavour signals else c
  else c

/-- What a stream hears of its response. -/
inductive Response where
  | headers (headers : ResponseHeaders) (endStream : Bool)
  | data (bytes : List UInt8) (endStream : Bool)
  | trailers
  deriving DecidableEq, Repr

def onResponse (out : Outside) (i : Nat) (r : Response) (now : Nat) (raises : Nat → List Signal) :
    WebSocketStreamBenchmarkClientImpl :=
  match r with
  | .headers headers endStream => onResponseHeaders c out i headers endStream raises
  | .data bytes endStream => onResponseData c out i bytes endStream now raises
  | .trailers => onResponseEnd c i

def Response.isHeaders : Response → Bool
  | .headers _ _ => true
  | _ => false

def handlers (out : Outside) : Handlers UInt64 Wire Response where
  toFlavour := flavour
  settle := settle
  onResponse c := onResponse c out
  isHeaders := Response.isHeaders
  terminateStream := terminateStream

/-- What the calls `es` lead to, on a new client. -/
def Reaches (out : Outside) (config : Config) (es : List (Event Response))
    (c : WebSocketStreamBenchmarkClientImpl) : Prop :=
  Lts.Run (fun a e b => StreamClient.step a (handlers out) e = some b) (new config {} 0) es c

end WebSocketStreamBenchmarkClientImpl

end Sortie.Engine
