import Sortie.Engine.WebSocket

/-!
# The WebSocket echo server

`WebSocketEchoFilter` (engine/source/server/websocket_echo_filter.cc) answers an upgrade
itself and then echoes every data frame. It keeps no bytes of its own: it returns
`StopIterationNoBuffer` from `decodeData`, so what the decoder leaves in the chunk is
discarded.
-/

namespace Sortie.Engine

open Sortie.Engine.WebSocket

namespace WebSocketEchoFilter

/-- The headers the filter answers a request with. -/
inductive Response where
  | localReply (code : Nat) (body : String)
  /-- 101, with the `Sec-WebSocket-Accept` -/
  | switchingProtocols (accept : String)
  deriving DecidableEq, Repr

end WebSocketEchoFilter

open WebSocketEchoFilter in
structure WebSocketEchoFilter where
  upgraded : Bool := false
  closed : Bool := false
  responses : List Response := []
  /-- the calls of `encodeData`: the bytes, and `end_stream` -/
  sent : List (List UInt8 × Bool) := []
  deriving DecidableEq, Repr

namespace WebSocketEchoFilter

variable (s : WebSocketEchoFilter)

/-- `decodeHeaders`, for a request that is an upgrade or not, with its `Sec-WebSocket-Key` values.
-/
def decodeHeaders (acceptKey : String → String) (isWebSocketUpgradeRequest : Bool)
    (key : List String) : WebSocketEchoFilter :=
  if !isWebSocketUpgradeRequest then
    { s with responses := s.responses
      ++ [.localReply 426 "websocket-echo: expected a WebSocket upgrade\n"] }
  else match key with
    | [key] =>
      { s with
        upgraded := true
        responses := s.responses ++ [.switchingProtocols (acceptKey key)] }
    | _ =>
      { s with responses := s.responses
        ++ [.localReply 400 "websocket-echo: expected one Sec-WebSocket-Key\n"] }

/-- `send`. -/
def send (frame : Frame) (endStream : Bool) : WebSocketEchoFilter :=
  if s.closed then s
  else
    { s with
      closed := endStream
      sent := s.sent ++ [(encodeFrame frame none, endStream)] }

/-- The loop over the frames of a chunk, and whether it came to its end. A Close leaves it. -/
def echo : List Frame → WebSocketEchoFilter → WebSocketEchoFilter × Bool
  | [], s => (s, true)
  | frame :: frames, s =>
    match frame.opcode with
    | .text | .binary | .continuation => echo frames (s.send frame false)
    | .ping => echo frames (s.send { frame with opcode := .pong } false)
    | .pong => echo frames s
    | .close => (s.send frame true, false)

/-- The end of the request ends the response, if a Close has not. -/
def endResponse : WebSocketEchoFilter :=
  if s.closed then s
  else { s with closed := true, sent := s.sent ++ [([], true)] }

/-- `decodeData`, and what it leaves in the chunk. -/
def decodeData (data : List UInt8) (endStream : Bool) : WebSocketEchoFilter × List UInt8 :=
  if !s.upgraded || s.closed then (s, [])
  else
    let d := Decoder.feed data
    if d.ok then
      match echo d.items s with
      | (s, true) => (if endStream then s.endResponse else s, d.rest)
      | (s, false) => (s, d.rest)
    else (s.send (closeFrame 1002) true, d.rest)

/-- A chunk of the request. What `decodeData` leaves of it is discarded. -/
def receive (data : List UInt8) : WebSocketEchoFilter := (s.decodeData data false).1

end WebSocketEchoFilter

end Sortie.Engine
