import Mathlib.Algebra.Order.Ring.Nat

/-!
# The remote request source

`RequestStreamGrpcClientImpl` (engine/source/common/request_stream_grpc_client_impl.cc) asks a
service for messages, a buffer full at a time, and a worker takes a request made of one of
them at each call.
-/

namespace Sortie.Engine

/-- The client, with the quantities that it has asked for. -/
structure RequestStreamGrpcClientImpl (M : Type) where
  headerBufferLength : UInt32
  /-- there is a stream -/
  stream : Bool := false
  messages : List M := []
  inFlightHeaders : UInt32 := 0
  totalMessagesReceived : UInt32 := 0
  sent : List UInt32 := []

namespace RequestStreamGrpcClientImpl

variable {M : Type} (c : RequestStreamGrpcClientImpl M)

def trySendRequest : RequestStreamGrpcClientImpl M :=
  if c.stream then
    { c with
      sent := c.sent ++ [c.headerBufferLength]
      inFlightHeaders := c.headerBufferLength }
  else c

/-- `start`, with whether the client is given a stream. -/
def start (stream : Bool) : RequestStreamGrpcClientImpl M :=
  { c with stream := stream }.trySendRequest

def onReceiveMessage (message : M) : RequestStreamGrpcClientImpl M :=
  { c with
    inFlightHeaders := c.inFlightHeaders - 1
    totalMessagesReceived := c.totalMessagesReceived + 1
    messages := c.messages ++ [message] }

def onRemoteClose : RequestStreamGrpcClientImpl M := { c with stream := false }

/-- `maybeDequeue`, with the message that the request is made of. -/
def maybeDequeue : Option M × RequestStreamGrpcClientImpl M :=
  match c.messages with
  | [] => (none, c)
  | message :: messages =>
    let c := { c with messages := messages }
    (some message,
      if c.inFlightHeaders = 0 ∧ messages.length < c.headerBufferLength.toNat then c.trySendRequest
      else c)

inductive Event (M : Type) where
  | onReceiveMessage (message : M)
  | onRemoteClose
  | maybeDequeue

/-- A client, with the messages that arrived and those that were taken. -/
structure World (M : Type) where
  client : RequestStreamGrpcClientImpl M
  arrived : List M := []
  taken : List M := []

/-- What was asked for so far. -/
def World.requested (w : World M) : Nat := (w.client.sent.map UInt32.toNat).sum

/-- The service sends what it is asked for and no more. -/
def World.step (w : World M) : Event M → Option (World M)
  | .onReceiveMessage message =>
    if w.arrived.length < w.requested then
      some { w with client := w.client.onReceiveMessage message, arrived := w.arrived ++ [message] }
    else none
  | .onRemoteClose => some { w with client := w.client.onRemoteClose }
  | .maybeDequeue =>
    some { w with
      client := w.client.maybeDequeue.2
      taken := w.taken ++ w.client.maybeDequeue.1.toList }

/-- A client just started, on a stream. -/
def World.started (headerBufferLength : UInt32) : World M :=
  { client := start { headerBufferLength := headerBufferLength } true }

end RequestStreamGrpcClientImpl

end Sortie.Engine
