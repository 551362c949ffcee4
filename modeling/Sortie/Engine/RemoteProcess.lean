import Sortie.Engine.Messages

/-!
# A run on another machine's service

`RemoteProcessImpl::run` (engine/source/client/remote_process_impl.cc) and
`NighthawkServiceClientImpl::PerformNighthawkBenchmark`
(engine/source/common/nighthawk_service_client_impl.cc): a client opens a stream, sends
one start and closes its side, and reads until the service ends the stream. `Shows` says
what such a client can see of a service.
-/

namespace Sortie.Engine

open ServiceImpl

namespace RemoteProcessImpl

/-- What the calls of a client on its stream return. -/
structure Exchange where
  /-- `Write` -/
  written : Bool
  /-- `WritesDone` -/
  halfClosed : Bool
  /-- what `Read` delivers until it returns false -/
  responses : List Response
  /-- `Finish`: a status of the service, or nothing when the call failed on the way -/
  finish : Option Status

/-- `status.ok()` for what `Finish` returned. -/
def Exchange.endedOk (x : Exchange) : Bool := x.finish.any (·.code == .ok)

/--
`PerformNighthawkBenchmark`: the last response, or the message of the error. Nothing
when its `RELEASE_ASSERT` fails, which is at the second response.
-/
def performNighthawkBenchmark (x : Exchange) : Option (Except String Response) :=
  if !x.written then
    some (.error "Failed to write request to the Nighthawk Service gRPC channel.")
  else if !x.halfClosed then
    some (.error "WritesDone() failed on the Nighthawk Service gRPC channel.")
  else match x.responses with
    | [] => some (.error "Nighthawk Service did not send a gRPC response.")
    | [response] =>
      if x.endedOk then some (.ok response)
      else some (.error ((x.finish.map (·.message)).getD ""))
    | _ :: _ :: _ => none

/-- `run`; nothing when the process aborts. -/
def run (x : Exchange) : Option Bool :=
  (performNighthawkBenchmark x).map fun
    | .ok _ => true
    | .error _ => false

/-- The start it sends: all its options, the one that asks for the remote run cleared. -/
def startRequest (m : OptionsImpl.Members) : Except BuildError StartRequest := do
  let options ← m.toCommandLineOptions
  return { options := { options with nighthawkService := some "" } }

end RemoteProcessImpl

namespace ServiceImpl

open RemoteProcessImpl

/-- The responses that were written on stream `s`, in order. -/
def Service.responsesOn (v : Service) (s : Nat) : List Response :=
  (v.executions.filter (·.stream == s)).flatMap (·.responses.reverse)

/-- What the client of stream `s` sees once its call is over. -/
inductive Served.Shows (w : Served) (s : Nat) : Exchange → Prop where
  /-- the stream ended with a status; that is OK only once the client had closed its side -/
  | ended {status : Status} {written halfClosed : Bool} :
      (w.service.streams s).pc = .returned status →
      (status.code = .ok → written = true ∧ halfClosed = true) →
      Shows w s
        { written, halfClosed, responses := w.service.responsesOn s, finish := some status }
  /-- the call failed on the way, or the service died -/
  | broken {written halfClosed : Bool} {seen : List Response} :
      seen <+: w.service.responsesOn s →
      Shows w s { written, halfClosed, responses := seen, finish := none }

/-- What an event delivers on stream `s`: a message, or the end of the client's side. -/
def MessageEvent.deliveredOn (s : Nat) : MessageEvent → Option (Option Message)
  | .read t m => if t = s then some (some m) else none
  | .endOfStream t => if t = s then some none else none
  | _ => none

end ServiceImpl

end Sortie.Engine
