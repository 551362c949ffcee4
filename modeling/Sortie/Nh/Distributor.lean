import Sortie.Api.Options
import Sortie.Api.Output
import Sortie.Nh.Errors

/-!
# Driving a pool through a distributor

`DistributePartial` of internal/nh/distributor.go. What comes over the network is a
`Conversation`: whether the stream could be opened and written to, the answers that
arrived, and how the stream ended. The function of the source is a function of it.

The answers are attributed by address. Both sides are compared in a canonical form,
and a pool that was not run as requested is an error: a target that answered twice,
or an answer from something that was never targeted.
-/

namespace Sortie.Nh

open Api

variable {F : Type}

/-! ## Addresses -/

/-- The text of the error `strconv.ParseUint` returns. Digits that overflow decide first. -/
def parseUintError (s : String) (bits : Nat) : String :=
  let reason :=
    if 2 ^ bits ≤ Text.digitsValue (s.toList.takeWhile Char.isDigit) then "value out of range"
    else "invalid syntax"
  "strconv.ParseUint: parsing " ++ Text.quote s ++ ": " ++ reason

/-- `socketAddress`. -/
def socketAddress (hostPort : String) : Except GoError SocketAddress :=
  match Text.splitHostPort hostPort with
  | .error e => .error (.wrap ("address " ++ Text.quote hostPort ++ ": want host:port: ")
      (.message e) "")
  | .ok (host, portText) => match Text.parseUint portText 16 with
    | none => .error (.wrap ("address " ++ Text.quote hostPort ++ ": invalid port: ")
        (.message (parseUintError portText 16)) "")
    | some port => .ok { address := host, portValue := UInt32.ofNat port }

/-- `formatAddress`; the address of a response need not be a socket address. -/
def formatAddress : Option SocketAddress → String
  | none => "unknown"
  | some a => Text.joinHostPort a.address (toString a.portValue.toNat)

/-- `canonicalAddress`. -/
def canonicalAddress (addr : String) : String :=
  match Text.splitHostPort addr with
  | .error _ => addr
  | .ok (host, port) => Text.joinHostPort host port

/-! ## Answers -/

/-- `google.rpc.Status`. -/
structure RpcStatus where
  code : Code
  message : String
  deriving DecidableEq, Repr

/-- `ExecutionResponse`. -/
structure ExecutionResponse (F : Type) where
  output : Option (Output F) := none
  errorDetail : Option RpcStatus := none
  deriving DecidableEq, Repr

/-- `distributed_response_type`. -/
inductive DistributedAnswer (F : Type) where
  | error (s : RpcStatus)
  | executionResponse (r : ExecutionResponse F)
  deriving DecidableEq, Repr

/-- `DistributedServiceResponse`. -/
structure ServiceResponse (F : Type) where
  service : Option SocketAddress
  answer : Option (DistributedAnswer F)
  deriving DecidableEq, Repr

/-- A status that is an error: it is there and its code is not `OK`. -/
def failure (s : Option RpcStatus) : Option RpcStatus := s.filter fun s => s.code ≠ Code.ok

/-- `GetError()`. -/
def ServiceResponse.error (sr : ServiceResponse F) : Option RpcStatus :=
  match sr.answer with
  | some (.error s) => some s
  | _ => none

/-- `GetExecutionResponse()`: an absent one reads as an empty one. -/
def ServiceResponse.executionResponse (sr : ServiceResponse F) : ExecutionResponse F :=
  match sr.answer with
  | some (.executionResponse r) => r
  | _ => {}

/-- `TargetError`. -/
structure TargetError where
  target : String
  err : GoError
  deriving DecidableEq, Repr

/-- What has been gathered from the stream. -/
structure Received (F : Type) where
  /-- every target heard from -/
  answered : List String := []
  /-- the targets with something to judge, and what they returned -/
  outputs : List (String × Output F) := []
  failed : List TargetError := []
  deriving Repr

/-- The error of a target whose response is one. -/
def RpcStatus.toError (s : RpcStatus) : GoError :=
  match busyFromStatus s.code s.message with
  | some b => .busy b.max b.err
  | none => .message s.message

/-- One service response, as the loop of `DistributePartial` takes it in. -/
def Received.add (r : Received F) (sr : ServiceResponse F) : Received F :=
  let name := formatAddress sr.service
  let r := { r with answered := r.answered ++ [name] }
  match failure sr.error with
  | some s => { r with failed := r.failed ++ [⟨name, s.toError⟩] }
  | none =>
    let er := sr.executionResponse
    let reported := ((failure er.errorDetail).map fun s =>
      TargetError.mk name (.message s.message)).toList
    match withResults er.output with
    | some out => { r with outputs := r.outputs ++ [(name, out)], failed := r.failed ++ reported }
    | none =>
      -- answered, with nothing to judge: failed all the same
      let failed :=
        if reported.isEmpty then [⟨name, .message "returned no results"⟩] else reported
      { r with failed := r.failed ++ failed }

/-! ## Matching the pool -/

/-- How often a target was heard from. -/
def timesAnswered (answered : List String) (target : String) : Nat :=
  answered.countP fun name => canonicalAddress name == canonicalAddress target

/-- The requested targets that did not answer. -/
def missing (targets answered : List String) : List String :=
  targets.filter fun t => timesAnswered answered t == 0

/-- The targets that answered more than once, with the number of answers. -/
def duplicated (targets answered : List String) : List String :=
  (targets.filter fun t => 2 ≤ timesAnswered answered t).map fun t =>
    t ++ " (x" ++ toString (timesAnswered answered t) ++ ")"

/-- The answers from something that was not targeted. -/
def unexpected (targets answered : List String) : List String :=
  answered.filter fun name => !(targets.map canonicalAddress).contains (canonicalAddress name)

/-- `matchTargets`: the silent targets, and what makes the answers unattributable. -/
def matchTargets (targets answered : List String) : List String × List String :=
  let dup := duplicated targets answered
  let unx := unexpected targets answered
  (missing targets answered,
    (if dup.isEmpty then [] else ["repeated results from " ++ Text.join ", " dup])
      ++ if unx.isEmpty then [] else ["results from untargeted " ++ Text.join ", " unx])

/-! ## The request -/

/-- What happens on the network while `DistributePartial` runs. -/
structure Conversation (F : Type) where
  /-- how the context had ended before the stream was opened -/
  ended : Option CtxErr := none
  opened : Option GoError := none
  sent : Option GoError := none
  closed : Option GoError := none
  received : List (ServiceResponse F) := []
  /-- the error the stream broke with; without one it ended -/
  broken : Option GoError := none
  deriving Repr

/-- What `DistributePartial` returns when it is not an error. -/
structure Distributed (F : Type) where
  outputs : List (String × Output F)
  failed : List TargetError
  deriving Repr

/-- `fmt.Errorf("…: %w", err)` for a step of the request that failed. -/
def stepFailed (what : String) : Option GoError → Except GoError Unit
  | none => .ok ()
  | some e => .error (.wrap (what ++ ": ") e "")

/-- `DistributePartial`. -/
def distributePartial (targets : List String) (c : Conversation F) :
    Except GoError (Distributed F) := do
  let _ ← targets.mapM socketAddress
  stepFailed "not started" (c.ended.map GoError.ctx)
  stepFailed "opening distributor stream" c.opened
  stepFailed "sending distributed request" c.sent
  stepFailed "closing send direction" c.closed
  let got := c.received.foldl Received.add {}
  let (silent, problems) := matchTargets targets got.answered
  if problems ≠ [] then
    let problems :=
      if silent.isEmpty then problems else ("no result from " ++ Text.join ", " silent) :: problems
    throw (.message ("distributor did not run the pool as requested: " ++ Text.join "; " problems))
  let reason := match c.broken with
    | some e => .wrap "awaiting distributed response: " e ""
    | none => .message "no result"
  return { outputs := got.outputs
           failed := got.failed ++ silent.map fun t => ⟨t, reason⟩ }

end Sortie.Nh
