import Sortie.Api.Options

/-!
# The test server

`HttpTestServerDecoderFilter` (engine/source/server/http_test_server_filter.cc) answers
every request itself, by the `ResponseOptions` it was configured with and, when the
request has a header with more of them, by the two merged
(engine/source/server/configuration.cc). The options that only other filters read are not
here, except for the delays, which the rules of the message check.

A `RELEASE_ASSERT` that fails ends the process, which is `aborted` here.
-/

namespace Sortie.Engine.TestServer

open Proto Api

/-- `HeaderValueOption`, of either version of Envoy's API. -/
structure HeaderValueOption where
  header : Option HeaderValue := none
  append : Option Bool := none
  deriving DecidableEq, Repr

/-- `ConcurrencyBasedLinearDelay`. -/
structure ConcurrencyBasedLinearDelay where
  minimalDelay : Option Duration := none
  concurrencyDelayFactor : Option Duration := none
  deriving DecidableEq, Repr

/-- `oneof_delay_options`. -/
inductive DelayOptions where
  | staticDelay (d : Duration)
  | concurrencyBasedLinearDelay (c : ConcurrencyBasedLinearDelay)
  deriving DecidableEq, Repr

/-- `nighthawk.server.ResponseOptions`. -/
structure ResponseOptions where
  /-- of the deprecated version 2 -/
  responseHeaders : List HeaderValueOption := []
  v3ResponseHeaders : List HeaderValueOption := []
  responseBodySize : UInt32 := 0
  echoRequestHeaders : Bool := false
  delayOptions : Option DelayOptions := none
  deriving DecidableEq, Repr

/-! ## Merging -/

/-- A message field of two merged messages. -/
def mergeField {α : Type} (merge : α → α → α) : Option α → Option α → Option α
  | a, none => a
  | none, some b => some b
  | some a, some b => some (merge a b)

/-- `MergeFrom`, for a duration: field by field, like for any message. -/
def mergeDuration (a b : Duration) : Duration where
  seconds := if b.seconds ≠ 0 then b.seconds else a.seconds
  nanos := if b.nanos ≠ 0 then b.nanos else a.nanos
  secondsInt64 := by
    split
    · exact b.secondsInt64
    · exact a.secondsInt64
  nanosInt32 := by
    split
    · exact b.nanosInt32
    · exact a.nanosInt32

/-- `MergeFrom`, for the delay: another alternative replaces the one there is. -/
def mergeDelay : DelayOptions → DelayOptions → DelayOptions
  | .staticDelay a, .staticDelay b => .staticDelay (mergeDuration a b)
  | .concurrencyBasedLinearDelay a, .concurrencyBasedLinearDelay b =>
    .concurrencyBasedLinearDelay
      { minimalDelay := mergeField mergeDuration a.minimalDelay b.minimalDelay
        concurrencyDelayFactor :=
          mergeField mergeDuration a.concurrencyDelayFactor b.concurrencyDelayFactor }
  | _, b => b

/-- `MergeFrom`: lists are joined, and what the other message sets replaces what is there. -/
def ResponseOptions.mergeFrom (o json : ResponseOptions) : ResponseOptions where
  responseHeaders := o.responseHeaders ++ json.responseHeaders
  v3ResponseHeaders := o.v3ResponseHeaders ++ json.v3ResponseHeaders
  responseBodySize :=
    if json.responseBodySize ≠ 0 then json.responseBodySize else o.responseBodySize
  echoRequestHeaders := o.echoRequestHeaders || json.echoRequestHeaders
  delayOptions := mergeField mergeDelay o.delayOptions json.delayOptions

/-- What the filter asks of Envoy; a failure carries the text of the `EnvoyException`. -/
structure Envoy where
  /-- `MessageUtil::loadFromJson`, with the strict visitor -/
  loadFromJson : String → Except String ResponseOptions
  /-- `MessageUtil::validate`, with the strict visitor -/
  validate : ResponseOptions → Except String Unit
  /-- the headers of a request, as they are written to a stream -/
  dump : List (String × String) → String

/-- `mergeJsonConfig`. -/
def mergeJsonConfig (env : Envoy) (json : String) (config : ResponseOptions) :
    Except String ResponseOptions :=
  (do
    let jsonConfig ← env.loadFromJson json
    let config := config.mergeFrom jsonConfig
    env.validate config
    return config).mapError ("Error merging json config: " ++ ·)

/-- The header that carries options of a request. -/
def configHeader : String := "x-nighthawk-test-server-config"

/-- The values of the headers with options. -/
def configValues (headers : List (String × String)) : List String :=
  (headers.filter fun h => h.1 == configHeader).map Prod.snd

/-- `computeEffectiveConfiguration`. -/
def computeEffectiveConfiguration (env : Envoy) (base : ResponseOptions)
    (requestHeaders : List (String × String)) : Except String ResponseOptions :=
  match configValues requestHeaders with
  | [] => .ok base
  | [json] => mergeJsonConfig env json base
  | _ => .error "Received multiple configuration headers in the request, expected only one."

/-! ## The headers of the response -/

/-- What is done to the headers of a response, in order. -/
inductive HeaderEdit where
  | remove (key : String)
  | addCopy (key value : String)
  deriving DecidableEq, Repr

/-- `upgradeDeprecatedEnvoyV2HeaderValueOptionToV3`. -/
def upgradeDeprecatedEnvoyV2HeaderValueOptionToV3 (o : HeaderValueOption) : HeaderValueOption where
  append := o.append
  header := o.header.map fun h => { key := h.key, value := h.value }

/-- The condition of the `RELEASE_ASSERT` in `validateResponseOptions`. -/
def validateResponseOptions (o : ResponseOptions) : Bool :=
  !(decide (0 < o.responseHeaders.length) && decide (0 < o.v3ResponseHeaders.length))

/-- What one option does to the headers. -/
def headerEdits (o : HeaderValueOption) : List HeaderEdit :=
  let header := o.header.getD ⟨"", ""⟩
  let lowerCaseKey := Text.asciiLower header.key
  (if o.append.getD false then [] else [.remove lowerCaseKey])
    ++ [.addCopy lowerCaseKey header.value]

/-- `applyConfigToResponseHeaders`; `none` when the assertion fails. -/
def applyConfigToResponseHeaders (o : ResponseOptions) : Option (List HeaderEdit) :=
  if validateResponseOptions o then
    some ((o.v3ResponseHeaders
      ++ o.responseHeaders.map upgradeDeprecatedEnvoyV2HeaderValueOptionToV3).flatMap headerEdits)
  else none

/-! ## The filter -/

/-- A call of `sendLocalReply`: the code, the body, and what is done to the headers. -/
structure Reply where
  code : Nat
  body : String
  edits : List HeaderEdit := []
  deriving DecidableEq, Repr

/-- `HttpTestServerDecoderFilter`, with the replies it has sent. -/
structure Filter where
  /-- a `StatusOr`, which is an error before anything is assigned -/
  effectiveConfig : Except String ResponseOptions := .error ""
  requestHeadersDump : Option String := none
  replies : List Reply := []
  aborted : Bool := false

namespace Filter

variable (s : Filter)

/-- `sendReply`. The callback that edits the headers runs inside `sendLocalReply`. -/
def sendReply (options : ResponseOptions) : Filter :=
  let responseBody := String.ofList (List.replicate options.responseBodySize.toNat 'a')
    ++ s.requestHeadersDump.getD ""
  match applyConfigToResponseHeaders options with
  | none => { s with aborted := true }
  | some edits => { s with replies := s.replies ++ [{ code := 200, body := responseBody, edits }] }

/-- `validateOrSendError`, of a filter with this name: whether it has sent an error. -/
def validateOrSendError (filterName : String) : Bool × Filter :=
  match s.effectiveConfig with
  | .error message => (true, { s with replies := s.replies
      ++ [{ code := 500, body := filterName ++ " didn't understand the request: " ++ message }] })
  | .ok _ => (false, s)

def filterName : String := "test-server"

/-- `decodeHeaders`. -/
def decodeHeaders (env : Envoy) (base : ResponseOptions) (headers : List (String × String))
    (endStream : Bool) : Filter :=
  let s := { s with effectiveConfig := computeEffectiveConfiguration env base headers }
  if !endStream then s
  else match s.validateOrSendError filterName, s.effectiveConfig with
    | (false, s), .ok config =>
      let s := if config.echoRequestHeaders then
          { s with requestHeadersDump := some ("\nRequest Headers:\n" ++ env.dump headers) }
        else s
      s.sendReply config
    | (_, s), _ => s

/-- `decodeData`; the data itself is not looked at. -/
def decodeData (endStream : Bool) : Filter :=
  if !endStream then s
  else match s.validateOrSendError filterName, s.effectiveConfig with
    | (false, s), .ok config => s.sendReply config
    | (_, s), _ => s

/-- `decodeTrailers`. -/
def decodeTrailers : Filter := s

end Filter

/-! ## Requests -/

/-- What a filter is told of a request. -/
inductive Event where
  | headers (headers : List (String × String)) (endStream : Bool)
  | data (bytes : List UInt8) (endStream : Bool)
  | trailers
  deriving DecidableEq, Repr

/-- How a request ends, with the chunks of data that come between its headers and its end. -/
inductive Ending where
  | byHeaders
  | byData (chunks : List (List UInt8)) (last : List UInt8)
  | byTrailers (chunks : List (List UInt8))
  deriving DecidableEq, Repr

/-- A whole request. -/
structure Request where
  headers : List (String × String)
  ending : Ending
  deriving DecidableEq, Repr

/-- What the filter is told of it, in order. -/
def Request.events (r : Request) : List Event :=
  match r.ending with
  | .byHeaders => [.headers r.headers true]
  | .byData chunks last =>
    .headers r.headers false :: chunks.map (.data · false) ++ [.data last true]
  | .byTrailers chunks => .headers r.headers false :: chunks.map (.data · false) ++ [.trailers]

/-- A process that was ended does nothing any more. -/
def Filter.step (env : Envoy) (base : ResponseOptions) (s : Filter) (e : Event) : Filter :=
  if s.aborted then s
  else match e with
    | .headers headers endStream => s.decodeHeaders env base headers endStream
    | .data _ endStream => s.decodeData endStream
    | .trailers => s.decodeTrailers

/-- A filter of its own for each request. -/
def serve (env : Envoy) (base : ResponseOptions) (r : Request) : Filter :=
  r.events.foldl (Filter.step env base) {}

/-- How `createFilterFactoryFromProto` ends when it makes no factory. -/
inductive FactoryError where
  | invalid (text : String)
  | aborted
  deriving DecidableEq, Repr

/-- `createFilterFactoryFromProto`: the factory is the options it was given. -/
def createFilterFactoryFromProto (env : Envoy) (o : ResponseOptions) :
    Except FactoryError ResponseOptions := do
  (env.validate o).mapError .invalid
  if validateResponseOptions o then return o else throw .aborted

end Sortie.Engine.TestServer
